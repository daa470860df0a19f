import TunForge.Callbacks
import TunForge.Runs

/-! One TCP connection of the running stack: lwIP's input and timer functions with
the callbacks they make, and every event that can reach the connection. -/
namespace TunForge.Stack
open SerialNumber PbufChain LwipTypes TcpOut TcpIn Tcp Connection Callbacks

variable {o : Platform}

/-- The low-water mark of `tf_tcp_read_ready`. -/
def rcvLowWater (pcb : Pcb o) : ℕ :=
  match o.tcpRcvLowat with
  | some n => n
  | none => 2 * if pcb.mss = 0 then tcpMss else pcb.mss

/-- `tcp_sndbuf`, which is capped to 16 bits with window scaling. -/
def tcpSndbuf (pcb : Pcb o) : ℕ :=
  if o.lwipWndScale then min pcb.tx.sndBuf 0xFFFF else pcb.tx.sndBuf

instance : RawApi (Pcb o) where
  rcvWnd pcb := pcb.rx.rcvWnd
  rcvLowWater := rcvLowWater
  sndBuf := tcpSndbuf
  inTimeWait pcb := decide (pcb.state = .timeWait)
  recved := tcpRecved
  write := tcpWrite
  output := tcpOutput
  shutdownTx := tcpShutdownTx
  close := tcpClose
  backlogAccepted := tcpBacklogAccepted
  backlogDelayed := tcpBacklogDelayed

abbrev State (o : Platform) := Sys (Pcb o)

/-- Apply `f` to the pcb if it still exists. -/
def modPcb (f : Pcb o → Pcb o) (s : State o) : State o := { s with pcb := s.pcb.map f }

def setRefused (r : Option Refused) (pcb : Pcb o) : Pcb o :=
  { pcb with rx := { pcb.rx with refusedData := r } }

/-- The window byte charged for a FIN is returned, since nobody calls `tcp_recved` for it. -/
def correctFin (pcb : Pcb o) : Pcb o :=
  if pcb.rx.rcvWnd ≠ pcb.wndMax then
    { pcb with rx := { pcb.rx with rcvWnd := (pcb.rx.rcvWnd + 1) % o.wndMod } }
  else pcb

/-- The part of a chain that one receive callback is offered, and what is kept for the next. -/
def offerSplit (o : Platform) (p : Pbuf) : Pbuf × Option Pbuf :=
  if o.lwipWndScale then p.split64k else (p, none)

def rejoin (front : Pbuf) (rest : Option Pbuf) : Pbuf :=
  match rest with
  | none => front
  | some r => front.cat r

/-- Announce the peer's FIN to the application. -/
def deliverFin (s : State o) : State o := eventClosed (modPcb correctFin s)

/-- The loop of `tcp_process_refused_data`; every round takes at least one cell off the chain. -/
def refusedLoop : ℕ → State o → State o
  | 0, s => s
  | fuel + 1, s =>
    match s.pcb.bind fun pcb => pcb.rx.refusedData with
    | none => s
    | some r =>
      let (front, rest) := offerSplit o r.p
      let s := modPcb (setRefused (rest.map fun q => ⟨q, r.fin⟩)) s
      match eventRecv front s with
      | (s, .ok) => refusedLoop fuel (if r.fin ∧ rest = none then deliverFin s else s)
      | (s, .abrt) => s
      | (s, _) => modPcb (setRefused (some ⟨rejoin front rest, r.fin⟩)) s

def refused (s : State o) : Option Refused := s.pcb.bind fun pcb => pcb.rx.refusedData

/-- `tcp_process_refused_data`. -/
def tcpProcessRefusedData (s : State o) : State o :=
  match refused s with
  | none => s
  | some r => refusedLoop (r.p.clen + 1) s

/-- `tcp_pcb_remove` followed by `tcp_free`. -/
def removeAndFree (s : State o) : State o :=
  tcpFree (modPcb (fun pcb => { tcpPcbPurge pcb with state := .closed, list := .unlisted }) s)

/-- `recv_flags & TF_CLOSED`: the pcb has been closed in both directions, or by `tcp_close` from
inside a callback. -/
def closeRequested (s : State o) : Bool := s.pcb.any fun pcb => pcb.closed

/-- The closing branch of `tcp_input_delayed_close`. An application that only shut down its
sending side is told that the connection is over. -/
def delayedClose (s : State o) : State o :=
  removeAndFree (if s.pcb.any fun pcb => pcb.rxClosed then s else eventErr s.hooks .clsd s)

/-- The `sent` callbacks for `acked` bytes, at most 16 bits' worth each. -/
def sentLoop : ℕ → ℕ → State o → State o
  | 0, _, s => s
  | fuel + 1, acked, s =>
    if acked = 0 then s
    else if o.lwipWndScale then
      sentLoop fuel (acked - min acked 0xFFFF) (eventSent (min acked 0xFFFF) s)
    else eventSent acked s

/-- Offer newly received data to the application; what it refuses is kept. Data for a pcb whose
receiving side is closed aborts the connection. -/
def offerData : ℕ → Pbuf → State o → State o
  | 0, _, s => s
  | fuel + 1, p, s =>
    match s.pcb with
    | none => s
    | some pcb =>
      if pcb.rxClosed then tcpAbandon s.env.releaseInGap s
      else
        let (front, rest) := offerSplit o p
        match eventRecv front s with
        | (s, .ok) =>
          match rest with
          | none => s
          | some r => offerData fuel r s
        | (s, .abrt) => s
        | (s, _) => modPcb (setRefused (some ⟨rejoin front rest, false⟩)) s

/-- The FIN of a segment is announced, or marked on the refused data it has to wait for. -/
def handleFin (s : State o) : State o :=
  match refused s with
  | some r => modPcb (setRefused (some { r with fin := true })) s
  | none => deliverFin s

/-- End of input processing: a close requested meanwhile is carried out, then output resumes. -/
def finishInput (s : State o) : State o :=
  let s := modPcb (fun pcb => { pcb with inputPcb := false }) s
  if closeRequested s then delayedClose s else modPcb tcpOutput s

/-- `tcp_input` after `tcp_process`: the callbacks for what the segment brought. -/
def inputTail (r : Processed o) (s : State o) : State o :=
  let s := { s with pcb := some r.pcb }
  if r.reset then removeAndFree (eventErr s.hooks .rst s)
  else
    let s := sentLoop r.recvAcked r.recvAcked s
    if closeRequested s then delayedClose s
    else
      let s := match r.recvData with
        | none => s
        | some p => offerData p.clen p s
      let s := if r.gotFin ∧ s.pcb.isSome then handleFin s else s
      finishInput s

/-- The segment that completes the handshake: the accept callback runs before its data is
looked at, and an error from it aborts the connection. -/
def acceptAndProcess (pcb : Pcb o) (seg : Segment) (s : State o) : State o :=
  if !pcb.listener then tcpAbandon false { s with pcb := some { pcb with state := .established } }
  else
    match tunforgeAccept { s with
      pcb := some (tcpBacklogAccepted { pcb with state := .established }) } with
    | (s, .ok) =>
      match s.pcb with
      | none => s
      | some pcb => inputTail (processEstablished pcb seg) s
    | (s, .abrt) => s
    | (s, _) => tcpAbandon false s

/-- `tcp_input` for the active pcb, once refused data has been dealt with. -/
def inputActive (pcb : Pcb o) (seg : Segment) (s : State o) : State o :=
  let pcb := { pcb with inputPcb := true, closed := false }
  if !seg.rst && completesHandshake pcb seg then acceptAndProcess (noteActivity pcb seg) seg s
  else inputTail (tcpProcess pcb seg) s

/-- `tcp_input` for a segment addressed to this connection. While data is still refused a
segment with text is dropped. -/
def tcpInput (seg : Segment) (s : State o) : State o :=
  match s.pcb with
  | none => s
  | some pcb =>
    match pcb.list with
    | .timeWait => modPcb (tcpTimewaitInput · seg) s
    | .unlisted => s
    | .active =>
      let s := tcpProcessRefusedData s
      match s.pcb with
      | none => s
      | some pcb =>
        if pcb.rx.refusedData.isSome ∧ 0 < seg.tcplen then
          modPcb (fun pcb => if pcb.rx.rcvAnnWnd = 0 then tcpSendEmptyAck pcb else pcb) s
        else inputActive pcb seg s

/-- `tcp_fasttmr`. -/
def tcpFasttmr (s : State o) : State o :=
  match s.pcb with
  | none => s
  | some pcb => if pcb.list = .active then tcpProcessRefusedData (modPcb fasttmrSend s) else s

/-- The polling part of `tcp_slowtmr`. A pcb that the callback freed is not touched again. -/
def pollPcb (pcb : Pcb o) (s : State o) : State o :=
  let polltmr := pcb.polltmr + 1
  if s.hooks.pollInterval ≤ polltmr then
    let s := eventPoll { s with pcb := some { pcb with polltmr := 0 } }
    modPcb (fun pcb => if pcb.list = .active then tcpOutput pcb else pcb) s
  else { s with pcb := some { pcb with polltmr := polltmr } }

/-- `tcp_slowtmr`. -/
def tcpSlowtmr (s : State o) : State o :=
  let s := modPcb (fun pcb => { pcb with ticks := pcb.ticks + 1 }) s
  match s.pcb with
  | none => s
  | some pcb =>
    match pcb.list with
    | .active =>
      if slowtmrRemoves pcb then freeThenErr s.env.releaseInGap s
      else pollPcb (dropStaleOoseq pcb) s
    | .timeWait => if timeWaitExpired pcb then tcpFree s else s
    | .unlisted => s

/-- `tcp_kill_timewait` chooses this pcb. -/
def killTimewait (s : State o) : State o :=
  if s.pcb.any fun pcb => pcb.list = .timeWait then tcpAbandon s.env.releaseInGap s else s

/-- `tcp_kill_state` for `LAST_ACK` or `CLOSING` chooses this pcb. -/
def killState (s : State o) : State o :=
  if s.pcb.any fun pcb => pcb.list = .active ∧ (pcb.state = .lastAck ∨ pcb.state = .closing) then
    tcpAbandon s.env.releaseInGap s
  else s

/-- `tcp_netif_ip_addr_changed` aborts this pcb, whose local address has gone. -/
def netifIpAddrChanged (s : State o) : State o :=
  if s.pcb.any fun pcb => pcb.list = .active then tcpAbandon s.env.releaseInGap s else s

/-- Run `f` on a pcb of the active list. -/
def onActive (f : Pcb o → Pcb o) (s : State o) : State o :=
  modPcb (fun pcb => if pcb.list = .active then f pcb else pcb) s

/-- Everything that can happen to a connection: what reaches lwIP, what the application does,
and changes of lwIP's surroundings. The retransmission and the persist timer, which `tcp_slowtmr`
looks at before all else, are events of their own. -/
inductive Event
  | segment (seg : Segment)
  | fasttmr
  | slowtmr
  | rexmitRto
  | persist (keep : ℕ)
  | handleClosepend
  | killTimewait
  | killState
  | netifIpAddrChanged
  | listenerClosed
  | app (e : AppEvent)
  | env (env : Env)
  deriving DecidableEq

def step (s : State o) : Event → State o
  | .segment seg => tcpInput seg s
  | .fasttmr => tcpFasttmr s
  | .slowtmr => tcpSlowtmr s
  | .rexmitRto => onActive (fun pcb => tcpOutput { pcb with tx := tcpRexmitRtoPrepare pcb.tx }) s
  | .persist keep => onActive (persistFire keep) s
  | .handleClosepend => onActive sendPendingFin s
  | .killTimewait => killTimewait s
  | .killState => killState s
  | .netifIpAddrChanged => netifIpAddrChanged s
  | .listenerClosed => modPcb (fun pcb => { pcb with listener := false }) s
  | .app e => appStep s e
  | .env env => modPcb (fun pcb => { pcb with env := env }) s

/-- The starting states: lwIP has just answered a SYN. -/
def Initial (s : State o) : Prop :=
  ∃ syn iss env ticks tf pcb,
    tcpListenInput o syn iss env ticks = some pcb ∧ syn.syn = true ∧ s = opened pcb tf

/-- A state the stack can get into. -/
def Reachable (s : State o) : Prop := ∃ s₀ es, Initial s₀ ∧ s = Runs.run step s₀ es

end TunForge.Stack
