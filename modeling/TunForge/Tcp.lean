import TunForge.TcpIn

/-! The operations of `tcp.c` on one pcb that make no callback: window credit,
closing and the parts of the timers that only touch the pcb. -/
namespace TunForge.Tcp
open SerialNumber PbufChain LwipTypes TcpOut TcpIn

variable {o : Platform}

/-- `tcp_recved`: credit `len` bytes to the receive window, which never passes its maximum. -/
def tcpRecved (pcb : Pcb o) (len : ℕ) : Pcb o :=
  let wnd := (pcb.rx.rcvWnd + len) % o.wndMod
  let wnd := if pcb.wndMax < wnd ∨ wnd < pcb.rx.rcvWnd then pcb.wndMax else wnd
  let (rx, inflation) := tcpUpdateRcvAnnWnd o pcb.mss { pcb.rx with rcvWnd := wnd }
  let pcb := { pcb with rx := rx }
  if tcpWndUpdateThreshold o ≤ inflation then tcpOutput (tcpAckNow pcb) else pcb

/-- The state a pcb goes to when its FIN is queued, where closing queues one. -/
def closeTarget : TcpState → Option TcpState
  | .synRcvd | .established => some .finWait1
  | .closeWait => some .lastAck
  | _ => none

/-- `tcp_close_shutdown_fin`. Where the FIN cannot be queued it is left pending, and the
caller is told that all went well. -/
def tcpCloseShutdownFin (pcb : Pcb o) : Pcb o :=
  match closeTarget pcb.state with
  | none => pcb
  | some next =>
    match tcpSendFin pcb with
    | (p, .ok) =>
      tcpOutput { (if pcb.state = .synRcvd then tcpBacklogAccepted p else p) with state := next }
    | (p, _) => { p with closePend := true }

/-- How a call of `tcp_close` ends: the pcb was freed inside it and `ERR_OK` returned, or it
still exists and an error code is returned. -/
inductive CloseOutcome (P : Type)
  | freed
  | returned (pcb : P) (err : Err)

/-- Not all received data has been taken by the application, so closing resets the peer. -/
def unreadData (pcb : Pcb o) : Bool :=
  (pcb.state = .established || pcb.state = .closeWait) &&
    (pcb.rx.refusedData.isSome || pcb.rx.rcvWnd ≠ pcb.wndMax)

/-- `tcp_close` of a connection pcb. With unread data the pcb is purged and freed at once, or
handed to `tcp_input` to free if that is at work on it. -/
def tcpClose (pcb : Pcb o) : CloseOutcome (Pcb o) :=
  let pcb := { pcb with rxClosed := true }
  if unreadData pcb then
    if pcb.inputPcb then .returned { tcpPcbPurge pcb with list := .unlisted, closed := true } .ok
    else .freed
  else
    match pcb.state with
    | .closed | .synSent => .freed
    | _ => .returned (tcpCloseShutdownFin pcb) .ok

/-- `tcp_shutdown(pcb, 0, 1)`. -/
def tcpShutdownTx (pcb : Pcb o) : Pcb o :=
  match pcb.state with
  | .synRcvd | .established | .closeWait => tcpCloseShutdownFin pcb
  | _ => pcb

/-- Retry a pending FIN, as `tcp_fasttmr` and `tcp_handle_closepend` do. -/
def sendPendingFin (pcb : Pcb o) : Pcb o :=
  if pcb.closePend then tcpCloseShutdownFin { pcb with closePend := false } else pcb

/-- The delayed acknowledgement and the pending FIN of `tcp_fasttmr`. -/
def fasttmrSend (pcb : Pcb o) : Pcb o :=
  let pcb :=
    if pcb.ackDelay then { tcpOutput (tcpAckNow pcb) with ackDelay := false, ackNow := false }
    else pcb
  sendPendingFin pcb

/-- The persist timer of `tcp_slowtmr` fires: a probe into a closed window, or as much of the
first unsent segment as an open one takes. -/
def persistFire (keep : ℕ) (pcb : Pcb o) : Pcb o :=
  if pcb.tx.sndWnd = 0 then (tcpZeroWindowProbe pcb).1
  else
    match tcpSplitUnsentSeg keep (pcb.tx.sndWnd % 2 ^ 16) pcb with
    | (pcb, .ok) => tcpOutput pcb
    | (pcb, _) => pcb

/-- Ticks since the last activity, as the `u32_t` difference. -/
def idle (pcb : Pcb o) : ℕ := (pcb.ticks + (2 ^ 32 - pcb.tmr % 2 ^ 32)) % 2 ^ 32

/-- The conditions under which `tcp_slowtmr` removes an active pcb. -/
def slowtmrRemoves (pcb : Pcb o) : Bool :=
  pcb.env.exhausted ||
  (decide (pcb.state = .finWait2) && pcb.rxClosed && decide (20000 / 500 < idle pcb)) ||
  (decide (pcb.state = .synRcvd) && decide (20000 / 500 < idle pcb)) ||
  (decide (pcb.state = .lastAck) && decide (2 * 15000 / 500 < idle pcb))

/-- `tcp_slowtmr` gives up out-of-sequence data after six retransmission timeouts of silence. -/
def dropStaleOoseq (pcb : Pcb o) : Pcb o :=
  if pcb.rx.ooseq ≠ [] ∧ pcb.env.rto * 6 ≤ idle pcb then
    { pcb with rx := { pcb.rx with ooseq := [] } }
  else pcb

/-- A TIME-WAIT pcb is freed after twice the segment lifetime. -/
def timeWaitExpired (pcb : Pcb o) : Bool := decide (2 * 15000 / 500 < idle pcb)

/-- `tcp_timewait_input`. -/
def tcpTimewaitInput (pcb : Pcb o) (seg : Segment) : Pcb o :=
  if seg.rst then pcb
  else if seg.syn ∧ between seg.seqno pcb.rx.rcvNxt
    (pcb.rx.rcvNxt + BitVec.ofNat 32 pcb.rx.rcvWnd) then pcb
  else
    let pcb := if !seg.syn && seg.fin then { pcb with tmr := pcb.ticks } else pcb
    if 0 < seg.tcplen then tcpOutput (tcpAckNow pcb) else pcb

/-- The pcb `tcp_alloc` and `tcp_listen_input` make for a SYN, before the SYN|ACK is queued. -/
def newPcb (o : Platform) (seg : Segment) (iss : Seq) (env : Env) (ticks : ℕ) : Pcb o :=
  tcpParseopt
    { state := .synRcvd, list := .active, listener := true, mss := 536, tmr := ticks, polltmr := 0
      ackDelay := false, ackNow := false, closePend := false, rxClosed := false, wndScale := false
      backlogPend := true
      rx :=
        { rcvNxt := seg.seqno + 1, rcvWnd := min o.tcpWnd 0xFFFF, rcvAnnWnd := min o.tcpWnd 0xFFFF
          rcvAnnRightEdge := seg.seqno + 1, ooseq := [], refusedData := none }
      tx :=
        { sndNxt := iss, lastack := iss, sndLbb := iss, sndWl1 := seg.seqno - 1, sndWl2 := iss
          sndWnd := seg.wnd, sndWndMax := seg.wnd, sndScale := 0, sndBuf := o.tcpSndBuf
          sndQueuelen := 0, unsentOversize := 0, unsent := [], unacked := []
          nagleMemErr := false, finQueued := false }
      env := env, ticks := ticks, inputPcb := false, closed := false } seg

/-- `tcp_listen_input` for a SYN: the new pcb in `SYN_RCVD`, its SYN|ACK queued and offered for
sending. Nothing is kept if the SYN|ACK cannot be queued. -/
def tcpListenInput (o : Platform) (seg : Segment) (iss : Seq) (env : Env) (ticks : ℕ) :
    Option (Pcb o) :=
  match tcpEnqueueFlags (newPcb o seg iss env ticks) true false with
  | (pcb, .ok) => some (tcpOutput pcb)
  | _ => none

end TunForge.Tcp
