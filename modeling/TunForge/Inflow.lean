import TunForge.ReceiveSteps
import TunForge.WorkFrames

/-! Inbound data as a machine of its own. A segment comes off the wire and is held
by the pcb, offered to the connection, and handed on or refused; timers, method
calls and the end of the connection come in between. The running stack refines
this machine, and what is known about received data is proved of it. -/
namespace TunForge.Inflow
open SerialNumber PbufChain LwipTypes TcpOut TcpIn Tcp Connection Callbacks Stack
open Boundary Termination OrdinarySteps BoundaryRule PcbFrames CalmSteps InputCases Refinement
  ReceiveSteps WorkFrames

variable {o : Platform}

/-- What the fate of received data depends on. -/
structure View (o : Platform) where
  pcb : Option (Pcb o)
  living : Bool
  state : ConnState
  recvEnabled : Bool
  readEOF : Bool
  writeFIN : Bool
  inflight : ℕ
  reason : Reason
  handlers : Handlers
  malloc : Bool
  queue : List CBlock
  trace : List (CBlock × Outcome)
  offers : List Offer
  handed : ℕ
  credited : ℕ

/-- The connection object exists and is alive. -/
def living (s : State o) : Bool := s.connExists && s.conn.alive

def view (s : State o) : View o where
  pcb := s.pcb
  living := living s
  state := s.conn.state
  recvEnabled := s.conn.recvEnabled
  readEOF := s.conn.readEOF
  writeFIN := s.conn.writeFIN
  inflight := s.conn.inflightAckBytes
  reason := s.conn.terminationReason
  handlers := s.conn.handlers
  malloc := s.env.malloc
  queue := s.connectionsQueue
  trace := s.log.trace
  offers := s.log.offers
  handed := s.log.handed
  credited := s.log.credited

namespace View

/-- A payload offered now would be taken. -/
def ready (v : View o) : Bool :=
  v.living && v.recvEnabled && decide (v.state = .active) && v.pcb.any fun p =>
    rcvLowWater p ≤ p.rx.rcvWnd

def finTold (v : View o) : View o :=
  { v with
    pcb := v.pcb.map correctFin
    readEOF := v.readEOF || v.living
    queue := v.queue ++ if v.living && !v.readEOF && v.handlers.onReadEOF then [.readEOF] else [] }

/-- The connection has ended, unless it was over already. -/
def ended (r : Reason) (v : View o) : View o :=
  if v.living then
    { v with
      living := false
      state := .closed
      reason := r
      queue := v.queue ++ if v.handlers.onTerminated then [.terminated r] else [] }
  else v

def begun (q : Pcb o) (v : View o) : View o :=
  { v with
    pcb := some q, living := true, state := .new, recvEnabled := false, readEOF := false,
      writeFIN := false
    inflight := 0, reason := .none, handlers := noHandlers, queue := v.queue ++ [.accepted] }

/-- The connection was made and dropped again, since there is no delegate to show it to. -/
def orphaned (v : View o) : View o :=
  { v with
    pcb := none, state := .closed, recvEnabled := false, readEOF := false, writeFIN := false
    inflight := 0, reason := .destroyed, handlers := noHandlers }

end View

/-- `n` bytes have been credited to the window of the pcb. -/
structure Credit (n : ℕ) (p q : Pcb o) : Prop where
  core : core q = core p
  inbox : inbox q = { inbox p with rcvWnd := q.rx.rcvWnd }
  side : side q = side p
  wnd : p.rx.rcvWnd ≤ o.tcpWnd → q.rx.rcvWnd = min (p.rx.rcvWnd + n) o.tcpWnd

/-- `updateInflightAckBytes:` as a function of the counter. -/
def afterDelta (inflight : ℕ) (delta : ℤ) : ℕ :=
  if 0 ≤ delta then (inflight + delta.toNat) % 2 ^ 64
  else if inflight ≤ (-delta).toNat then 0 else inflight - (-delta).toNat

/-- The in-flight count while a payload is being handed on. -/
def counted (c : Pbuf) (v : View o) : ℕ := (v.inflight + c.totLen) % 2 ^ 64

/-- The exits of `tf_tcp_recv` for a payload that has passed the gate. -/
inductive Delivery (c : Pbuf) (v : View o) : View o → Prop
  | bytes (hh : v.handlers.onReadableBytes = true) (hm : v.malloc = true) :
      Delivery c v { v with
        inflight := counted c v
        handed := v.handed + c.totLen
        queue := v.queue ++ [.readableBytes c c.payloads c.totLen] }
  | copied {p q : Pcb o} (hh : v.handlers.onReadableBytes = false ∧ v.handlers.onReadable = true)
      (hm : v.malloc = true) (hp : v.pcb = some p) (hq : Credit (min c.totLen (counted c v)) p q) :
      Delivery c v { v with
        pcb := some q
        inflight := counted c v - min c.totLen (counted c v)
        credited := v.credited + min c.totLen (counted c v)
        handed := v.handed + c.totLen
        queue := v.queue ++ [.readable (c.copyPartial c.totLen 0)] }
  | failed (hm : v.malloc = false) : Delivery c v { v with inflight := counted c v }
  | unread {p q : Pcb o} (hh : v.handlers.onReadableBytes = false ∧ v.handlers.onReadable = false)
      (hp : v.pcb = some p) (hq : Credit c.totLen p q) :
      Delivery c v { v with pcb := some q, inflight := counted c v }

/-- The connection takes a payload: it is over and drops it, or it has room and passes it on. -/
inductive Taking (c : Pbuf) (v : View o) : View o → Prop
  | dropped (h : v.living = false ∨ c.totLen = 0) :
      Taking c v { v with offers := v.offers ++ [⟨c, true⟩] }
  | delivered {w : View o} (hr : v.ready = true) (hc : c.totLen ≠ 0) (hd : Delivery c v w) :
      Taking c v { w with offers := w.offers ++ [⟨c, true⟩] }

/-- How far the processing of an event has come: a segment has not been looked at yet, it has
left data and perhaps a FIN to be handed on, the pcb is about to be removed, or none of these. -/
inductive Phase
  | arriving
  | hand (data : Option Pbuf) (fin : Bool)
  | ending (r : Reason)
  | rest

def start : Event → Phase
  | .segment _ => .arriving
  | _ => .rest

/-- The events in which lwIP offers refused data again. -/
def retries : Event → Bool
  | .segment _ | .fasttmr => true
  | _ => false

/-- Why a pcb is removed, with the reason a living connection then records. -/
inductive Doom (s₀ : State o) (v : View o) : Event → Reason → Prop
  | reset {seg : Segment} {p : Pcb o} (hp : v.pcb = some p) (hl : p.list = .active)
      (hrst : seg.rst = true) (hseq : seg.seqno = p.rx.rcvNxt) : Doom s₀ v (.segment seg) .reset
  | finalAck {seg : Segment} {p : Pcb o} (hp : v.pcb = some p) (hl : p.list = .active)
      (hs : p.state = .lastAck) (hrst : seg.rst = false) (hack : acksAllSent p seg = true) :
      Doom s₀ v (.segment seg) .abort
  | unattended {e : Event} {r : Reason} (h : v.living = false) : Doom s₀ v e r
  | removal {p : Pcb o} (hp : s₀.pcb = some p) (hl : p.list = .active)
      (h : slowtmrRemoves (tick p) = true) :
      Doom s₀ v .slowtmr .destroyed
  | expiry {p : Pcb o} (hp : s₀.pcb = some p) (hl : p.list = .timeWait)
      (h : timeWaitExpired (tick p) = true) :
      Doom s₀ v .slowtmr .destroyed
  | timeout {p : Pcb o} (hp : s₀.pcb = some p) (hl : p.list = .active)
      (h : newStateTimedOut s₀ = true) :
      Doom s₀ v .slowtmr .abort
  | killTimewait {p : Pcb o} (hp : s₀.pcb = some p) (hl : p.list = .timeWait) :
      Doom s₀ v .killTimewait .destroyed
  | killState {p : Pcb o} (hp : s₀.pcb = some p) (hl : p.list = .active)
      (hs : p.state = .lastAck ∨ p.state = .closing) :
      Doom s₀ v .killState .destroyed
  | netif {p : Pcb o} (hp : s₀.pcb = some p) (hl : p.list = .active) :
      Doom s₀ v .netifIpAddrChanged .destroyed

/-- One stage in the processing of an event that finds the stack in `s₀`. -/
inductive Flow (s₀ : State o) (e : Event) : Phase × View o → Phase × View o → Prop
  | worked {ph : Phase} {v : View o} {p q : Pcb o} (hph : ph ≠ .arriving) (hp : v.pcb = some p)
      (hin : inbox q = inbox p) (hl : q.list = p.list)
      (hs : q.state = .synRcvd → p.state = .synRcvd)
      (hk : Keeps p q ∨ e = .listenerClosed ∧ q = { p with listener := false }) :
      Flow s₀ e (ph, v) (ph, { v with pcb := some q })
  | hinted {ph : Phase} {v : View o} {b : CBlock} (hb : isHint b = true) :
      Flow s₀ e (ph, v) (ph, { v with queue := v.queue ++ [b] })
  | refusedAgain {ph : Phase} {v : View o} {p : Pcb o} {r : Refused} (hph : ph = start e)
      (he : retries e = true) (hp : v.pcb = some p) (hl : p.list = .active)
      (hr : p.rx.refusedData = some r) (hv : v.living = true) (hn : v.ready = false) :
      Flow s₀ e (ph, v) (ph, { v with offers := v.offers ++ [⟨(offerSplit o r.p).1, false⟩] })
  | retaken {ph : Phase} {v w : View o} {p : Pcb o} {r : Refused} (hph : ph = start e)
      (he : retries e = true) (hp : v.pcb = some p) (hl : p.list = .active)
      (hr : p.rx.refusedData = some r) (ht : Taking (offerSplit o r.p).1
        { v with pcb := some (setRefused ((offerSplit o r.p).2.map fun q => ⟨q, r.fin⟩) p) } w) :
      Flow s₀ e (ph, v) (ph, if r.fin && (offerSplit o r.p).2.isNone then w.finTold else w)
  | ignored {v : View o} : Flow s₀ e (.arriving, v) (.rest, v)
  | received {v : View o} {seg : Segment} {p q : Pcb o} {b : InSeq} (he : e = .segment seg)
      (hp : v.pcb = some p) (hl : p.list = .active) (hr : p.rx.refusedData = none)
      (hseq : InSequence o (inbox p) seg b) (hs : q.state ≠ .synRcvd)
      (hplace : (q.list = .active ∧ inbox q = inboxOf b.rx) ∨
        (q.list = .timeWait ∧ b.gotFin = true ∧ (p.state = .finWait1 ∨ p.state = .finWait2) ∧
          inbox q = { inboxOf b.rx with ooseq := [], refusedData := none })) (hk : Keeps p q) :
      Flow s₀ e (.arriving, v) (.hand b.recvData b.gotFin, { v with pcb := some q })
  | queued {v : View o} {seg : Segment} {p q : Pcb o} {ooseq : List RxSeg} (he : e = .segment seg)
      (hp : v.pcb = some p) (hl : p.list = .active) (hseq : OutOfSequence (inbox p) seg ooseq)
      (hs : q.state ≠ .synRcvd) (hl' : q.list = .active)
      (hin : inbox q = { inbox p with ooseq := ooseq }) (hk : Keeps p q) :
      Flow s₀ e (.arriving, v) (.rest, { v with pcb := some q })
  | purged {v : View o} {seg : Segment} {p q : Pcb o} (he : e = .segment seg) (hp : v.pcb = some p)
      (hl : p.list = .active) (hst : p.state = .closing) (hack : acksAllSent p seg = true)
      (hs : q.state ≠ .synRcvd) (hl' : q.list = .timeWait)
      (hin : inbox q = { inbox p with ooseq := [], refusedData := none }) (hk : Keeps p q) :
      Flow s₀ e (.arriving, v) (.rest, { v with pcb := some q })
  | made {v : View o} {p q : Pcb o} (hp : v.pcb = some p) (hf : p.state = .synRcvd)
      (hs₀ : living s₀ = false) (hin : inbox q = inbox p) (hl : q.list = p.list)
      (hs : q.state = .established) (hk : Keeps p q) :
      Flow s₀ e (.arriving, v) (.arriving, v.begun q)
  | orphaned {v : View o} {p : Pcb o} (hp : v.pcb = some p) (hf : p.state = .synRcvd)
      (hs₀ : living s₀ = false) (hv : v.living = false) (hd : s₀.env.delegate = false) :
      Flow s₀ e (.arriving, v) (.rest, v.orphaned)
  | reopened {v : View o} {p q : Pcb o} {w : ℕ} (hp : v.pcb = some p) (hf : p.state = .synRcvd)
      (hin : inbox q = { inbox p with rcvWnd := w }) (hw : w = p.rx.rcvWnd ∨ w = o.tcpWnd)
      (hl : q.list = p.list) (hk : Keeps p q) :
      Flow s₀ e (.arriving, v) (.rest, { v with pcb := some q })
  | taken {v w : View o} {c : Pbuf} {fin : Bool} {p : Pcb o} (hp : v.pcb = some p)
      (ht : Taking (offerSplit o c).1 v w) :
      Flow s₀ e (.hand (some c) fin, v) (.hand (offerSplit o c).2 fin, w)
  | refused {v : View o} {c : Pbuf} {fin : Bool} {p : Pcb o} (hp : v.pcb = some p)
      (hv : v.living = true) (hn : v.ready = false) :
      Flow s₀ e (.hand (some c) fin, v) (.hand none fin,
        { v with
          pcb := some (setRefused (some ⟨c, false⟩) p)
          offers := v.offers ++ [⟨(offerSplit o c).1, false⟩] })
  | finMarked {v : View o} {p : Pcb o} {r : Refused} (hp : v.pcb = some p)
      (hr : p.rx.refusedData = some r) :
      Flow s₀ e (.hand none true, v)
        (.rest, { v with pcb := some (setRefused (some { r with fin := true }) p) })
  | finTold {v : View o} {p : Pcb o} (hp : v.pcb = some p) (hr : p.rx.refusedData = none) :
      Flow s₀ e (.hand none true, v) (.rest, v.finTold)
  | settled {v : View o} : Flow s₀ e (.hand none false, v) (.rest, v)
  | staleDropped {v : View o} {p q : Pcb o} (hp : v.pcb = some p)
      (hin : inbox q = { inbox p with ooseq := [] })
      (hl : q.list = p.list) (hs : q.state = .synRcvd → p.state = .synRcvd) (hk : Keeps p q) :
      Flow s₀ e (.rest, v) (.rest, { v with pcb := some q })
  | doomed {ph : Phase} {v : View o} {r : Reason} (hph : ph = start e ∨ v.living = false)
      (hd : Doom s₀ v e r) :
      Flow s₀ e (ph, v) (.ending r, v)
  | removed {v : View o} {r : Reason} :
      Flow s₀ e (.ending r, v) (.rest, { v.ended r with pcb := none })

/-- The way from one stage of an event to another. -/
abbrev Path (s₀ : State o) (e : Event) := Relation.ReflTransGen (Flow s₀ e)

/-- A write that `tcp_write` rejects for good, over which the connection is aborted. -/
def fatalWrite (s : State o) (bytes : Bytes) : Bool := decide ((writeBytes bytes s).2.2 = .error)

/-- The application's events that abort the connection. -/
def aborts (s : State o) : AppEvent → Bool
  | .api .abort => true
  | .api (.writeBytes bytes) | .api (.writeData bytes) => fatalWrite s bytes
  | .runPacketsBlock => decide (s.packetsQueue.head? = some (.decision false))
  | .callAcceptHandler accept onPackets => !accept && onPackets && s.acceptPending
  | _ => false

/-- What an event on the application's side comes to. -/
inductive AppFlow (s : State o) : AppEvent → View o → Prop
  | idle {a : AppEvent} : AppFlow s a (view s)
  | worked {c : ApiCall} {fin : Bool} {p q : Pcb o} {bs : List CBlock} (hp : s.pcb = some p)
      (hin : inbox q = inbox p) (hl : q.list = p.list)
      (hs : q.state = .synRcvd → p.state = .synRcvd) (hb : ∀ b ∈ bs, isHint b = true)
      (hm : Stays p q) (hv : living s = true)
      (hf : fin = false → s.conn.writeFIN = false ∧ Keeps p q) :
      AppFlow s (.api c) { view s with
        pcb := some q, writeFIN := fin, queue := s.connectionsQueue ++ bs }
  | activated {p q : Pcb o} {bs : List CBlock} (hp : s.pcb = some p) (hin : inbox q = inbox p)
      (hl : q.list = p.list) (hs : q.state = .synRcvd → p.state = .synRcvd)
      (hb : ∀ b ∈ bs, b = .activated) (hq : q = tcpBacklogAccepted p) (hv : living s = true) :
      AppFlow s (.api .markActive) { view s with
        pcb := some q, state := .active, queue := s.connectionsQueue ++ bs }
  | enabled {b : Bool} : AppFlow s (.api (.setInboundDeliveryEnabled b)) { view s with
      recvEnabled := b }
  | acknowledged {n : ℕ} {p q : Pcb o} (hp : s.pcb = some p)
      (hq : Credit (min n s.conn.inflightAckBytes) p q) (hv : living s = true) :
      AppFlow s (.api (.acknowledgeDeliveredBytes n)) { view s with
        pcb := some q
        inflight := afterDelta s.conn.inflightAckBytes (-nsInteger (min n s.conn.inflightAckBytes))
        credited := s.log.credited + min n s.conn.inflightAckBytes }
  | closed {p q : Pcb o} (hp : s.pcb = some p) (hu : unreadData p = false) (hin : inbox q = inbox p)
      (hl : q.list = p.list) (hs : q.state ≠ .synRcvd) (hm : Stays p q) :
      AppFlow s (.api .gracefulClose) { (view s).ended .close with pcb := some q }
  | discarded {p : Pcb o} (hp : s.pcb = some p) (hu : unreadData p = true) :
      AppFlow s (.api .gracefulClose) { (view s).ended .destroyed with pcb := none }
  | aborted {a : AppEvent} (ha : aborts s a = true) :
      AppFlow s a { (view s).ended .abort with pcb := none }
  | handlers {h : Handlers} : AppFlow s (.setHandlers h) { view s with handlers := h }
  | ran {b : CBlock} {rest : List CBlock} {out : Outcome} (hq : s.connectionsQueue = b :: rest)
      (hout : needsAlive b = true → (out = .called ↔ living s = true)) :
      AppFlow s .runConnectionsBlock { view s with
        queue := rest, trace := s.log.trace ++ [(b, out)] }
  | released : AppFlow s .release { view s with living := false }
  | env {env : TfEnv} : AppFlow s (.env env) { view s with malloc := env.malloc }

end TunForge.Inflow
