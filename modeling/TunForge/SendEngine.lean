import TunForge.Stack

/-! The whole send side of a pcb: what the send window, congestion control and Nagle let out,
the retransmission and persist timers, and the round-trip estimate. The queues, the receive
side and the state machine are those of `TcpOut` and `TcpIn`. -/
namespace TunForge.SendEngine
open SerialNumber PbufChain LwipTypes TcpOut TcpIn Tcp Stack

variable {o : Platform}

/-- `TCP_MAXRTX`; the iOS options leave it at its default. -/
def tcpMaxrtx : Platform → ℕ
  | .ios => 12
  | .macos => 8

def tcpBackoff : List ℕ := [1, 2, 3, 4, 5, 6, 7, 7, 7, 7, 7, 7, 7]

/-- `tcp_persist_backoff`, in ticks of the slow timer. -/
def tcpPersistBackoff : List ℕ := [3, 6, 12, 24, 48, 96, 120]

/-- `LWIP_TCP_RTO_TIME / TCP_SLOW_INTERVAL`. -/
def tcpRtoTime : ℤ := 6

/-- A cast to `s16_t`. -/
def s16 (x : ℤ) : ℤ := x.bmod (2 ^ 16)

/-- `LWIP_TCP_CALC_INITIAL_CWND`. -/
def tcpCalcInitialCwnd (mss : ℕ) : ℕ := min (4 * mss) (max (2 * mss) 4380)

/-- `TCP_WND_INC`. -/
def tcpWndInc (o : Platform) (wnd inc : ℕ) : ℕ :=
  if wnd ≤ (wnd + inc) % o.wndMod then (wnd + inc) % o.wndMod else o.wndMod - 1

/-- Congestion control; `infr` is `TF_INFR`, in fast retransmit. -/
structure Congestion where
  cwnd : ℕ
  ssthresh : ℕ
  bytesAcked : ℕ
  dupacks : ℕ
  infr : Bool
  deriving DecidableEq, Repr

/-- The round-trip estimate and the timeout it gives. -/
structure RoundTrip where
  rto : ℤ
  sa : ℤ
  sv : ℤ
  rttest : ℕ
  rtseq : Seq
  deriving DecidableEq, Repr

/-- The retransmission timer; `tfRto` is `TF_RTO`, a timeout has not been made good yet. -/
structure Rexmit where
  nrtx : ℕ
  rtime : ℤ
  rtoEnd : Seq
  tfRto : Bool
  deriving DecidableEq, Repr

/-- The persist timer, which is off while `backoff` is zero. -/
structure Persist where
  cnt : ℕ
  backoff : ℕ
  probe : ℕ
  deriving DecidableEq, Repr

/-- A pcb with the fields that `Pcb` leaves to its surroundings. `wire` is the history of the
segments that were handed to IP and `accepted` that of the bytes `tcp_write` took; no part of
the program reads them. -/
structure Sender (o : Platform) where
  pcb : Pcb o
  cong : Congestion
  trip : RoundTrip
  rexmit : Rexmit
  persist : Persist
  wire : List TxSeg
  accepted : Bytes
  deriving DecidableEq

namespace Sender

def tx (s : Sender o) : Tx := s.pcb.tx

def setTx (tx : Tx) (s : Sender o) : Sender o := { s with pcb := { s.pcb with tx := tx } }

def mapPcb (f : Pcb o → Pcb o) (s : Sender o) : Sender o := { s with pcb := f s.pcb }

end Sender

/-! ### `tcp_output` -/

/-- How far past `lastack` a segment reaches, in the `u32_t` arithmetic of the window test. -/
def reach (tx : Tx) (seg : TxSeg) : ℕ :=
  (seg.seqno - tx.lastack + BitVec.ofNat 32 seg.data.length).toNat

/-- What may be in flight. -/
def sendWindow (s : Sender o) : ℕ := min s.tx.sndWnd s.cong.cwnd

/-- `tcp_do_output_nagle`; nobody sets `TF_NODELAY`. -/
def tcpDoOutputNagle (s : Sender o) : Bool :=
  decide (s.tx.unacked = []) || s.cong.infr ||
    (match s.tx.unsent with
      | [] => false
      | seg :: rest => decide (rest ≠ []) || decide (s.pcb.mss ≤ seg.data.length)) ||
    decide (tcpSndbuf s.pcb = 0) || decide (tcpSndQueuelen o ≤ s.tx.sndQueuelen)

/-- The retransmission timer starts with the first segment that leaves. -/
def startTimer (r : Rexmit) : Rexmit := if r.rtime < 0 then { r with rtime := 0 } else r

/-- A round trip is timed unless one is being timed already. -/
def startTrip (ticks : ℕ) (seqno : Seq) (r : RoundTrip) : RoundTrip :=
  if r.rttest = 0 then { r with rttest := ticks % 2 ^ 32, rtseq := seqno } else r

/-- `tcp_output_segment`, and what the loop of `tcp_output` does with the segment it has sent. -/
def tcpOutputSegment (seg : TxSeg) (rest : List TxSeg) (s : Sender o) : Sender o :=
  { s with
    pcb := { s.pcb with
      rx := announce s.pcb.rx, tx := noteSent s.tx seg rest, ackDelay := false, ackNow := false }
    rexmit := startTimer s.rexmit
    trip := startTrip s.pcb.ticks seg.seqno s.trip
    wire := s.wire ++ [seg] }

/-- The loop of `tcp_output`. -/
def outputLoop (wnd : ℕ) : ℕ → Sender o → Sender o
  | 0, s => s
  | fuel + 1, s =>
    match s.tx.unsent with
    | [] => s
    | seg :: rest =>
      if reach s.tx seg ≤ wnd then
        if !tcpDoOutputNagle s && !(s.tx.nagleMemErr || s.tx.finQueued) then s
        else outputLoop wnd fuel (tcpOutputSegment seg rest s)
      else s

/-- `output_done`. -/
def outputDone (s : Sender o) : Sender o := s.setTx { s.tx with nagleMemErr := false }

/-- Without a segment to send an acknowledgement goes out on its own. -/
def outputAck (s : Sender o) : Sender o :=
  if s.pcb.ackNow then s.mapPcb tcpSendEmptyAck else outputDone s

/-- The persist timer starts when the window alone holds back all there is. -/
def startPersist (wnd : ℕ) (s : Sender o) : Sender o :=
  if wnd = s.tx.sndWnd ∧ s.tx.unacked = [] ∧
    s.persist.backoff = 0 then { s with persist := ⟨0, 1, 0⟩ } else s

def stopPersist (s : Sender o) : Sender o := { s with persist := { s.persist with backoff := 0 } }

/-- What fits the window is sent. -/
def outputSegments (s : Sender o) : Sender o :=
  let s := outputLoop (sendWindow s) s.tx.unsent.length (stopPersist s)
  outputDone (s.setTx { s.tx with
    unsentOversize := if s.tx.unsent = [] then 0 else s.tx.unsentOversize })

/-- `tcp_output`. Nothing leaves while `tcp_input` is working on this pcb, and no segment leaves
without a route: not even a timer is started then. -/
def tcpOutput (s : Sender o) : Sender o :=
  if s.pcb.inputPcb then s
  else
    match s.tx.unsent with
    | [] => outputAck s
    | seg :: _ =>
      if !s.pcb.env.route then s
      else if sendWindow s < reach s.tx seg then outputAck (startPersist (sendWindow s) s)
      else outputSegments s

/-- `tcp_send_empty_ack` returns an error. -/
def ackFails (s : Sender o) : Bool := s.pcb.ackNow && !(s.pcb.env.mem && s.pcb.env.route)

/-- `tcp_output` returns an error if there is no route, or no memory for the acknowledgement that
is all it could send. -/
def outputFails (s : Sender o) : Bool :=
  !s.pcb.inputPcb &&
    (match s.tx.unsent with
      | [] => ackFails s
      | seg :: _ => !s.pcb.env.route || (decide (sendWindow s < reach s.tx seg) && ackFails s))

/-! ### Retransmission -/

/-- One more retransmission, counted in a `u8_t` that stops at its maximum. -/
def countRexmit (r : Rexmit) : Rexmit := if r.nrtx < 0xFF then { r with nrtx := r.nrtx + 1 } else r

/-- `tcp_rexmit`. -/
def tcpRexmit (s : Sender o) : Sender o :=
  if s.tx.unacked = [] then s
  else { s.setTx (TcpOut.tcpRexmit s.tx) with
    rexmit := countRexmit s.rexmit, trip := { s.trip with rttest := 0 } }

/-- A loss halves the congestion window, to no less than two segments. -/
def lossThreshold (o : Platform) (mss sndWnd : ℕ) (c : Congestion) : ℕ :=
  let half := min c.cwnd sndWnd / 2
  (if half < 2 * mss then 2 * mss else half) % o.wndMod

/-- `tcp_rexmit_fast`. -/
def tcpRexmitFast (s : Sender o) : Sender o :=
  if s.tx.unacked ≠ [] ∧ !s.cong.infr then
    let ssthresh := lossThreshold o s.pcb.mss s.tx.sndWnd s.cong
    let s := tcpRexmit s
    { s with
      cong := { s.cong with
        ssthresh := ssthresh, cwnd := (ssthresh + 3 * s.pcb.mss) % o.wndMod, infr := true }
      rexmit := { s.rexmit with rtime := 0 } }
  else s

/-- `tcp_rexmit_rto_prepare`, for a pcb that has unacknowledged segments. -/
def tcpRexmitRtoPrepare (s : Sender o) : Sender o :=
  match s.tx.unacked.getLast? with
  | none => s
  | some last =>
    { s.setTx (TcpOut.tcpRexmitRtoPrepare s.tx) with
      rexmit := { s.rexmit with tfRto := true, rtoEnd := last.seqno + BitVec.ofNat 32 last.tcplen }
      trip := { s.trip with rttest := 0 } }

/-- `tcp_rexmit_rto_commit`. -/
def tcpRexmitRtoCommit (s : Sender o) : Sender o :=
  tcpOutput { s with rexmit := countRexmit s.rexmit }

/-- `tcp_split_unsent_seg`, which concerns the pcb only. -/
def tcpSplitUnsentSeg (keep split : ℕ) (s : Sender o) : Sender o × Err :=
  let r := TcpOut.tcpSplitUnsentSeg keep split s.pcb
  ({ s with pcb := r.1 }, r.2)

def countProbe (p : Persist) : Persist :=
  if p.probe < 0xFF then { p with probe := p.probe + 1 } else p

/-- The segment `tcp_zero_window_probe` makes: one byte of `seg`, or its FIN if it has no data. -/
def probeOf (seg : TxSeg) : TxSeg :=
  let isFin := seg.fin && decide (seg.data = [])
  ⟨seg.seqno, if isFin then [] else seg.data.take 1, 0, 1, false, isFin⟩

/-- `tcp_zero_window_probe`. The probe is counted even if there is no memory or no route for it. -/
def tcpZeroWindowProbe (s : Sender o) : Sender o × Err :=
  match s.tx.unsent with
  | [] => (s, .ok)
  | seg :: _ =>
    let r := TcpOut.tcpZeroWindowProbe s.pcb
    ({ s with
      pcb := r.1
      persist := countProbe s.persist
      wire := if r.2 = .ok then s.wire ++ [probeOf seg] else s.wire }, r.2)

/-! ### The acknowledgement half of `tcp_receive` -/

/-- A duplicate acknowledgement. The third one retransmits, later ones inflate the window. -/
def countDuplicate (o : Platform) (mss : ℕ) (c : Congestion) : Congestion :=
  let c := if c.dupacks < 0xFF then { c with dupacks := c.dupacks + 1 } else c
  if 3 < c.dupacks then { c with cwnd := tcpWndInc o c.cwnd mss } else c

def duplicateAck (s : Sender o) : Sender o :=
  let s := { s with cong := countDuplicate o s.pcb.mss s.cong }
  if 3 ≤ s.cong.dupacks then tcpRexmitFast s else s

/-- Slow start and congestion avoidance. -/
def growCwnd (o : Platform) (mss acked : ℕ) (tfRto : Bool) (c : Congestion) : Congestion :=
  if c.cwnd < c.ssthresh then
    { c with cwnd := tcpWndInc o c.cwnd (min acked (((if tfRto then 1 else 2) * mss) % o.wndMod)) }
  else if c.cwnd ≤ tcpWndInc o c.bytesAcked acked then
    { c with bytesAcked := tcpWndInc o c.bytesAcked acked - c.cwnd, cwnd := tcpWndInc o c.cwnd mss }
  else { c with bytesAcked := tcpWndInc o c.bytesAcked acked }

/-- An acknowledgement of new data ends fast retransmit. -/
def endFastRexmit (c : Congestion) : Congestion :=
  let c := if c.infr then { c with infr := false, cwnd := c.ssthresh, bytesAcked := 0 } else c
  { c with dupacks := 0 }

/-- What was in flight at the retransmission timeout has been acknowledged. -/
def rtoDone (tx : Tx) (rtoEnd : Seq) : Bool :=
  match tx.unacked, tx.unsent with
  | [], [] => true
  | [], seg :: _ => leq rtoEnd seg.seqno
  | seg :: _, _ => leq rtoEnd seg.seqno

/-- The retransmission timer after an acknowledgement that leaves the queues `tx`. -/
def restartTimer (tx : Tx) (r : Rexmit) : Rexmit :=
  { r with
    nrtx := 0, rtime := if tx.unacked = [] then -1 else 0, tfRto := r.tfRto &&
      !rtoDone tx r.rtoEnd }

/-- An acknowledgement of new data; the second component is `recv_acked`. -/
def acknowledged (ackno : Seq) (s : Sender o) : Sender o × ℕ :=
  let acked := (ackno - s.tx.lastack).toNat % o.wndMod
  let (tx, recvAcked) := ackNewData o s.tx ackno
  ({ s with
      pcb := { s.pcb with tx := tx, polltmr := 0 }
      cong := growCwnd o s.pcb.mss acked s.rexmit.tfRto (endFastRexmit s.cong)
      trip := { s.trip with rto := s16 (s.trip.sa / 8 + s.trip.sv) }
      rexmit := restartTimer tx s.rexmit }, recvAcked)

/-- The round-trip estimate: `sa` is eight times the mean, `sv` four times the mean deviation. -/
def measure (ticks : ℕ) (r : RoundTrip) : RoundTrip :=
  let m := s16 (s16 (ticks - r.rttest) - r.sa / 8)
  let sa := s16 (r.sa + m)
  let m := if m < 0 then s16 (-m) else m
  let sv := s16 (r.sv + s16 (m - r.sv / 4))
  { r with sa := sa, sv := sv, rto := s16 (sa / 8 + sv), rttest := 0 }

/-- A measurement ends when the segment it was started with is acknowledged. -/
def measureRtt (ackno : Seq) (s : Sender o) : Sender o :=
  if s.trip.rttest ≠ 0 ∧ lt s.trip.rtseq ackno then { s with trip := measure s.pcb.ticks s.trip }
  else s

/-- All that makes an acknowledgement a duplicate; `s` has the new window. -/
def isDuplicate (rightWndEdge : Seq) (seg : Segment) (s : Sender o) : Bool :=
  TcpIn.isDuplicate rightWndEdge seg s.tx && decide (0 ≤ s.rexmit.rtime)

/-- The part of `tcp_receive` that handles the acknowledgement. -/
def tcpReceiveAck (s : Sender o) (seg : Segment) : Sender o × ℕ :=
  if seg.ack then
    let rightWndEdge := s.tx.sndWl2 + BitVec.ofNat 32 s.tx.sndWnd
    let s := s.setTx (updateSndWnd s.tx seg)
    if leq seg.ackno s.tx.lastack then
      (measureRtt seg.ackno (if isDuplicate rightWndEdge seg s then duplicateAck s else s), 0)
    else if between seg.ackno (s.tx.lastack + 1) s.tx.sndNxt then
      let (s, acked) := acknowledged seg.ackno s
      (measureRtt seg.ackno s, acked)
    else (measureRtt seg.ackno (s.mapPcb tcpSendEmptyAck), 0)
  else (s, 0)

/-! ### The state machine -/

/-- What `tcp_process` leaves behind for `tcp_input`. -/
structure Received (o : Platform) where
  sender : Sender o
  recvData : Option Pbuf := none
  gotFin : Bool := false
  recvAcked : ℕ := 0
  gone : Bool := false

namespace Received

def mapPcb (f : Pcb o → Pcb o) (r : Received o) : Received o :=
  { r with sender := r.sender.mapPcb f }

end Received

/-- `tcp_receive`. -/
def tcpReceive (s : Sender o) (seg : Segment) : Received o :=
  let (s, acked) := tcpReceiveAck s seg
  if 0 < seg.tcplen ∧ s.pcb.state.rank < TcpState.rank .closeWait then
    let r := tcpReceiveText s.pcb seg
    { sender := { s with pcb := r.pcb }, recvData := r.recvData, gotFin := r.gotFin,
      recvAcked := acked }
  else if between seg.seqno s.pcb.rx.rcvNxt
    (s.pcb.rx.rcvNxt + BitVec.ofNat 32 s.pcb.rx.rcvWnd - 1) then
    { sender := s, recvAcked := acked }
  else { sender := s.mapPcb tcpAckNow, recvAcked := acked }

/-- The segment that completes the handshake, accepted by TunForge. A pcb whose listener is gone
is aborted. -/
def processEstablished (s : Sender o) (seg : Segment) : Received o :=
  if !s.pcb.listener then { sender := s, gone := true }
  else
    let s := s.mapPcb fun pcb => tcpBacklogDelayed
      (tcpBacklogAccepted { pcb with state := .established })
    let r := tcpReceive s seg
    let s := r.sender
    let r := { r with
      sender := { s with cong := { s.cong with cwnd := tcpCalcInitialCwnd s.pcb.mss % o.wndMod } }
      recvAcked := r.recvAcked - 1 }
    if r.gotFin then r.mapPcb fun pcb => { tcpAckNow pcb with state := .closeWait } else r

/-- The switch of `tcp_process`. -/
def processState (s : Sender o) (seg : Segment) : Received o :=
  match s.pcb.state with
  | .synRcvd =>
    if seg.syn then { sender := if seg.seqno == s.pcb.rx.rcvNxt - 1 then tcpRexmit s else s }
    else if completesHandshake s.pcb seg then processEstablished s seg
    else { sender := s }
  | .established | .closeWait =>
    let r := tcpReceive s seg
    if r.gotFin then r.mapPcb fun pcb => { tcpAckNow pcb with state := .closeWait } else r
  | .finWait1 =>
    let r := tcpReceive s seg
    if r.gotFin then
      if finAcked r.sender.pcb seg then r.mapPcb fun pcb => enterTimeWait (tcpAckNow pcb)
      else r.mapPcb fun pcb => { tcpAckNow pcb with state := .closing }
    else if finAcked r.sender.pcb seg then r.mapPcb fun pcb => { pcb with state := .finWait2 }
    else r
  | .finWait2 =>
    let r := tcpReceive s seg
    if r.gotFin then r.mapPcb fun pcb => enterTimeWait (tcpAckNow pcb) else r
  | .closing =>
    let r := tcpReceive s seg
    if finAcked r.sender.pcb seg then r.mapPcb enterTimeWait else r
  | .lastAck =>
    let r := tcpReceive s seg
    if finAcked r.sender.pcb seg then { r with gone := true } else r
  | _ => { sender := s }

/-- The preamble of `tcp_process` for an acceptable segment. -/
def preamble (s : Sender o) (seg : Segment) : Sender o :=
  { s with pcb := noteActivity s.pcb seg, persist := { s.persist with probe := 0 } }

/-- `tcp_process`. -/
def tcpProcess (s : Sender o) (seg : Segment) : Received o :=
  if seg.rst then
    if resetAcceptable s.pcb seg then { sender := s, gone := true }
    else if between seg.seqno s.pcb.rx.rcvNxt
      (s.pcb.rx.rcvNxt + BitVec.ofNat 32 s.pcb.rx.rcvWnd) then
      { sender := s.mapPcb tcpAckNow }
    else { sender := s }
  else if seg.syn ∧ s.pcb.state ≠ .synSent ∧ s.pcb.state ≠ .synRcvd then
    { sender := s.mapPcb tcpAckNow }
  else processState (preamble s seg) seg

/-- `tcp_timewait_input`. -/
def tcpTimewaitInput (seg : Segment) (s : Sender o) : Sender o :=
  if seg.rst then s
  else if seg.syn ∧ between seg.seqno s.pcb.rx.rcvNxt
    (s.pcb.rx.rcvNxt + BitVec.ofNat 32 s.pcb.rx.rcvWnd) then s
  else
    let s := if !seg.syn && seg.fin then s.mapPcb fun pcb => { pcb with tmr := pcb.ticks } else s
    if 0 < seg.tcplen then tcpOutput (s.mapPcb tcpAckNow) else s

/-- The end of `tcp_input`, once the application has taken the data. -/
def inputDone (r : Received o) : Sender o :=
  let s := if r.gotFin then r.sender.mapPcb correctFin else r.sender
  tcpOutput (s.mapPcb fun pcb => { pcb with inputPcb := false })

/-- `tcp_input` for a segment of this connection, whose data the application takes. Data for a pcb
whose receiving side is closed aborts the connection. -/
def tcpInput (seg : Segment) (s : Sender o) : Option (Sender o) :=
  match s.pcb.list with
  | .active =>
    let r := tcpProcess (s.mapPcb fun pcb => { pcb with inputPcb := true }) seg
    if r.gone ∨ (r.sender.pcb.rxClosed = true ∧ r.recvData ≠ none) then none else some (inputDone r)
  | .timeWait => some (tcpTimewaitInput seg s)
  | .unlisted => some s

/-! ### The slow timer -/

/-- The persist timer goes on to its next slot. -/
def nextSlot (p : Persist) : Persist :=
  { p with
    cnt := 0, backoff := if p.backoff < tcpPersistBackoff.length then p.backoff + 1 else p.backoff }

/-- The persist timer fires: a probe into a closed window, or what fits into an open one. -/
def persistFire (keep : ℕ) (s : Sender o) : Sender o :=
  if s.tx.sndWnd = 0 then
    match tcpZeroWindowProbe s with
    | (s, .ok) => { s with persist := nextSlot s.persist }
    | (s, _) => s
  else
    match tcpSplitUnsentSeg keep (s.tx.sndWnd % 2 ^ 16) s with
    | (s, .ok) =>
      if outputFails s then
        let s := tcpOutput s
        { s with persist := nextSlot s.persist }
      else tcpOutput s
    | (s, _) => { s with persist := nextSlot s.persist }

def persistTick (keep : ℕ) (s : Sender o) : Sender o :=
  let backoffCnt := tcpPersistBackoff.getD (s.persist.backoff - 1) 0
  let s :=
    if s.persist.cnt < backoffCnt then { s with
      persist := { s.persist with cnt := s.persist.cnt + 1 } } else s
  if backoffCnt ≤ s.persist.cnt then persistFire keep s else s

/-- The retransmission timeout after `nrtx` retransmissions, doubled with each of the first ones. -/
def backedOffRto (nrtx : ℕ) (r : RoundTrip) : ℤ :=
  min ((r.sa / 8 + r.sv) * 2 ^ tcpBackoff.getD (min nrtx (tcpBackoff.length - 1)) 0) 0x7FFF

/-- A timeout puts off the next one and closes the congestion window to one segment. -/
def backOff (s : Sender o) : Sender o :=
  { s with
    trip := { s.trip with rto := s16 (backedOffRto s.rexmit.nrtx s.trip) }
    rexmit := { s.rexmit with rtime := 0 }
    cong := { s.cong with
      ssthresh := lossThreshold o s.pcb.mss s.tx.sndWnd s.cong
      cwnd := s.pcb.mss
      bytesAcked := 0 } }

/-- The retransmission timer fires. -/
def rexmitFire (s : Sender o) : Sender o :=
  if s.tx.unacked = [] ∧ s.tx.unsent = [] then s
  else tcpRexmitRtoCommit (backOff (tcpRexmitRtoPrepare s))

def tickTimer (r : Rexmit) : Rexmit :=
  if 0 ≤ r.rtime ∧ r.rtime < 0x7FFF then { r with rtime := r.rtime + 1 } else r

def rexmitTick (s : Sender o) : Sender o :=
  let s := { s with rexmit := tickTimer s.rexmit }
  if s.trip.rto ≤ s.rexmit.rtime then rexmitFire s else s

/-- Only one of the two timers runs at a time. -/
def sendTick (keep : ℕ) (s : Sender o) : Sender o :=
  if 0 < s.persist.backoff then persistTick keep s else rexmitTick s

/-- `tcp_slowtmr` for an active pcb. The poll at its end is an `output` of its own. -/
def slowtmrActive (keep : ℕ) (s : Sender o) : Option (Sender o) :=
  if tcpMaxrtx o ≤ s.rexmit.nrtx then none
  else if 0 < s.persist.backoff ∧ tcpMaxrtx o ≤ s.persist.probe then none
  else
    let s := sendTick keep s
    let s := s.mapPcb fun pcb => { pcb with
      env := { pcb.env with rto := s.trip.rto.toNat, exhausted := false } }
    if slowtmrRemoves s.pcb then none else some (s.mapPcb dropStaleOoseq)

/-- `tcp_slowtmr`. -/
def tcpSlowtmr (keep : ℕ) (s : Sender o) : Option (Sender o) :=
  let s := s.mapPcb fun pcb => { pcb with ticks := pcb.ticks + 1 }
  match s.pcb.list with
  | .active => slowtmrActive keep s
  | .timeWait => if timeWaitExpired s.pcb then none else some s
  | .unlisted => some s

/-! ### Everything that happens to a sender -/

/-- `tcp_write` with the `tcp_output` that `writeBytes:length:` calls after it. -/
def write (data : Bytes) (s : Sender o) : Sender o :=
  match tcpWrite s.pcb data with
  | (pcb, .ok) => tcpOutput { s with pcb := pcb, accepted := s.accepted ++ data }
  | (pcb, _) => { s with pcb := pcb }

/-- `tcp_close_shutdown_fin`. -/
def tcpCloseShutdownFin (s : Sender o) : Sender o :=
  match closeTarget s.pcb.state with
  | none => s
  | some next =>
    match tcpSendFin s.pcb with
    | (pcb, .ok) =>
      tcpOutput { s with
        pcb := { (if s.pcb.state = .synRcvd then tcpBacklogAccepted pcb else pcb) with
          state := next } }
    | (pcb, _) => { s with pcb := { pcb with closePend := true } }

/-- `tcp_recved`. -/
def tcpRecved (len : ℕ) (s : Sender o) : Sender o :=
  let wnd := (s.pcb.rx.rcvWnd + len) % o.wndMod
  let wnd := if s.pcb.wndMax < wnd ∨ wnd < s.pcb.rx.rcvWnd then s.pcb.wndMax else wnd
  let (rx, inflation) := tcpUpdateRcvAnnWnd o s.pcb.mss { s.pcb.rx with rcvWnd := wnd }
  let s := s.mapPcb fun pcb => { pcb with rx := rx }
  if tcpWndUpdateThreshold o ≤ inflation then tcpOutput (s.mapPcb tcpAckNow) else s

/-- `tcp_close`. With unread data the peer is reset and the pcb freed. -/
def tcpClose (s : Sender o) : Option (Sender o) :=
  let s := s.mapPcb fun pcb => { pcb with rxClosed := true }
  if unreadData s.pcb then none
  else
    match s.pcb.state with
    | .closed | .synSent => none
    | _ => some (tcpCloseShutdownFin s)

/-- `tcp_shutdown(pcb, 0, 1)`. -/
def tcpShutdownTx (s : Sender o) : Sender o :=
  match s.pcb.state with
  | .synRcvd | .established | .closeWait => tcpCloseShutdownFin s
  | _ => s

/-- The delayed acknowledgement of `tcp_fasttmr`. -/
def fasttmrAck (s : Sender o) : Sender o :=
  if s.pcb.ackDelay then
    (tcpOutput (s.mapPcb tcpAckNow)).mapPcb fun pcb => { pcb with
      ackDelay := false, ackNow := false }
  else s

/-- The delayed acknowledgement and the pending FIN of `tcp_fasttmr`. -/
def tcpFasttmr (s : Sender o) : Sender o :=
  let s := fasttmrAck s
  if s.pcb.closePend then tcpCloseShutdownFin (s.mapPcb fun pcb => { pcb with closePend := false })
  else s

/-- What happens to a sender: calls of the application, segments of the peer, the timers, and
memory and the route to the peer coming and going. -/
inductive Event
  | write (data : Bytes)
  | shutdown
  | close
  | recved (len : ℕ)
  | output
  | segment (seg : Segment)
  | fasttmr
  | slowtmr (keep : ℕ)
  | mem (ok : Bool)
  | route (ok : Bool)
  deriving DecidableEq

/-- What the application asks for. It has the pcb only once the handshake is complete. -/
def whenOpen (f : Sender o → Sender o) (s : Sender o) : Sender o :=
  if s.pcb.state = .synRcvd then s else f s

/-- `tcp_fasttmr` looks at active pcbs only. -/
def whenActive (f : Sender o → Sender o) (s : Sender o) : Sender o :=
  if s.pcb.list = .active then f s else s

/-- A sender that lwIP has removed is `none`. -/
def step : Option (Sender o) → Event → Option (Sender o)
  | none, _ => none
  | some s, .write data => some (whenOpen (write data) s)
  | some s, .shutdown => some (whenOpen tcpShutdownTx s)
  | some s, .close => if s.pcb.state = .synRcvd then some s else tcpClose s
  | some s, .recved len => some (whenOpen (tcpRecved len) s)
  | some s, .output => some (tcpOutput s)
  | some s, .segment seg => tcpInput seg s
  | some s, .fasttmr => some (whenActive tcpFasttmr s)
  | some s, .slowtmr keep => tcpSlowtmr keep s
  | some s, .mem ok => some (s.mapPcb fun pcb => { pcb with env := { pcb.env with mem := ok } })
  | some s, .route ok => some (s.mapPcb fun pcb => { pcb with env := { pcb.env with route := ok } })

/-- The fields `tcp_alloc` gives a new pcb. -/
def newSender (pcb : Pcb o) : Sender o where
  pcb := pcb
  cong := ⟨1, o.tcpSndBuf, 0, 0, false⟩
  trip := ⟨tcpRtoTime, 0, tcpRtoTime, 0, 0⟩
  rexmit := ⟨0, -1, 0, false⟩
  persist := ⟨0, 0, 0⟩
  wire := []
  accepted := []

/-- `tcp_listen_input` for a SYN. -/
def tcpListenInput (o : Platform) (seg : Segment) (iss : Seq) (env : Env) (ticks : ℕ) :
    Option (Sender o) :=
  match tcpEnqueueFlags (newPcb o seg iss env ticks) true false with
  | (pcb, .ok) => some (tcpOutput (newSender pcb))
  | _ => none

/-- The sender whose SYN|ACK, with number `iss`, answers `syn`. -/
def Opened (syn : Segment) (iss : Seq) (s : Sender o) : Prop :=
  syn.syn = true ∧ ∃ env ticks, tcpListenInput o syn iss env ticks = some s

end TunForge.SendEngine
