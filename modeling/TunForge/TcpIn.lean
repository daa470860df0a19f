import TunForge.TcpOut

/-! What an incoming segment does to a pcb, after `tcp_in.c`: acknowledgement,
reassembly and the state machine. The callbacks are made by the caller. -/
namespace TunForge.TcpIn
open SerialNumber PbufChain LwipTypes TcpOut

variable {o : Platform}

/-- Subtraction in `tcpwnd_size_t`. -/
def wndSub (o : Platform) (a b : ℕ) : ℕ := (a + (o.wndMod - b % o.wndMod)) % o.wndMod

/-- `tcp_update_rcv_ann_wnd`, with the extra window an update sent now would announce. -/
def tcpUpdateRcvAnnWnd (o : Platform) (mss : ℕ) (rx : Rx) : Rx × ℕ :=
  let newRightEdge := rx.rcvNxt + BitVec.ofNat 32 rx.rcvWnd
  if geq newRightEdge (rx.rcvAnnRightEdge + BitVec.ofNat 32 (min (o.tcpWnd / 2) mss)) then
    ({ rx with rcvAnnWnd := rx.rcvWnd }, (newRightEdge - rx.rcvAnnRightEdge).toNat)
  else if gt rx.rcvNxt rx.rcvAnnRightEdge then ({ rx with rcvAnnWnd := 0 }, 0)
  else ({ rx with rcvAnnWnd := (rx.rcvAnnRightEdge - rx.rcvNxt).toNat % o.wndMod }, 0)

/-- `tcp_ack`. -/
def tcpAck (pcb : Pcb o) : Pcb o :=
  if pcb.ackDelay then { pcb with ackDelay := false, ackNow := true }
  else { pcb with ackDelay := true }

/-- `tcp_ack_now`. -/
def tcpAckNow (pcb : Pcb o) : Pcb o := { pcb with ackNow := true }

/-- `tcp_parseopt`. A window scale option counts only on the first SYN. -/
def tcpParseopt (pcb : Pcb o) (seg : Segment) : Pcb o :=
  let pcb := match seg.mss with
    | none => pcb
    | some m => { pcb with mss := if tcpMss < m ∨ m = 0 then tcpMss else m }
  match seg.wndScale with
  | none => pcb
  | some w =>
    if o.lwipWndScale && seg.syn && !pcb.wndScale then
      { pcb with
        wndScale := true
        tx := { pcb.tx with sndScale := min w 14 }
        rx := { pcb.rx with rcvWnd := o.tcpWnd, rcvAnnWnd := o.tcpWnd } }
    else pcb

/-- `tcp_free_acked_segments`: the queue left over, the cells and the bytes removed. -/
def tcpFreeAckedSegments (ackno : Seq) : List TxSeg → List TxSeg × ℕ × ℕ
  | [] => ([], 0, 0)
  | seg :: rest =>
    if leq (seg.seqno + BitVec.ofNat 32 seg.tcplen) ackno then
      let (left, cells, acked) := tcpFreeAckedSegments ackno rest
      (left, seg.clen + cells, seg.data.length + acked)
    else (seg :: rest, 0, 0)

/-- The send window update of `tcp_receive`. -/
def updateSndWnd (tx : Tx) (seg : Segment) : Tx :=
  let wnd := seg.wnd * 2 ^ tx.sndScale
  if lt tx.sndWl1 seg.seqno || (tx.sndWl1 == seg.seqno && lt tx.sndWl2 seg.ackno) ||
      (tx.sndWl2 == seg.ackno && decide (tx.sndWnd < wnd)) then
    { tx with
      sndWnd := wnd, sndWndMax := max tx.sndWndMax wnd, sndWl1 := seg.seqno, sndWl2 := seg.ackno }
  else tx

/-- An acknowledgement of new data: both queues lose what it covers. -/
def ackNewData (o : Platform) (tx : Tx) (ackno : Seq) : Tx × ℕ :=
  let (unacked, c1, n1) := tcpFreeAckedSegments ackno tx.unacked
  let (unsent, c2, n2) := tcpFreeAckedSegments ackno tx.unsent
  let recvAcked := (n1 + n2) % o.wndMod
  ({ tx with
    lastack := ackno
    unacked := unacked
    unsent := unsent
    sndQueuelen := (tx.sndQueuelen + 2 ^ 16 - (c1 + c2) % 2 ^ 16) % 2 ^ 16
    unsentOversize := if unsent = [] then 0 else tx.unsentOversize
    sndBuf := (tx.sndBuf + recvAcked) % o.wndMod }, recvAcked)

/-- What makes an acknowledgement a duplicate, the retransmission timer apart; `tx` has the new
window. -/
def isDuplicate (rightWndEdge : Seq) (seg : Segment) (tx : Tx) : Bool :=
  decide (seg.tcplen = 0) && tx.sndWl2 + BitVec.ofNat 32 tx.sndWnd == rightWndEdge &&
    tx.lastack == seg.ackno

/-- The first part of `tcp_receive`, which handles the acknowledgement; the second component
is `recv_acked`. How many duplicates there have been is left to the surroundings. -/
def tcpReceiveAck (pcb : Pcb o) (seg : Segment) : Pcb o × ℕ :=
  if seg.ack then
    let rightWndEdge := pcb.tx.sndWl2 + BitVec.ofNat 32 pcb.tx.sndWnd
    let tx := updateSndWnd pcb.tx seg
    if leq seg.ackno tx.lastack then
      let fast := isDuplicate rightWndEdge seg tx && pcb.env.fastRexmit
      ({ pcb with tx := if fast then tcpRexmit tx else tx }, 0)
    else if between seg.ackno (tx.lastack + 1) tx.sndNxt then
      let (tx, acked) := ackNewData o tx seg.ackno
      ({ pcb with tx := tx, polltmr := 0 }, acked)
    else (tcpSendEmptyAck { pcb with tx := tx }, 0)
  else (pcb, 0)

/-! ### Reassembly -/

/-- Cut a segment so that its payload ends at `seqno`. -/
def RxSeg.cutAt (seg : RxSeg) (seqno : Seq) : RxSeg :=
  let len := (seqno - seg.seqno).toNat % 2 ^ 16
  { seg with len := len, p := seg.p.realloc len }

/-- The covering loop of `tcp_oos_insert_segment`: queued segments whose payload ends inside
`cseg` are dropped, and `cseg` takes over their FIN. -/
def oosDropCovered (cseg : RxSeg) : List RxSeg → RxSeg × List RxSeg
  | [] => (cseg, [])
  | next :: rest =>
    if geq cseg.textEnd next.textEnd then
      oosDropCovered { cseg with fin := cseg.fin || next.fin } rest
    else (cseg, next :: rest)

/-- `tcp_oos_insert_segment`. -/
def tcpOosInsertSegment (cseg : RxSeg) (next : List RxSeg) : List RxSeg :=
  if cseg.fin then [cseg]
  else
    let (cseg, rest) := oosDropCovered cseg next
    match rest with
    | [] => [cseg]
    | n :: rest => (if gt cseg.textEnd n.seqno then RxSeg.cutAt cseg n.seqno else cseg) :: n :: rest

/-- Trim the segment before an insertion if it reaches into the new one. -/
def trimPrev (prev : RxSeg) (seqno : Seq) : RxSeg :=
  if gt prev.textEnd seqno then RxSeg.cutAt prev seqno else prev

/-- The copy of `inseg` that is appended behind the whole queue is cut to the window. -/
def trimToWindow (inseg : RxSeg) (edge : Seq) : RxSeg :=
  if gt (inseg.seqno + BitVec.ofNat 32 inseg.tcplen) edge then
    RxSeg.cutAt { inseg with fin := false } edge
  else inseg

/-- The queue walk of `tcp_receive` for an out-of-sequence segment. `prev` is the element just
passed, still to be put in front of the result; `mem` is the outcome of `tcp_seg_copy`. -/
def oosWalk (mem : Bool) (inseg : RxSeg) (edge : Seq) : Option RxSeg → List RxSeg → List RxSeg
  | prev, [] => prev.toList
  | prev, next :: rest =>
    if inseg.seqno = next.seqno then
      prev.toList ++
        if next.len < inseg.len ∧ rest ≠ [] ∧ mem then tcpOosInsertSegment inseg (next :: rest)
        else next :: rest
    else
      let here : Bool := match prev with
        | none => lt inseg.seqno next.seqno
        | some pv => between inseg.seqno (pv.seqno + 1) (next.seqno - 1)
      if here then
        if mem then
          (prev.map fun pv => trimPrev pv inseg.seqno).toList ++ tcpOosInsertSegment inseg
            (next :: rest)
        else prev.toList ++ next :: rest
      else if rest = [] ∧ gt inseg.seqno next.seqno then
        prev.toList ++
          if next.fin ∨ !mem then [next]
          else [trimPrev next inseg.seqno, trimToWindow inseg edge]
      else prev.toList ++ oosWalk mem inseg edge (some next) rest

/-- Queue an out-of-sequence segment. The first one on an empty queue is stored as it is. -/
def queueOutOfSequence (mem : Bool) (inseg : RxSeg) (edge : Seq) (ooseq : List RxSeg) :
    List RxSeg :=
  match ooseq with
  | [] => if mem then [inseg] else []
  | _ => oosWalk mem inseg edge none ooseq

/-- The first-edge trim of `tcp_receive`: a segment that starts before `rcv_nxt` and reaches
past it loses what was already received. -/
def trimFirstEdge (rcvNxt : Seq) (seg : Segment) : RxSeg :=
  let inseg : RxSeg := ⟨seg.seqno, seg.p.size, seg.fin, seg.p⟩
  if between rcvNxt (seg.seqno + 1) (seg.seqno + BitVec.ofNat 32 seg.tcplen - 1) then
    let off := (rcvNxt - seg.seqno).toNat % 2 ^ 16
    { inseg with
      seqno := rcvNxt
      len := (inseg.len + (2 ^ 16 - off)) % 2 ^ 16
      p := inseg.p.trimFront off }
  else inseg

/-- An in-sequence segment that overruns the window is cut to it and loses its FIN. -/
def cutToRcvWnd (rcvWnd : ℕ) (inseg : RxSeg) : RxSeg :=
  if rcvWnd < inseg.tcplen then
    let len := rcvWnd % 2 ^ 16
    { inseg with fin := false, len := len, p := inseg.p.realloc len }
  else inseg

/-- Queued segments covered by an in-sequence one are dropped, and it takes over their FIN. -/
def dropCovered (inseg : RxSeg) : List RxSeg → RxSeg × List RxSeg
  | [] => (inseg, [])
  | next :: rest =>
    if geq (inseg.seqno + BitVec.ofNat 32 inseg.tcplen) next.textEnd then
      dropCovered { inseg with fin := inseg.fin || next.fin } rest
    else (inseg, next :: rest)

/-- How an in-sequence segment is fitted to the queue: a FIN bins the queue, otherwise covered
segments go and the segment is cut where the first remaining one starts. -/
def adjustOoseq (inseg : RxSeg) (ooseq : List RxSeg) : RxSeg × List RxSeg :=
  if inseg.fin then (inseg, [])
  else
    let (inseg, rest) := dropCovered inseg ooseq
    match rest with
    | [] => (inseg, [])
    | next :: rest =>
      if gt (inseg.seqno + BitVec.ofNat 32 inseg.tcplen) next.seqno then
        (RxSeg.cutAt inseg next.seqno, next :: rest)
      else (inseg, next :: rest)

/-- What `tcp_receive` has found in sequence so far: the receive half, the globals `recv_data`
and `recv_flags & TF_GOT_FIN`, and whether the FIN came off the queue. -/
structure InSeq where
  rx : Rx
  recvData : Option Pbuf
  gotFin : Bool
  queuedFin : Bool
  deriving DecidableEq, Repr

/-- Advance `rcv_nxt` over a segment and charge it to the window. -/
def takeInSequence (o : Platform) (mss : ℕ) (rx : Rx) (seg : RxSeg) : Rx :=
  (tcpUpdateRcvAnnWnd o mss { rx with
    rcvNxt := rx.rcvNxt + BitVec.ofNat 32 seg.tcplen
    rcvWnd := wndSub o rx.rcvWnd seg.tcplen }).1

/-- Chain a payload onto `recv_data`. -/
def chainData (recvData : Option Pbuf) (p : Pbuf) : Option Pbuf :=
  if 0 < p.totLen then
    match recvData with
    | none => some p
    | some q => some (q.cat p)
  else recvData

/-- The loop that dequeues the segments that have become in sequence. -/
def drainOoseq (o : Platform) (mss : ℕ) (st : InSeq) : List RxSeg → InSeq
  | [] => { st with rx := { st.rx with ooseq := [] } }
  | cseg :: rest =>
    if cseg.seqno = st.rx.rcvNxt then
      drainOoseq o mss
        { rx := takeInSequence o mss st.rx cseg
          recvData := chainData st.recvData cseg.p
          gotFin := st.gotFin || cseg.fin
          queuedFin := st.queuedFin || cseg.fin } rest
    else { st with rx := { st.rx with ooseq := cseg :: rest } }

/-- The in-sequence branch of `tcp_receive`. -/
def receiveInSequence (o : Platform) (mss : ℕ) (rx : Rx) (inseg : RxSeg) : InSeq :=
  let inseg := cutToRcvWnd rx.rcvWnd inseg
  let (inseg, ooseq) := if rx.ooseq = [] then (inseg, []) else adjustOoseq inseg rx.ooseq
  drainOoseq o mss
    { rx := takeInSequence o mss rx inseg
      recvData := chainData none inseg.p
      gotFin := inseg.fin
      queuedFin := false } ooseq

/-- The globals that `tcp_process` leaves behind for `tcp_input`. -/
structure Processed (o : Platform) where
  pcb : Pcb o
  recvData : Option Pbuf := none
  gotFin : Bool := false
  recvAcked : ℕ := 0
  reset : Bool := false

/-- The second part of `tcp_receive`, for a segment with text in a state that still takes text. -/
def tcpReceiveText (pcb : Pcb o) (seg : Segment) : Processed o :=
  let inseg := trimFirstEdge pcb.rx.rcvNxt seg
  let pcb := if lt inseg.seqno pcb.rx.rcvNxt then tcpAckNow pcb else pcb
  if between inseg.seqno pcb.rx.rcvNxt (pcb.rx.rcvNxt + BitVec.ofNat 32 pcb.rx.rcvWnd - 1) then
    if pcb.rx.rcvNxt = inseg.seqno then
      let r := receiveInSequence o pcb.mss pcb.rx inseg
      { pcb := tcpAck { pcb with
          rx := r.rx
          state := if r.queuedFin ∧ pcb.state = .established then .closeWait else pcb.state }
        recvData := r.recvData
        gotFin := r.gotFin }
    else
      let edge := pcb.rx.rcvNxt + BitVec.ofNat 32 pcb.rx.rcvWnd
      let ooseq := queueOutOfSequence pcb.env.mem inseg edge pcb.rx.ooseq
      { pcb := tcpSendEmptyAck { pcb with rx := { pcb.rx with ooseq := ooseq } } }
  else { pcb := tcpSendEmptyAck pcb }

/-- `tcp_receive`. -/
def tcpReceive (pcb : Pcb o) (seg : Segment) : Processed o :=
  let (pcb, acked) := tcpReceiveAck pcb seg
  if 0 < seg.tcplen ∧ pcb.state.rank < TcpState.rank .closeWait then
    { tcpReceiveText pcb seg with recvAcked := acked }
  else if between seg.seqno pcb.rx.rcvNxt (pcb.rx.rcvNxt + BitVec.ofNat 32 pcb.rx.rcvWnd - 1) then
    { pcb := pcb, recvAcked := acked }
  else { pcb := tcpAckNow pcb, recvAcked := acked }

/-! ### The state machine -/

/-- `tcp_backlog_accepted`, as far as the pcb goes. Without a listener the flag stays. -/
def tcpBacklogAccepted (pcb : Pcb o) : Pcb o :=
  { pcb with backlogPend := pcb.backlogPend && !pcb.listener }

/-- `tcp_backlog_delayed`, as far as the pcb goes. -/
def tcpBacklogDelayed (pcb : Pcb o) : Pcb o :=
  if pcb.listener then { pcb with backlogPend := true } else pcb

/-- `tcp_pcb_purge`: refused data, reassembly queue and send queues are freed. -/
def tcpPcbPurge (pcb : Pcb o) : Pcb o :=
  if pcb.state ≠ .closed ∧ pcb.state ≠ .timeWait ∧ pcb.state ≠ .listen then
    { tcpBacklogAccepted pcb with
      rx := { pcb.rx with refusedData := none, ooseq := [] }
      tx := { pcb.tx with unsent := [], unacked := [], unsentOversize := 0 } }
  else pcb

/-- The acknowledgement in `seg` covers everything we ever sent, our FIN included. -/
def finAcked (pcb : Pcb o) (seg : Segment) : Bool :=
  seg.ack && seg.ackno == pcb.tx.sndNxt && decide (pcb.tx.unsent = [])

/-- Purge, and move from the active list to the TIME-WAIT list. -/
def enterTimeWait (pcb : Pcb o) : Pcb o :=
  { tcpPcbPurge pcb with state := .timeWait, list := .timeWait }

/-- The preamble of `tcp_process` for an acceptable segment: activity timer and options. -/
def noteActivity (pcb : Pcb o) (seg : Segment) : Pcb o :=
  tcpParseopt (if pcb.rxClosed then pcb else { pcb with tmr := pcb.ticks }) seg

/-- `SYN_RCVD`, after the accept callback has returned `ERR_OK`. -/
def processEstablished (pcb : Pcb o) (seg : Segment) : Processed o :=
  let r := tcpReceive { pcb with state := .established } seg
  let r := { r with recvAcked := r.recvAcked - 1 }
  if r.gotFin then { r with pcb := { tcpAckNow r.pcb with state := .closeWait } } else r

/-- The acknowledgement that completes the handshake in `SYN_RCVD`. -/
def completesHandshake (pcb : Pcb o) (seg : Segment) : Bool :=
  decide (pcb.state = .synRcvd) && !seg.syn && seg.ack &&
    between seg.ackno (pcb.tx.lastack + 1) pcb.tx.sndNxt

/-- The switch of `tcp_process`, apart from the segment that completes the handshake. -/
def processState (pcb : Pcb o) (seg : Segment) : Processed o :=
  match pcb.state with
  | .synRcvd =>
    if seg.syn && seg.seqno == pcb.rx.rcvNxt - 1 then { pcb := { pcb with tx := tcpRexmit pcb.tx } }
    else { pcb := pcb }
  | .established | .closeWait =>
    let r := tcpReceive pcb seg
    if r.gotFin then { r with pcb := { tcpAckNow r.pcb with state := .closeWait } } else r
  | .finWait1 =>
    let r := tcpReceive pcb seg
    if r.gotFin then
      if finAcked r.pcb seg then { r with pcb := enterTimeWait (tcpAckNow r.pcb) }
      else { r with pcb := { tcpAckNow r.pcb with state := .closing } }
    else if finAcked r.pcb seg then { r with pcb := { r.pcb with state := .finWait2 } }
    else r
  | .finWait2 =>
    let r := tcpReceive pcb seg
    if r.gotFin then { r with pcb := enterTimeWait (tcpAckNow r.pcb) } else r
  | .closing =>
    let r := tcpReceive pcb seg
    if finAcked r.pcb seg then { r with pcb := enterTimeWait r.pcb } else r
  | .lastAck =>
    let r := tcpReceive pcb seg
    if finAcked r.pcb seg then { r with pcb := { r.pcb with closed := true } } else r
  | _ => { pcb := pcb }

/-- A reset is obeyed only with exactly the expected sequence number. -/
def resetAcceptable (pcb : Pcb o) (seg : Segment) : Bool := seg.seqno == pcb.rx.rcvNxt

/-- `tcp_process`, apart from the segment that completes the handshake. -/
def tcpProcess (pcb : Pcb o) (seg : Segment) : Processed o :=
  if seg.rst then
    if resetAcceptable pcb seg then { pcb := { pcb with ackDelay := false }, reset := true }
    else if between seg.seqno pcb.rx.rcvNxt (pcb.rx.rcvNxt + BitVec.ofNat 32 pcb.rx.rcvWnd) then
      { pcb := tcpAckNow pcb }
    else { pcb := pcb }
  else if seg.syn ∧ pcb.state ≠ .synSent ∧ pcb.state ≠ .synRcvd then { pcb := tcpAckNow pcb }
  else processState (noteActivity pcb seg) seg

end TunForge.TcpIn
