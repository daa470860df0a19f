import TunForge.LwipTypes

/-! The send side of a pcb, after `tcp_out.c`. The number of segments that leave
in one call of `tcp_output` is taken from the pcb's surroundings; what is queued,
in which order, and what an acknowledgement removes is computed. -/
namespace TunForge.TcpOut
open SerialNumber PbufChain LwipTypes

variable {o : Platform}

/-- `LWIP_TCP_OPT_LENGTH_SEGMENT` of a SYN that carries MSS and, if agreed, window scale. -/
def synOptlen (pcb : Pcb o) : ℕ := 4 + if o.lwipWndScale && pcb.wndScale then 4 else 0

/-- `tcp_enqueue_flags`. -/
def tcpEnqueueFlags (pcb : Pcb o) (syn fin : Bool) : Pcb o × Err :=
  if pcb.env.mem then
    let seg : TxSeg := ⟨pcb.tx.sndLbb, [], if syn then synOptlen pcb else 0, 1, syn, fin⟩
    let tx := { pcb.tx with
      unsent := pcb.tx.unsent ++ [seg]
      unsentOversize := 0
      sndLbb := pcb.tx.sndLbb + 1
      finQueued := pcb.tx.finQueued || fin
      sndQueuelen := (pcb.tx.sndQueuelen + 1) % 2 ^ 16 }
    ({ pcb with tx := tx }, .ok)
  else ({ pcb with tx := { pcb.tx with nagleMemErr := true } }, .mem)

/-- `tcp_send_fin`: the FIN rides on the last unsent segment unless that one is itself a SYN or
FIN. -/
def tcpSendFin (pcb : Pcb o) : Pcb o × Err :=
  match pcb.tx.unsent.getLast? with
  | some last =>
    if !last.syn && !last.fin then
      let tx := { pcb.tx with
        unsent := pcb.tx.unsent.dropLast ++ [{ last with fin := true }]
        finQueued := true }
      ({ pcb with tx := tx }, .ok)
    else tcpEnqueueFlags pcb false true
  | none => tcpEnqueueFlags pcb false true

/-- The window announced in a segment that leaves now fixes the announced right edge. -/
def announce (rx : Rx) : Rx :=
  { rx with rcvAnnRightEdge := rx.rcvNxt + BitVec.ofNat 32 rx.rcvAnnWnd }

/-- `tcp_send_empty_ack`. The window counts as announced once there is a pbuf for the segment. -/
def tcpSendEmptyAck (pcb : Pcb o) : Pcb o :=
  if pcb.env.mem then
    if pcb.env.route then { pcb with rx := announce pcb.rx, ackDelay := false, ackNow := false }
    else { pcb with rx := announce pcb.rx, ackDelay := true, ackNow := true }
  else { pcb with ackDelay := true, ackNow := true }

/-- Place a sent segment on the unacked queue, which stays sorted. -/
def insertUnacked (seg : TxSeg) : List TxSeg → List TxSeg
  | [] => [seg]
  | s :: rest => if lt s.seqno seg.seqno then s :: insertUnacked seg rest else seg :: s :: rest

/-- What the loop of `tcp_output` does with one segment once it is sent. -/
def noteSent (tx : Tx) (seg : TxSeg) (rest : List TxSeg) : Tx :=
  let nxt := seg.seqno + BitVec.ofNat 32 seg.tcplen
  { tx with
    unsent := rest
    sndNxt := if lt tx.sndNxt nxt then nxt else tx.sndNxt
    unacked :=
      if seg.tcplen = 0 then tx.unacked
      else match tx.unacked.getLast? with
        | none => [seg]
        | some last =>
          if lt seg.seqno last.seqno then insertUnacked seg tx.unacked else tx.unacked ++ [seg] }

/-- The first `n` unsent segments leave. -/
def sendSegments : ℕ → Tx → Tx
  | 0, tx => tx
  | n + 1, tx =>
    match tx.unsent with
    | [] => tx
    | seg :: rest => sendSegments n (noteSent tx seg rest)

/-- `tcp_output` outside `tcp_input`. Nothing leaves without a route. -/
def outputNow (pcb : Pcb o) : Pcb o :=
  if pcb.tx.unsent ≠ [] ∧ !pcb.env.route then pcb
  else if pcb.tx.unsent = [] || !pcb.env.headFits then
    if pcb.ackNow then tcpSendEmptyAck pcb
    else { pcb with tx := { pcb.tx with nagleMemErr := false } }
  else if pcb.env.quota = 0 then { pcb with tx := { pcb.tx with nagleMemErr := false } }
  else
    let tx := sendSegments pcb.env.quota pcb.tx
    let tx := { tx with
      unsentOversize := if tx.unsent = [] then 0 else tx.unsentOversize
      nagleMemErr := false }
    { pcb with rx := announce pcb.rx, tx := tx, ackDelay := false, ackNow := false }

/-- `tcp_output`. Nothing leaves while `tcp_input` is working on this pcb. -/
def tcpOutput (pcb : Pcb o) : Pcb o :=
  if pcb.inputPcb then pcb else { outputNow pcb with env := pcb.env.next }

/-- `tcp_rexmit`: the first unacked segment goes back into the unsent queue. -/
def tcpRexmit (tx : Tx) : Tx :=
  match tx.unacked with
  | [] => tx
  | seg :: rest =>
    let unsent := insertUnacked seg tx.unsent
    { tx with
      unacked := rest
      unsent := unsent
      unsentOversize := if unsent.getLast? = some seg then 0 else tx.unsentOversize }

/-- `tcp_rexmit_rto_prepare`: all unacked segments go back in front of the unsent queue. -/
def tcpRexmitRtoPrepare (tx : Tx) : Tx :=
  { tx with unsent := tx.unacked ++ tx.unsent, unacked := [] }

/-- What a split leaves of a segment. It is told its remaining flags by `TCPH_SET_FLAG`, which only
adds flags, so a FIN stays on it. The queue does not record how a segment lies in its cells;
`keep` is the number that `pbuf_realloc` leaves of them. -/
def splitHead (keep split : ℕ) (useg : TxSeg) : TxSeg :=
  { useg with data := useg.data.take split, clen := max 1 (min keep useg.clen) }

/-- What a split takes off a segment; the FIN goes with it. -/
def splitTail (split : ℕ) (useg : TxSeg) : TxSeg :=
  ⟨useg.seqno + BitVec.ofNat 32 split, useg.data.drop split, useg.optlen, 1, false, useg.fin⟩

/-- The first unsent segment `useg` is split. -/
def splitFirst (keep split : ℕ) (useg : TxSeg) (rest : List TxSeg) (tx : Tx) : Tx :=
  let head := splitHead keep split useg
  { tx with
    unsent := head :: splitTail split useg :: rest
    sndQueuelen := (tx.sndQueuelen + (2 ^ 16 - useg.clen % 2 ^ 16) + head.clen + 1) % 2 ^ 16
    unsentOversize := if rest = [] then 0 else tx.unsentOversize }

/-- `tcp_split_unsent_seg`. -/
def tcpSplitUnsentSeg (keep split : ℕ) (pcb : Pcb o) : Pcb o × Err :=
  match pcb.tx.unsent with
  | [] => (pcb, .mem)
  | useg :: rest =>
    if split = 0 then (pcb, .val)
    else if useg.data.length ≤ split then (pcb, .ok)
    else if !pcb.env.mem then (pcb, .mem)
    else ({ pcb with tx := splitFirst keep split useg rest pcb.tx }, .ok)

/-- `snd_nxt` moves up to a number that lies beyond it. -/
def advanceNxt (nxt : Seq) (tx : Tx) : Tx :=
  { tx with sndNxt := if lt tx.sndNxt nxt then nxt else tx.sndNxt }

/-- `tcp_zero_window_probe`, as far as the pcb goes. The number of the probe counts as sent even
if there is no route for it. -/
def tcpZeroWindowProbe (pcb : Pcb o) : Pcb o × Err :=
  match pcb.tx.unsent with
  | [] => (pcb, .ok)
  | seg :: _ =>
    if !pcb.env.mem then (pcb, .mem)
    else ({ pcb with rx := announce pcb.rx, tx := advanceNxt (seg.seqno + 1) pcb.tx },
      if pcb.env.route then .ok else .rte)

/-! ### `tcp_write` -/

/-- `mss_local`: at most half the largest window the peer ever announced. -/
def mssLocal (pcb : Pcb o) : ℕ :=
  let m := min pcb.mss (min (pcb.tx.sndWndMax / 2) 0xFFFF)
  if m = 0 then pcb.mss else m

/-- `tcp_write_checks`. -/
def tcpWriteChecks (pcb : Pcb o) (len : ℕ) : Err :=
  if pcb.state ≠ .established ∧ pcb.state ≠ .closeWait ∧ pcb.state ≠ .synSent ∧
    pcb.state ≠ .synRcvd then
    .conn
  else if len = 0 then .ok
  else if pcb.tx.sndBuf < len then .mem
  else if min (tcpSndQueuelen o) (0xFFFF - 3 + 1) ≤ pcb.tx.sndQueuelen then .mem
  else .ok

/-- The spare room `tcp_pbuf_prealloc` leaves behind `length` bytes in a pbuf of at most
`maxLength`. Nagle makes it allocate the maximum unless the segment can leave at once. -/
def preallocOversize (tx : Tx) (length maxLength : ℕ) (firstSeg : Bool) : ℕ :=
  if length < maxLength ∧ (!firstSeg ∨ tx.unsent ≠ [] ∨ tx.unacked ≠ []) then
    min maxLength ((length + tcpMss + 7) / 8 * 8) - length
  else 0

/-- Phase 3 of `tcp_write`: cut `data` into new segments of at most `m` bytes. Each takes one
cell, and the queue length is checked as each is added. `none` is the memory error exit. -/
def newSegments (pcb : Pcb o) (m : ℕ) : ℕ → Seq → Bool → ℕ → ℕ → Bytes → Option (List TxSeg × ℕ × ℕ)
  | 0, _, _, queuelen, oversize, _ => some ([], queuelen, oversize)
  | fuel + 1, seqno, first, queuelen, oversize, data =>
    if data = [] then some ([], queuelen, oversize)
    else if !pcb.env.mem ∨ min (tcpSndQueuelen o) (0xFFFF - 3) < queuelen + 1 then none
    else
      let chunk := data.take m
      let spare := preallocOversize pcb.tx chunk.length m first
      match newSegments pcb m fuel (seqno + BitVec.ofNat 32 chunk.length) false (queuelen + 1) spare
        (data.drop m) with
      | none => none
      | some (segs, q, ov) => some (⟨seqno, chunk, 0, 1, false, false⟩ :: segs, q, ov)

/-- Phases 1 and 2 of `tcp_write`: how many bytes go into the spare room of the last unsent
segment, how many into a new cell chained to it, and the spare room left afterwards. -/
def extendLast (pcb : Pcb o) (m len : ℕ) : Option (ℕ × ℕ × ℕ) :=
  match pcb.tx.unsent.getLast? with
  | none => some (0, 0, 0)
  | some last =>
    let space := (2 ^ 16 + m - (last.data.length + last.optlen)) % 2 ^ 16
    let used := min space (min pcb.tx.unsentOversize len)
    let space := space - used
    if used < len ∧ 0 < space ∧ 0 < last.data.length then
      if pcb.env.mem then
        let seglen := min space (len - used)
        some (used, seglen, preallocOversize pcb.tx seglen space true)
      else none
    else some (used, 0, pcb.tx.unsentOversize - used)

/-- Append `data` to the last unsent segment, in `cells` new cells. -/
def growLast (unsent : List TxSeg) (data : Bytes) (cells : ℕ) : List TxSeg :=
  match unsent.getLast? with
  | none => unsent
  | some last =>
    unsent.dropLast ++ [{ last with data := last.data ++ data, clen := last.clen + cells }]

/-- `tcp_write` with `TCP_WRITE_FLAG_COPY`: all of `data` is queued or nothing is. -/
def tcpWrite (pcb : Pcb o) (data : Bytes) : Pcb o × Err :=
  match tcpWriteChecks pcb data.length with
  | .ok =>
    let m := mssLocal pcb
    match extendLast pcb m data.length with
    | none => ({ pcb with tx := { pcb.tx with nagleMemErr := true } }, .mem)
    | some (used, seglen, oversize) =>
      let cells := if seglen = 0 then 0 else 1
      let pos := used + seglen
      match newSegments pcb m data.length (pcb.tx.sndLbb + BitVec.ofNat 32 pos) true
        (pcb.tx.sndQueuelen + cells) oversize (data.drop pos) with
      | none => ({ pcb with tx := { pcb.tx with nagleMemErr := true } }, .mem)
      | some (segs, queuelen, oversize) =>
        let tx := { pcb.tx with
          unsent := growLast pcb.tx.unsent (data.take pos) cells ++ segs
          unsentOversize := oversize
          sndLbb := pcb.tx.sndLbb + BitVec.ofNat 32 data.length
          sndBuf := pcb.tx.sndBuf - data.length
          sndQueuelen := queuelen }
        ({ pcb with tx := tx }, .ok)
  | .mem => ({ pcb with tx := { pcb.tx with nagleMemErr := true } }, .mem)
  | e => (pcb, e)

end TunForge.TcpOut
