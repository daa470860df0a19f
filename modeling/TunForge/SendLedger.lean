import TunForge.SendSteps
import TunForge.TiledQueue
import TunForge.WriteAdmission

/-! The books of the send queue: the free buffer and the queued bytes make up the whole buffer,
and the queue length counts the cells of the queued segments, whatever is retransmitted, split
or acknowledged. -/
namespace TunForge.SendEngine
open SerialNumber PbufChain LwipTypes TcpOut TcpIn Tcp Stack PcbFrames SendQueue WorkFrames
  TiledQueue
open WriteAdmission (mssLocal_pos tcpSndQueuelen_le)
open StackRuns (ackSegment openingSyn calmEnv)

variable {o : Platform} {g : Discipline} {s s' : Sender o}

/-! ### What `tcp_write` queues -/

/-- The segments are `data` cut into pieces of `m` bytes from `seqno` on. -/
def Cut (m : ℕ) : Seq → Bytes → List TxSeg → Prop
  | _, data, [] => data = []
  | seqno, data, seg :: segs => data ≠ [] ∧ seg = ⟨seqno, data.take m, 0, 1, false, false⟩ ∧
    Cut m (seqno + BitVec.ofNat 32 (data.take m).length) (data.drop m) segs

lemma cut_newSegments {pcb : Pcb o} {m : ℕ} (hm : 0 < m) (fuel : ℕ) {seqno : Seq} {first : Bool}
    {queuelen oversize q ov : ℕ} {data : Bytes} {segs : List TxSeg} (hfuel : data.length ≤ fuel)
    (h : newSegments pcb m fuel seqno first queuelen oversize data = some (segs, q, ov)) :
    Cut m seqno data segs ∧ q = queuelen + segs.length ∧ (segs ≠ [] → q ≤ tcpSndQueuelen o) := by
  induction fuel generalizing seqno first queuelen oversize data segs q ov with
  | zero =>
    obtain rfl : data = [] := List.length_eq_zero_iff.1 (by omega)
    cases h
    exact ⟨rfl, rfl, nofun⟩
  | succ fuel ih =>
    unfold newSegments at h
    split_ifs at h with hd hfull
    · cases h
      exact ⟨hd, rfl, nofun⟩
    · dsimp only at h
      split at h
      · cases h
      · rename_i rest q' ov' hrest
        cases h
        have hlen : (data.drop m).length ≤ fuel := by
          rw [List.length_drop]
          omega
        obtain ⟨hcut, hq, hle⟩ := ih hlen hrest
        refine ⟨⟨hd, rfl, hcut⟩, by simp only [List.length_cons]; omega, fun _ => ?_⟩
        rw [min_eq_left (tcpSndQueuelen_le o)] at hfull
        cases rest with
        | nil =>
          simp only [List.length_nil] at hq
          omega
        | cons a as => exact hle nofun

/-- What a successful `tcp_write` does: it appends the first `pos` bytes to the last unsent
segment, in `cells` new cells, and queues the rest in new segments. -/
structure Written (pcb : Pcb o) (data : Bytes) (pos cells : ℕ) (segs : List TxSeg) : Prop where
  fits : data.length ≤ pcb.tx.sndBuf
  pos_le : pos ≤ data.length
  cells_le : cells ≤ pos
  empty : pcb.tx.unsent = [] → pos = 0 ∧ cells = 0
  room : ∀ last ∈ pcb.tx.unsent.getLast?,
    pos ≤ (2 ^ 16 + mssLocal pcb - (last.data.length + last.optlen)) % 2 ^ 16
  cut : Cut (mssLocal pcb) (pcb.tx.sndLbb + BitVec.ofNat 32 pos) (data.drop pos) segs
  queuelen : data ≠ [] → pcb.tx.sndQueuelen + cells + segs.length < 2 ^ 16
  state : pcb.state = .established ∨ pcb.state = .closeWait ∨ pcb.state = .synSent ∨
    pcb.state = .synRcvd

def writtenTx (pcb : Pcb o) (data : Bytes) (pos cells : ℕ) (segs : List TxSeg) (ov : ℕ) : Tx :=
  { pcb.tx with
    unsent := growLast pcb.tx.unsent (data.take pos) cells ++ segs
    unsentOversize := ov
    sndLbb := pcb.tx.sndLbb + BitVec.ofNat 32 data.length
    sndBuf := pcb.tx.sndBuf - data.length
    sndQueuelen := pcb.tx.sndQueuelen + cells + segs.length }

lemma tcpWriteChecks_ok {pcb : Pcb o} {len : ℕ} (h : tcpWriteChecks pcb len = .ok) :
    (pcb.state = .established ∨ pcb.state = .closeWait ∨ pcb.state = .synSent ∨
      pcb.state = .synRcvd) ∧
      len ≤ pcb.tx.sndBuf ∧ (len ≠ 0 → pcb.tx.sndQueuelen < tcpSndQueuelen o) := by
  unfold tcpWriteChecks at h
  split_ifs at h with h1 h2 h3 h4
  · exact ⟨by tauto, by omega, fun h => absurd h2 h⟩
  · refine ⟨by tauto, by omega, fun _ => ?_⟩
    omega

lemma extendLast_ok {pcb : Pcb o} {m len used seglen ov : ℕ}
    (h : extendLast pcb m len = some (used, seglen, ov)) :
    used + seglen ≤ len ∧ (pcb.tx.unsent = [] → used = 0 ∧ seglen = 0) ∧
      ∀ last ∈ pcb.tx.unsent.getLast?,
      used + seglen ≤ (2 ^ 16 + m - (last.data.length + last.optlen)) % 2 ^ 16 := by
  unfold extendLast at h
  split at h
  · rename_i hlast
    cases h
    exact ⟨by omega, fun _ => ⟨rfl, rfl⟩, fun last hl => by simp⟩
  · rename_i last hlast
    have hne : pcb.tx.unsent ≠ [] := by
      intro he
      rw [he] at hlast
      cases hlast
    simp only [hlast, Option.mem_def, Option.some.injEq, forall_eq']
    dsimp only at h
    split_ifs at h
    · cases h
      exact ⟨by omega, fun he => absurd he hne, by omega⟩
    · cases h
      exact ⟨by omega, fun he => absurd he hne, by omega⟩

lemma tcpWrite_ok {pcb p : Pcb o} {data : Bytes} (hmss : MssOk pcb)
    (h : tcpWrite pcb data = (p, .ok)) :
    ∃ pos cells segs ov, Written pcb data pos cells segs ∧
    p = { pcb with tx := writtenTx pcb data pos cells segs ov } := by
  have hlimit := tcpSndQueuelen_le o
  unfold tcpWrite at h
  split at h
  · rename_i hcheck
    obtain ⟨hstate, hbuf, hqueue⟩ := tcpWriteChecks_ok hcheck
    dsimp only at h
    split at h
    · cases h
    · rename_i used seglen ov hext
      obtain ⟨hle, hempty, hroom⟩ := extendLast_ok hext
      split at h
      · cases h
      · rename_i segs q ov' hsegs
        cases h
        obtain ⟨hcut, rfl, hq⟩ :=
          cut_newSegments (mssLocal_pos hmss) _ (by rw [List.length_drop]; omega) hsegs
        refine ⟨used + seglen, if seglen = 0 then 0 else 1, segs, ov',
          ⟨hbuf, hle, by split_ifs <;> omega, ?_, hroom, hcut, ?_, hstate⟩, rfl⟩
        · intro he
          obtain ⟨rfl, rfl⟩ := hempty he
          exact ⟨rfl, rfl⟩
        · intro hd
          have hlt := hqueue fun h0 => hd (List.length_eq_zero_iff.1 h0)
          cases segs with
          | nil => split_ifs <;> simp <;> omega
          | cons a as =>
            have := hq nofun
            omega
  · cases h
  · rename_i hne _
    exact (hne (congrArg Prod.snd h)).elim

/-! ### The books -/

def bytes (l : List TxSeg) : ℕ := extent (fun seg => seg.data.length) l

def cells (l : List TxSeg) : ℕ := extent TxSeg.clen l

/-- The books of a send half; `total` is the whole buffer, and `snd_queuelen` counts modulo its
width. -/
structure Balanced (total : ℕ) (tx : Tx) : Prop where
  buffer : tx.sndBuf + bytes (outbound tx) = total
  queuelen : tx.sndQueuelen = cells (outbound tx) % 2 ^ 16
  nonempty : ∀ seg ∈ outbound tx, 0 < seg.tcplen

/-- The books are kept as long as the pcb is on the active list; after that its queues are gone. -/
structure Ledger (s : Sender o) : Prop where
  mss : MssOk s.pcb
  books : s.pcb.list = .active → Balanced o.tcpSndBuf s.tx

lemma extent_perm {α : Type*} {len : α → ℕ} {l l' : List α} (h : l.Perm l') :
    extent len l = extent len l' :=
  (h.map len).sum_eq

lemma Balanced.perm {total : ℕ} {tx tx' : Tx} (h : Balanced total tx)
    (hp : (outbound tx').Perm (outbound tx)) (hb : tx'.sndBuf = tx.sndBuf)
    (hq : tx'.sndQueuelen = tx.sndQueuelen) : Balanced total tx' where
  buffer := by rw [hb, bytes, extent_perm hp, ← bytes, h.buffer]
  queuelen := by rw [hq, cells, extent_perm hp, ← cells, h.queuelen]
  nonempty seg hseg := h.nonempty seg (hp.mem_iff.1 hseg)

lemma perm_insertUnacked (seg : TxSeg) (l : List TxSeg) :
    (insertUnacked seg l).Perm (seg :: l) := by
  induction l with
  | nil => rfl
  | cons y l ih =>
    unfold insertUnacked
    split_ifs
    · exact (ih.cons y).trans (.swap seg y l)
    · rfl

lemma perm_tcpRexmit (tx : Tx) : (outbound (TcpOut.tcpRexmit tx)).Perm (outbound tx) := by
  unfold TcpOut.tcpRexmit outbound
  split
  · rfl
  · rename_i seg rest hu
    rw [hu]
    exact ((perm_insertUnacked seg tx.unsent).append_left rest).trans List.perm_middle

lemma perm_noteSent {tx : Tx} {seg : TxSeg} {rest : List TxSeg} (hu : tx.unsent = seg :: rest)
    (h0 : 0 < seg.tcplen) :
    (outbound (noteSent tx seg rest)).Perm (outbound tx) := by
  have hunacked : (noteSent tx seg rest).unacked.Perm (seg :: tx.unacked) := by
    unfold noteSent
    dsimp only
    rw [if_neg h0.ne']
    split
    · rename_i hlast
      rw [List.getLast?_eq_none_iff.1 hlast]
    · split_ifs
      · exact perm_insertUnacked seg _
      · exact List.perm_append_singleton seg _
  have hright := hunacked.append_right rest
  unfold outbound
  rw [hu]
  exact hright.trans List.perm_middle.symm

lemma Balanced.rexmit {total : ℕ} {tx : Tx} (h : Balanced total tx) :
    Balanced total (TcpOut.tcpRexmit tx) := by
  refine h.perm (perm_tcpRexmit tx) ?_ ?_ <;> unfold TcpOut.tcpRexmit <;> split <;> rfl

lemma tcpFreeAckedSegments_sums (ackno : Seq) (l : List TxSeg) :
    bytes l = (tcpFreeAckedSegments ackno l).2.2 + bytes (tcpFreeAckedSegments ackno l).1 ∧
    cells l = (tcpFreeAckedSegments ackno l).2.1 + cells (tcpFreeAckedSegments ackno l).1 ∧
    ∀ seg ∈ (tcpFreeAckedSegments ackno l).1, seg ∈ l := by
  induction l with
  | nil => exact ⟨rfl, rfl, fun _ h => h⟩
  | cons seg l ih =>
    unfold tcpFreeAckedSegments
    generalize tcpFreeAckedSegments ackno l = freed at ih
    obtain ⟨left, c, n⟩ := freed
    split_ifs
    · obtain ⟨hb, hc, hm⟩ := ih
      refine ⟨?_, ?_, fun x hx => List.mem_cons_of_mem seg (hm x hx)⟩
      · simp only [bytes, extent_cons] at hb ⊢
        omega
      · simp only [cells, extent_cons] at hc ⊢
        omega
    · exact ⟨(Nat.zero_add _).symm, (Nat.zero_add _).symm, fun _ h => h⟩

lemma freed_nil {ackno : Seq} {l : List TxSeg} (h : l = []) :
    (tcpFreeAckedSegments ackno l).1 = [] := by
  rw [h]
  rfl

lemma tcpSndBuf_lt (o : Platform) : o.tcpSndBuf < o.wndMod := by cases o <;> decide

lemma Balanced.ack {tx : Tx} (h : Balanced o.tcpSndBuf tx) (ackno : Seq) :
    Balanced o.tcpSndBuf (ackNewData o tx ackno).1 := by
  obtain ⟨hb1, hc1, hm1⟩ := tcpFreeAckedSegments_sums ackno tx.unacked
  obtain ⟨hb2, hc2, hm2⟩ := tcpFreeAckedSegments_sums ackno tx.unsent
  have hbuf := h.buffer
  have hqueue := h.queuelen
  have hlt := tcpSndBuf_lt o
  simp only [outbound, bytes, cells, extent_append] at hbuf hqueue hb1 hb2 hc1 hc2
  constructor
  · simp only [ackNewData, outbound, bytes, extent_append]
    have hfreed : (tcpFreeAckedSegments ackno tx.unacked).2.2 +
        (tcpFreeAckedSegments ackno tx.unsent).2.2 < o.wndMod := by
      omega
    rw [Nat.mod_eq_of_lt hfreed, Nat.mod_eq_of_lt (by omega)]
    omega
  · simp only [ackNewData, outbound, cells, extent_append]
    generalize (tcpFreeAckedSegments ackno tx.unacked).2.1 = c1 at hc1
    generalize (tcpFreeAckedSegments ackno tx.unsent).2.1 = c2 at hc2
    omega
  · intro seg hseg
    refine h.nonempty seg ?_
    simp only [ackNewData, outbound, List.mem_append] at hseg ⊢
    exact hseg.imp (hm1 seg) (hm2 seg)

lemma tcpSplitUnsentSeg_tx (keep n : ℕ) (s : Sender o) : (tcpSplitUnsentSeg keep n s).1 = s ∨
    ∃ seg rest ov, s.tx.unsent = seg :: rest ∧ 0 < n ∧ n < seg.data.length ∧
      (tcpSplitUnsentSeg keep n s).1 = s.setTx { s.tx with
        unsent := splitHead keep n seg :: splitTail n seg :: rest
        sndQueuelen := (s.tx.sndQueuelen + (2 ^ 16 - seg.clen % 2 ^ 16) +
          (splitHead keep n seg).clen + 1) % 2 ^ 16
        unsentOversize := ov } := by
  unfold tcpSplitUnsentSeg
  dsimp only
  rcases tcpSplitUnsentSeg_cases keep n s.pcb with heq | ⟨seg, rest, hu, h0, hn, -, heq⟩
  · exact .inl (by rw [heq])
  · rw [heq]
    exact .inr ⟨seg, rest, _, hu, h0, hn, rfl⟩

lemma tcplen_pos_of_data {seg : TxSeg} (h : seg.data ≠ []) : 0 < seg.tcplen := by
  have := List.length_pos_iff.2 h
  unfold TxSeg.tcplen
  omega

lemma Balanced.split {total : ℕ} (keep n : ℕ) (h : Balanced total s.tx) :
    Balanced total (tcpSplitUnsentSeg keep n s).1.tx := by
  rcases tcpSplitUnsentSeg_tx keep n s with heq | ⟨seg, rest, ov, hu, h0, hn, heq⟩
  · rw [heq]
    exact h
  have hbuf := h.buffer
  have hqueue := h.queuelen
  have hmem := h.nonempty
  rw [heq]
  simp only [outbound, bytes, cells, extent_append, hu, extent_cons] at hbuf hqueue hmem
  constructor
  · simp only [Sender.setTx, Sender.tx, outbound, bytes, extent_append, extent_cons, splitHead,
      splitTail, List.length_take, List.length_drop] at hbuf ⊢
    omega
  · simp only [Sender.setTx, Sender.tx, outbound, cells, extent_append, extent_cons,
      splitTail] at hqueue ⊢
    omega
  · intro x hx
    simp only [Sender.setTx, Sender.tx, outbound, List.mem_append, List.mem_cons] at hx hmem
    rcases hx with hx | rfl | rfl | hx
    · exact hmem x (.inl hx)
    · refine tcplen_pos_of_data (List.ne_nil_of_length_pos ?_)
      simp only [splitHead, List.length_take]
      omega
    · refine tcplen_pos_of_data (List.ne_nil_of_length_pos ?_)
      simp only [splitTail, List.length_drop]
      omega
    · exact hmem x (.inr (.inr hx))

lemma cut_sums {m : ℕ} {seqno : Seq} {data : Bytes} {segs : List TxSeg} (hm : 0 < m)
    (h : Cut m seqno data segs) :
    bytes segs = data.length ∧ cells segs = segs.length ∧ ∀ seg ∈ segs, 0 < seg.tcplen := by
  induction segs generalizing seqno data with
  | nil =>
    obtain rfl : data = [] := h
    exact ⟨rfl, rfl, nofun⟩
  | cons seg segs ih =>
    obtain ⟨hd, rfl, hcut⟩ := h
    obtain ⟨hb, hc, hpos⟩ := ih hcut
    have hlen := List.length_pos_iff.2 hd
    simp only [bytes, cells, extent_cons, List.length_take, List.length_drop,
      List.length_cons] at hb hc ⊢
    refine ⟨by omega, by omega, fun x hx => ?_⟩
    rcases List.mem_cons.1 hx with rfl | hx
    · refine tcplen_pos_of_data (List.ne_nil_of_length_pos ?_)
      simp only [List.length_take]
      omega
    · exact hpos x hx

lemma growLast_eq {l : List TxSeg} (data : Bytes) (n : ℕ) : (l = [] ∧ growLast l data n = []) ∨
    ∃ pre last, l = pre ++ [last] ∧
      growLast l data n = pre ++
        [{ last with data := last.data ++ data, clen := last.clen + n }] := by
  rcases List.eq_nil_or_concat l with rfl | ⟨pre, last, rfl⟩
  · exact .inl ⟨rfl, rfl⟩
  · refine .inr ⟨pre, last, by simp, ?_⟩
    simp [growLast]

lemma Balanced.write {pcb : Pcb o} {data : Bytes} {pos cells' ov : ℕ} {segs : List TxSeg}
    {total : ℕ} (h : Balanced total pcb.tx) (hmss : MssOk pcb)
    (hw : Written pcb data pos cells' segs) :
    Balanced total (writtenTx pcb data pos cells' segs ov) := by
  obtain ⟨hb, hc, hpos⟩ := cut_sums (mssLocal_pos hmss) hw.cut
  have hbuf := h.buffer
  have hqueue := h.queuelen
  have hmem := h.nonempty
  have hfits := hw.fits
  have hle := hw.pos_le
  have hcells := hw.cells_le
  have hroom : pcb.tx.sndQueuelen + cells' + segs.length < 2 ^ 16 := by
    by_cases hd : data = []
    · subst hd
      obtain rfl : segs = [] := by
        cases segs with
        | nil => rfl
        | cons seg segs => exact absurd List.drop_nil hw.cut.1
      simp only [List.length_nil] at hle ⊢
      omega
    · exact hw.queuelen hd
  simp only [List.length_drop, bytes, cells] at hb hc
  simp only [outbound, bytes, cells, extent_append] at hbuf hqueue hmem
  rcases growLast_eq (l := pcb.tx.unsent) (data.take pos) cells' with ⟨hu, hg⟩ | ⟨pre, last, hu, hg⟩
  · obtain ⟨rfl, rfl⟩ := hw.empty hu
    simp only [hu, List.append_nil, extent_nil] at hbuf hqueue hmem
    constructor
    · simp only [writtenTx, outbound, bytes, hg, extent_append, extent_nil]
      omega
    · simp only [writtenTx, outbound, cells, hg, extent_append, extent_nil]
      omega
    · intro x hx
      simp only [writtenTx, outbound, hg, List.nil_append, List.mem_append] at hx
      exact hx.elim (hmem x) (hpos x)
  · simp only [hu, extent_append, extent_cons, extent_nil] at hbuf hqueue hmem
    constructor
    · simp only [writtenTx, outbound, bytes, hg, extent_append, extent_cons, extent_nil,
        List.length_append, List.length_take]
      omega
    · simp only [writtenTx, outbound, cells, hg, extent_append, extent_cons, extent_nil]
      omega
    · intro x hx
      simp only [writtenTx, outbound, hg, List.mem_append, List.mem_singleton] at hx hmem
      rcases hx with hx | (hx | rfl) | hx
      · exact hmem x (.inl hx)
      · exact hmem x (.inr (.inl hx))
      · have hlast := hmem last (.inr (.inr rfl))
        simp only [TxSeg.tcplen, List.length_append] at hlast ⊢
        omega
      · exact hpos x hx

lemma tcpSendFin_ok {pcb p : Pcb o} (h : tcpSendFin pcb = (p, .ok)) :
    (∃ pre last, pcb.tx.unsent = pre ++ [last] ∧ last.syn = false ∧ last.fin = false ∧
      p = { pcb with
        tx := { pcb.tx with unsent := pre ++ [{ last with fin := true }], finQueued := true } }) ∨
    ((∀ last ∈ pcb.tx.unsent.getLast?, last.syn = true ∨ last.fin = true) ∧
      p = { pcb with tx := { pcb.tx with
        unsent := pcb.tx.unsent ++ [⟨pcb.tx.sndLbb, [], 0, 1, false, true⟩]
        unsentOversize := 0
        sndLbb := pcb.tx.sndLbb + 1
        finQueued := true
        sndQueuelen := (pcb.tx.sndQueuelen + 1) % 2 ^ 16 } }) := by
  -- `tcp_send_fin` marks the last unsent segment or queues an empty one
  have henq : tcpEnqueueFlags pcb false true = (p, .ok) → p = { pcb with tx := { pcb.tx with
      unsent := pcb.tx.unsent ++ [⟨pcb.tx.sndLbb, [], 0, 1, false, true⟩]
      unsentOversize := 0
      sndLbb := pcb.tx.sndLbb + 1
      finQueued := true
      sndQueuelen := (pcb.tx.sndQueuelen + 1) % 2 ^ 16 } } := by
    intro he
    unfold tcpEnqueueFlags at he
    by_cases hmem : pcb.env.mem = true
    · rw [if_pos hmem] at he
      cases he
      simp
    · rw [if_neg hmem] at he
      cases he
  unfold tcpSendFin at h
  rcases List.eq_nil_or_concat pcb.tx.unsent with hu | ⟨pre, last, hu⟩
  · rw [hu] at h
    exact .inr ⟨by simp [hu], henq h⟩
  · rw [hu] at h
    simp only [List.concat_eq_append, List.getLast?_concat, List.dropLast_concat] at h hu
    split_ifs at h with hplain
    · simp only [Bool.and_eq_true, Bool.not_eq_true'] at hplain
      exact .inl ⟨pre, last, hu, hplain.1, hplain.2, (congrArg Prod.fst h).symm⟩
    · refine .inr ⟨?_, henq h⟩
      simp only [Bool.and_eq_true, Bool.not_eq_true', not_and_or, Bool.not_eq_false] at hplain
      simpa [hu] using hplain

lemma Balanced.fin {total : ℕ} {pcb p : Pcb o} (h : Balanced total pcb.tx)
    (hf : tcpSendFin pcb = (p, .ok)) :
    Balanced total p.tx := by
  have hbuf := h.buffer
  have hqueue := h.queuelen
  have hmem := h.nonempty
  rcases tcpSendFin_ok hf with ⟨pre, last, hu, -, -, rfl⟩ | ⟨-, rfl⟩
  · simp only [outbound, bytes, cells, hu, extent_append, extent_cons] at hbuf hqueue hmem
    constructor
    · simpa only [outbound, bytes, extent_append, extent_cons] using hbuf
    · simpa only [outbound, cells, extent_append, extent_cons] using hqueue
    · intro x hx
      simp only [outbound, List.mem_append, List.mem_singleton] at hx hmem
      rcases hx with hx | hx | rfl
      · exact hmem x (.inl hx)
      · exact hmem x (.inr (.inl hx))
      · simp [TxSeg.tcplen]
  · simp only [outbound, bytes, cells, extent_append] at hbuf hqueue hmem
    constructor
    · simp only [outbound, bytes, extent_append, extent_cons, extent_nil, List.length_nil]
      omega
    · simp only [outbound, cells, extent_append, extent_cons, extent_nil]
      omega
    · intro x hx
      simp only [outbound, List.mem_append, List.mem_singleton] at hx hmem
      rcases hx with hx | hx | rfl
      · exact hmem x (.inl hx)
      · exact hmem x (.inr hx)
      · simp [TxSeg.tcplen]

lemma Balanced.of_eq {total : ℕ} {tx tx' : Tx} (h : Balanced total tx)
    (h1 : tx'.unacked = tx.unacked) (h2 : tx'.unsent = tx.unsent) (hb : tx'.sndBuf = tx.sndBuf)
    (hq : tx'.sndQueuelen = tx.sndQueuelen) :
    Balanced total tx' :=
  h.perm (by rw [outbound, h1, h2]; rfl) hb hq

lemma enterTimeWait_eq (hst : s.pcb.state = .finWait1 ∨ s.pcb.state = .finWait2 ∨
    s.pcb.state = .closing) :
    (enterTimeWait s.pcb).tx = { s.tx with unsent := [], unacked := [], unsentOversize := 0 } ∧
      (enterTimeWait s.pcb).mss = s.pcb.mss := by
  unfold enterTimeWait tcpPcbPurge tcpBacklogAccepted
  rw [if_pos (by rcases hst with h | h | h <;> rw [h] <;> decide)]
  exact ⟨rfl, rfl⟩

lemma ledger_move (h : Ledger s) (hm : Move g s s') : Ledger s' := by
  cases hm with
  | quiet hq =>
    refine ⟨mssOk_of_eq hq.mss h.mss, fun hl => ?_⟩
    obtain ⟨ov, err, htx⟩ := hq.tx
    rw [Sender.tx, htx]
    exact (h.books (hq.list ▸ hl)).of_eq rfl rfl rfl rfl
  | options seg =>
    refine ⟨mssOk_tcpParseopt seg h.mss, fun hl => ?_⟩
    obtain ⟨sc, hsc⟩ := tcpParseopt_tx s.pcb seg
    rw [Sender.tx, Sender.mapPcb, hsc]
    exact (h.books (list_of_core (core_tcpParseopt s.pcb seg) ▸ hl)).of_eq rfl rfl rfl rfl
  | establish ackno pcb _ _ _ _ _ _ htx hmss hlist =>
    refine ⟨mssOk_of_eq hmss h.mss, fun hl => ?_⟩
    rw [Sender.tx, htx]
    exact (h.books (hlist ▸ hl)).ack ackno
  | timeWait hst => exact ⟨mssOk_of_eq (enterTimeWait_eq hst).2 h.mss, fun hl => by cases hl⟩
  | window seg =>
    obtain ⟨_, _, _, _, heq, -⟩ := updateSndWnd_eq s.tx seg
    refine ⟨h.mss, fun hl => ?_⟩
    rw [Sender.setTx, Sender.tx, heq]
    exact (h.books hl).of_eq rfl rfl rfl rfl
  | ack ackno => exact ⟨h.mss, fun hl => (h.books hl).ack ackno⟩
  | duplicate =>
    obtain ⟨tx, c, r, x, rfl | rfl, -, -, heq⟩ := duplicateAck_eq s <;> rw [heq]
    · exact ⟨h.mss, h.books⟩
    · exact ⟨h.mss, fun hl => (h.books hl).rexmit⟩
  | measure | countRexmit | startPersist | persist | tickTimer | route => exact ⟨h.mss, h.books⟩
  | resendSyn =>
    unfold tcpRexmit
    split_ifs
    · exact h
    · exact ⟨h.mss, fun hl => (h.books hl).rexmit⟩
  | timeout =>
    unfold tcpRexmitRtoPrepare
    split
    · exact ⟨h.mss, h.books⟩
    · exact ⟨h.mss, fun hl => (h.books hl).perm (.refl _) rfl rfl⟩
  | send seg rest hu =>
    refine ⟨h.mss, fun hl => (h.books hl).perm (perm_noteSent hu ?_) rfl rfl⟩
    exact (h.books hl).nonempty seg (by simp [outbound, hu])
  | probe =>
    obtain ⟨nxt, rx, heq⟩ := probe_pcb s
    refine ⟨mssOk_of_eq (by rw [heq]) h.mss, fun hl => ?_⟩
    rw [heq] at hl
    rw [Sender.tx, heq]
    exact (h.books hl).of_eq rfl rfl rfl rfl
  | split keep =>
    have hcore := core_split keep (s.tx.sndWnd % 2 ^ 16) s
    refine ⟨mssOk_of_eq ?_ h.mss, fun hl => (h.books (list_of_core hcore ▸ hl)).split keep _⟩
    rcases tcpSplitUnsentSeg_tx keep (s.tx.sndWnd % 2 ^ 16) s with
      heq | ⟨_, _, _, _, _, _, heq⟩ <;> rw [heq]
    rfl
  | write data pcb hw =>
    obtain ⟨pos, cells, segs, ov, hwritten, rfl⟩ := tcpWrite_ok h.mss hw
    exact ⟨h.mss, fun hl => (h.books hl).write h.mss hwritten⟩
  | fin pcb next hf =>
    have hcore := (same_tcpSendFin s.pcb).1
    rw [hf] at hcore
    refine ⟨mssOk_of_eq ?_ h.mss, fun hl => ?_⟩
    · rcases tcpSendFin_ok hf with ⟨_, _, _, _, _, rfl⟩ | ⟨-, rfl⟩ <;> rfl
    · have hbooks := (h.books ((list_of_core hcore).symm.trans hl)).fin hf
      exact hbooks

/-! ### The result -/

lemma newPcb_tx (syn : Segment) (iss : Seq) (env : Env) (ticks : ℕ) :
    ∃ sc, (newPcb o syn iss env ticks).tx =
    { sndNxt := iss, lastack := iss, sndLbb := iss, sndWl1 := syn.seqno - 1, sndWl2 := iss
      sndWnd := syn.wnd, sndWndMax := syn.wnd, sndScale := sc, sndBuf := o.tcpSndBuf
      sndQueuelen := 0, unsentOversize := 0, unsent := [], unacked := [], nagleMemErr := false,
        finQueued := false } := by
  unfold newPcb
  obtain ⟨sc, hsc⟩ := tcpParseopt_tx _ syn
  exact ⟨sc, hsc⟩

lemma mssOk_newPcb (syn : Segment) (iss : Seq) (env : Env) (ticks : ℕ) :
    MssOk (newPcb o syn iss env ticks) := by
  have hdefault : 0 < 536 ∧ 536 ≤ tcpMss := by decide
  exact mssOk_tcpParseopt syn hdefault

/-- A new sender: its SYN is queued, nothing has been sent, no timer runs. -/
structure Fresh (iss : Seq) (s : Sender o) : Prop where
  state : s.pcb.state = .synRcvd
  list : s.pcb.list = .active
  pend : s.pcb.closePend = false
  idle : s.pcb.inputPcb = false
  mss : MssOk s.pcb
  tx : ∃ wl1 sc wnd opt, s.tx =
    { sndNxt := iss, lastack := iss, sndLbb := iss + 1, sndWl1 := wl1, sndWl2 := iss
      sndWnd := wnd, sndWndMax := wnd, sndScale := sc, sndBuf := o.tcpSndBuf
      sndQueuelen := 1, unsentOversize := 0, unsent := [⟨iss, [], opt, 1, true, false⟩],
        unacked := []
      nagleMemErr := false, finQueued := false }
  rest : s = newSender s.pcb

lemma fresh_of_opened {syn : Segment} {iss : Seq} (h : Opened syn iss s) :
    ∃ s₀, Fresh iss s₀ ∧ s = tcpOutput s₀ ∧ s₀.tx.sndWndMax = syn.wnd := by
  obtain ⟨-, env, ticks, h⟩ := h
  have hcore := (same_tcpEnqueueFlags (newPcb o syn iss env ticks) true false).1
  have hnew : core (newPcb o syn iss env ticks) =
      ⟨.synRcvd, .active, true, false, false, false, false⟩ :=
    core_tcpParseopt _ syn
  obtain ⟨sc, htx⟩ := newPcb_tx (o := o) syn iss env ticks
  unfold tcpListenInput at h
  split at h
  · rename_i pcb hp
    rw [hp] at hcore
    have hpcb := hcore.trans hnew
    cases h
    unfold tcpEnqueueFlags at hp
    by_cases hmem : (newPcb o syn iss env ticks).env.mem = true
    · rw [if_pos hmem, htx] at hp
      cases hp
      refine ⟨_, ⟨congrArg Core.state hpcb, congrArg Core.list hpcb, congrArg Core.closePend hpcb,
        congrArg Core.inputPcb hpcb, mssOk_newPcb syn iss env ticks, ⟨_, _, _, _, rfl⟩, rfl⟩, rfl,
        rfl⟩
    · rw [if_neg hmem] at hp
      cases hp
  · cases h

lemma Fresh.ledger {iss : Seq} (h : Fresh iss s) : Ledger s := by
  obtain ⟨wl1, sc, wnd, opt, htx⟩ := h.tx
  refine ⟨h.mss, fun _ => ⟨?_, ?_, ?_⟩⟩ <;> rw [htx]
  · rfl
  · rfl
  · simp [outbound, TxSeg.tcplen]

lemma respects_free (s : Option (Sender o)) (e : Event) : Respects {} s e := by
  cases s with
  | none => trivial
  | some s =>
    cases e with
    | segment => exact ⟨nofun, nofun, nofun⟩
    | recved | output | mem => trivial
    | _ => nofun

lemma Fresh.pendOpen {iss : Seq} (h : Fresh iss s) : PendOpen s := fun hp => by
  rw [h.pend] at hp
  cases hp

/-- What holds of a new sender and is kept by every move holds at the end of every run. -/
theorem opened_keeps {I : Sender o → Prop} (hI : ∀ a b, I a → Move g a b → I b) {syn : Segment}
    {iss : Seq} (hnew : ∀ s₀, Fresh iss s₀ → s₀.pcb.env = s.pcb.env → I s₀)
    (h : Opened syn iss s) {es : List Event} (hes : Runs.Along step (Respects g) (some s) es) :
    Alive I (Runs.run step (some s) es) := by
  obtain ⟨s₀, hfresh, rfl, -⟩ := fresh_of_opened h
  have hmoves : Moves g s₀ (tcpOutput s₀) := moves_tcpOutput s₀
  exact run_keeps hI (hmoves.keeps (fun a b => pendOpen_move) hfresh.pendOpen)
    (hmoves.keeps hI (hnew s₀ hfresh (env_tcpOutput s₀).symm)) hes

/-- Over any run, while the pcb is active, the free send buffer and the bytes queued make up
`TCP_SND_BUF`, `snd_queuelen` is the number of queued cells modulo `2 ^ 16`, and no queued segment
is empty. -/
theorem send_books {syn : Segment} {iss : Seq} (h : Opened syn iss s) (es : List Event) :
    Alive (fun t => t.pcb.list = .active → Balanced o.tcpSndBuf t.tx)
      (Runs.run step (some s) es) := by
  have hrun := opened_keeps (g := {}) (I := Ledger) (fun _ _ => ledger_move)
    (fun _ hf _ => hf.ledger) h
    (Runs.along_of_forall step respects_free (some s) es)
  exact hrun.imp fun _ ht => ht.books

/-- The sender that answers `openingSyn`. -/
def greeted (o : Platform) : Sender o :=
  (tcpListenInput o openingSyn 6510 calmEnv 0).getD (newSender (newPcb o openingSyn 6510 calmEnv 0))

lemma greeted_opened (o : Platform) : Opened openingSyn 6510 (greeted o) := by
  refine ⟨rfl, calmEnv, 0, ?_⟩
  cases o <;> decide

theorem send_books_threeBytes :
    let t := Runs.run step (some (greeted .ios)) [.segment (ackSegment 101 6511), .write [1, 2, 3]]
    Alive (fun t => t.pcb.list = .active → Balanced Platform.ios.tcpSndBuf t.tx) t ∧
      t.map (fun t => (t.tx.sndBuf, bytes (outbound t.tx))) = some (16381, 3) :=
  ⟨send_books (greeted_opened .ios) _, by decide +kernel⟩

/-- Three bytes whose first transmission is lost. -/
def lossRun : List Event :=
  [.segment (ackSegment 101 6511), .write [1, 2, 3]] ++ List.replicate 6
    (.slowtmr 0) ++ [.segment (ackSegment 101 6514)]

end TunForge.SendEngine
