import TunForge.SendLedger

/-! The two queues of the send side are one queue of segments that lie end to end in the stream of
accepted bytes, some of them in flight. Every operation keeps it so, as long as no retransmission
is held back when the application writes or closes or a timeout fires. -/
namespace TunForge.SendEngine
open SerialNumber PbufChain LwipTypes TcpOut TcpIn Tcp Stack PcbFrames SendQueue WorkFrames
  TiledQueue
open WriteAdmission (mssLocal_pos tcpSndQueuelen_le)
open StackRuns (ackSegment openingSyn calmEnv)

variable {o : Platform} {g : Discipline} {s s' : Sender o} {iss : Seq}

/-! ### Positions in the stream -/

/-- The sequence number of position `pos` of the stream. The SYN stands at 0, the first byte at
1. -/
def seqAt (iss : Seq) (pos : ℕ) : Seq := iss + BitVec.ofNat 32 pos

lemma seqAt_zero (iss : Seq) : seqAt iss 0 = iss := by simp [seqAt]

lemma seqAt_add (iss : Seq) (pos n : ℕ) :
    seqAt iss pos + BitVec.ofNat 32 n = seqAt iss (pos + n) := by
  simp [seqAt, BitVec.add_assoc, BitVec.ofNat_add]

lemma off_seqAt {a p : ℕ} (h : a ≤ p) (hlt : p - a < half) :
    off (seqAt iss a) (seqAt iss p) = p - a := by
  obtain ⟨n, rfl⟩ := Nat.exists_eq_add_of_le h
  rw [← seqAt_add, off_base_add] <;> unfold half at hlt <;> omega

lemma lt_seqAt {p r : ℕ} (hp : p < r + half) (hr : r < p + half) :
    lt (seqAt iss p) (seqAt iss r) = true ↔ p < r := by
  have h1 : min p r ≤ p := min_le_left _ _
  have h2 : min p r ≤ r := min_le_right _ _
  rw [lt_iff (r := seqAt iss (min p r)) (by rw [off_seqAt h1] <;> omega)
    (by rw [off_seqAt h2] <;> omega), off_seqAt h1 (by omega), off_seqAt h2 (by omega)]
  omega

lemma leq_seqAt {p r : ℕ} (hp : p < r + half) (hr : r < p + half) :
    leq (seqAt iss p) (seqAt iss r) = true ↔ p ≤ r := by
  have : lt (seqAt iss r) (seqAt iss p) = true ↔ r < p := lt_seqAt hr hp
  simp only [leq, Bool.not_eq_true', ← Bool.not_eq_true, this, not_lt]

lemma exists_pos_of_between {ackno : Seq} {la nx : ℕ} (hle : la ≤ nx) (hlt : nx - la < half)
    (h : between ackno (seqAt iss la + 1) (seqAt iss nx) = true) :
    ∃ p, ackno = seqAt iss p ∧ la < p ∧ p ≤ nx := by
  obtain ⟨n, rfl⟩ := Nat.exists_eq_add_of_le hle
  rw [← seqAt_add] at h
  have hoff : 1 ≤ off (seqAt iss la) ackno ∧ off (seqAt iss la) ackno ≤ n := by
    generalize seqAt iss la = r at h ⊢
    unfold between geq leq lt half at h
    unfold off
    simp only [Bool.and_eq_true, Bool.not_eq_true', decide_eq_false_iff_not, not_le] at h
    unfold half at hlt
    rw [show r + BitVec.ofNat 32 n - ackno = BitVec.ofNat 32 n - (ackno - r) by bv_omega,
      show ackno - (r + 1) = (ackno - r) - 1 by bv_omega] at h
    generalize ackno - r = d at h ⊢
    have := d.isLt
    simp only [BitVec.toNat_sub, BitVec.toNat_ofNat, show BitVec.toNat (1 : Seq) = 1 from rfl] at h
    omega
  refine ⟨la + off (seqAt iss la) ackno, ?_, by omega, by omega⟩
  rw [← seqAt_add]
  unfold off
  rw [BitVec.ofNat_toNat, BitVec.setWidth_eq]
  bv_omega

/-! ### Segments in place -/

/-- The segment stands at position `pos` of the stream that begins with the SYN, goes on with the
bytes `acc` and may end with a FIN. -/
structure Placed (iss : Seq) (acc : Bytes) (pos : ℕ) (seg : TxSeg) : Prop where
  seqno : seg.seqno = seqAt iss pos
  nonempty : 0 < seg.tcplen
  syn : seg.syn = true → pos = 0 ∧ seg.data = [] ∧ seg.fin = false
  data : seg.syn = false → 1 ≤ pos ∧ seg.data <+: acc.drop (pos - 1)
  fin : seg.fin = true → pos + seg.data.length = acc.length + 1

/-- A segment of the queue in its place, and sent if it is marked as in flight. -/
structure Spot (iss : Seq) (acc : Bytes) (nx pos : ℕ) (x : TxSeg × Bool) : Prop where
  placed : Placed iss acc pos x.1
  sent : x.2 = true → pos + x.1.tcplen ≤ nx

def qlen (x : TxSeg × Bool) : ℕ := x.1.tcplen

/-- The send half `tx` as one queue `q` of segments that lie end to end from position `a` to the
end of the stream; `la` and `nx` are the positions of `lastack` and `snd_nxt`. -/
structure Stream (iss : Seq) (acc : Bytes) (tx : Tx) (a la nx : ℕ) (q : List (TxSeg × Bool)) :
    Prop where
  unacked : tx.unacked = part true q
  unsent : tx.unsent = part false q
  tiles : Tiles qlen (Spot iss acc nx) a q
  finish : a + extent qlen q = acc.length + 1 + if tx.finQueued then 1 else 0
  lbb : tx.finQueued = false → tx.sndLbb = seqAt iss (acc.length + 1)
  lastack : tx.lastack = seqAt iss la
  sndNxt : tx.sndNxt = seqAt iss nx
  freed : a ≤ la
  acked : la ≤ nx
  within : nx ≤ a + extent qlen q
  synFreed : la = 0 ∨ 1 ≤ a
  window : tx.sndWnd ≤ tx.sndWndMax
  flight : nx ≤ la + tx.sndWndMax + 1

/-- At most the first number of the first segment is acknowledged, so the segment does not end
before `lastack`. -/
structure Close (a la : ℕ) (q : List (TxSeg × Bool)) : Prop where
  le : la ≤ a + 1
  head : ∀ seg ∈ (pieces q).head?, la ≤ a + seg.data.length

variable {acc : Bytes} {tx tx' : Tx} {a la nx pos : ℕ} {q : List (TxSeg × Bool)} {seg : TxSeg}

lemma Spot.mono {nx' : ℕ} {x : TxSeg × Bool} (h : Spot iss acc nx pos x) (hle : nx ≤ nx') :
    Spot iss acc nx' pos x :=
  ⟨h.placed, fun hx => (h.sent hx).trans hle⟩

lemma tcplen_le (seg : TxSeg) :
    seg.data.length ≤ seg.tcplen ∧ seg.tcplen ≤ seg.data.length + 1 := by
  unfold TxSeg.tcplen
  split_ifs <;> omega

lemma Placed.tcplen_fin (h : Placed iss acc pos seg) (hf : seg.fin = true) :
    pos + seg.tcplen = acc.length + 2 := by
  have := h.fin hf
  unfold TxSeg.tcplen
  simp only [hf, Bool.true_or, if_true]
  omega

lemma Placed.tcplen_syn (h : Placed iss acc pos seg) (hs : seg.syn = true) : seg.tcplen = 1 := by
  simp [TxSeg.tcplen, hs, (h.syn hs).2.1]

lemma tcplen_plain (hs : seg.syn = false) (hf : seg.fin = false) :
    seg.tcplen = seg.data.length := by
  simp [TxSeg.tcplen, hs, hf]

lemma extent_le_bytes (h : Tiles qlen (Spot iss acc nx) a q)
    (hend : a + extent qlen q ≤ acc.length + 2) :
    extent qlen q ≤ bytes (pieces q) + (if a = 0 then 1 else 0) + if a + extent qlen q =
      acc.length + 2 then 1 else 0 := by
  -- apart from the SYN and the FIN the queue is as long as its bytes
  induction q generalizing a with
  | nil => simp [bytes]
  | cons x q ih =>
    have hq : qlen x = x.1.tcplen := rfl
    have hlen := tcplen_le x.1
    have hih := ih h.2 (by simp only [extent_cons] at hend; omega)
    simp only [extent_cons, bytes, pieces_cons] at hih hend ⊢
    rcases Bool.eq_false_or_eq_true x.1.fin with hf | hf
    · have hfin := h.1.placed.tcplen_fin hf
      split_ifs at hih ⊢ <;> omega
    · rcases Bool.eq_false_or_eq_true x.1.syn with hs | hs
      · obtain ⟨rfl, -⟩ := h.1.placed.syn hs
        have hone := h.1.placed.tcplen_syn hs
        split_ifs at hih ⊢ <;> omega
      · have hplain := tcplen_plain hs hf
        have hpos := (h.1.placed.data hs).1
        split_ifs at hih ⊢ <;> omega

lemma Stream.short (h : Stream iss acc tx a la nx q) (hb : Balanced o.tcpSndBuf tx) :
    extent qlen q < 2 ^ 30 := by
  have hbuf := hb.buffer
  have hperm : bytes (outbound tx) = bytes (pieces q) := by
    rw [outbound, h.unacked, h.unsent]
    exact extent_perm (perm_pieces q)
  have hle := extent_le_bytes h.tiles (by rw [h.finish]; split_ifs <;> omega)
  have hmax : o.tcpSndBuf ≤ 524288 := by cases o <;> decide
  split_ifs at hle <;> omega

lemma Stream.of_eq (h : Stream iss acc tx a la nx q)
    (heq : ∃ wl1 wl2 sc ov buf len err, tx' = { tx with
    sndWl1 := wl1, sndWl2 := wl2, sndScale := sc, unsentOversize := ov, sndBuf := buf,
    sndQueuelen := len, nagleMemErr := err }) :
    Stream iss acc tx' a la nx q := by
  obtain ⟨_, _, _, _, _, _, _, rfl⟩ := heq
  exact { h with }

lemma Stream.plain (h : Stream iss acc tx a la nx q) (hfin : tx.finQueued = false)
    (hP : Placed iss acc pos seg) (hle : pos + seg.tcplen ≤ a + extent qlen q) :
    seg.fin = false := by
  by_contra hf
  have hend := hP.tcplen_fin (by simpa using hf)
  have hfinish := h.finish
  rw [hfin] at hfinish
  simp only [Bool.false_eq_true, if_false] at hfinish
  omega

section Places

/-! ### A segment and its neighbours -/

variable {pre post : List (TxSeg × Bool)} {b : Bool}

lemma Stream.at (h : Stream iss acc tx a la nx (pre ++ (seg, b) :: post)) :
    Tiles qlen (Spot iss acc nx) a pre ∧ Spot iss acc nx (a + extent qlen pre) (seg, b) ∧
      Tiles qlen (Spot iss acc nx) (a + extent qlen pre + seg.tcplen) post := by
  obtain ⟨h1, h2⟩ := tiles_append.1 h.tiles
  exact ⟨h1, h2.1, h2.2⟩

lemma extent_middle : extent qlen (pre ++ (seg, b) :: post) =
    extent qlen pre + seg.tcplen + extent qlen post := by
  rw [extent_append, extent_cons, qlen, Nat.add_assoc]

lemma Stream.before (h : Stream iss acc tx a la nx (pre ++ (seg, b) :: post))
    (hshort : extent qlen (pre ++ (seg, b) :: post) < 2 ^ 30) {y : TxSeg} (hy : y ∈ pieces pre) :
    lt y.seqno seg.seqno = true ∧ lt seg.seqno y.seqno = false := by
  obtain ⟨hpre, hseg, -⟩ := h.at
  obtain ⟨x, hx, rfl⟩ := List.mem_map.1 hy
  obtain ⟨p, hp, hle, hP⟩ := hpre.exists_pos hx
  have hpos := hP.placed.nonempty
  rw [extent_middle] at hshort
  rw [qlen] at hle
  rw [hP.placed.seqno, hseg.placed.seqno, ← Bool.not_eq_true,
    lt_seqAt (by unfold half; omega) (by unfold half; omega),
    lt_seqAt (by unfold half; omega) (by unfold half; omega)]
  omega

lemma Stream.behind (h : Stream iss acc tx a la nx (pre ++ (seg, b) :: post))
    (hshort : extent qlen (pre ++ (seg, b) :: post) < 2 ^ 30) {y : TxSeg} (hy : y ∈ pieces post) :
    lt y.seqno seg.seqno = false ∧ lt seg.seqno y.seqno = true := by
  obtain ⟨-, hseg, hpost⟩ := h.at
  obtain ⟨x, hx, rfl⟩ := List.mem_map.1 hy
  obtain ⟨p, hp, hle, hP⟩ := hpost.exists_pos hx
  have hpos := hP.placed.nonempty
  have hpos' := hseg.placed.nonempty
  rw [extent_middle] at hshort
  rw [qlen] at hle
  rw [hP.placed.seqno, hseg.placed.seqno, ← Bool.not_eq_true,
    lt_seqAt (by unfold half; omega) (by unfold half; omega),
    lt_seqAt (by unfold half; omega) (by unfold half; omega)]
  simp only at hpos'
  omega

lemma insertUnacked_eq_place (seg : TxSeg) (l : List TxSeg) :
    insertUnacked seg l = place (fun x y => lt x.seqno y.seqno) seg l := by
  induction l with
  | nil => rfl
  | cons y l ih =>
    unfold insertUnacked place
    rw [ih]

lemma Stream.insert (h : Stream iss acc tx a la nx (pre ++ (seg, b) :: post))
    (hshort : extent qlen (pre ++ (seg, b) :: post) < 2 ^ 30) (c : Bool) :
    insertUnacked seg (part c pre ++ part c post) = part c pre ++ seg :: part c post := by
  rw [insertUnacked_eq_place]
  exact place_between (fun y hy => (h.before hshort (mem_pieces_of_part hy)).1)
    fun y hy => (h.behind hshort (mem_pieces_of_part hy)).1

lemma Stream.remark (h : Stream iss acc tx a la nx (pre ++ (seg, b) :: post)) {c : Bool} {nx' : ℕ}
    (hle : nx ≤ nx') (hsent : c = true → a + extent qlen pre + seg.tcplen ≤ nx') :
    Tiles qlen (Spot iss acc nx') a (pre ++ (seg, c) :: post) := by
  obtain ⟨hpre, hseg, hpost⟩ := h.at
  exact tiles_append.2 ⟨hpre.imp fun p x _ _ hx => hx.mono hle, ⟨hseg.placed, hsent⟩,
    hpost.imp fun p x _ _ hx => hx.mono hle⟩

/-! ### A segment leaves -/

lemma Stream.noteSent_unacked (h : Stream iss acc tx a la nx (pre ++ (seg, false) :: post))
    (hshort : extent qlen (pre ++ (seg, false) :: post) < 2 ^ 30) (rest : List TxSeg) :
    (noteSent tx seg rest).unacked = part true pre ++ seg :: part true post := by
  -- what is in flight once the first unsent segment has left
  have hun : tx.unacked = part true pre ++ part true post := by
    rw [h.unacked]
    simp
  have hne : 0 < seg.tcplen := h.at.2.1.placed.nonempty
  unfold noteSent
  dsimp only
  rw [if_neg hne.ne', hun]
  cases hlast : (part true pre ++ part true post).getLast? with
  | none =>
    obtain ⟨h1, h2⟩ := List.append_eq_nil_iff.1 (List.getLast?_eq_none_iff.1 hlast)
    rw [h1, h2]
    rfl
  | some last =>
    dsimp only
    rw [h.insert hshort true]
    cases hpost : part true post with
    | nil =>
      rw [hpost, List.append_nil] at hlast
      rw [(h.before hshort (mem_pieces_of_part (List.mem_of_getLast? hlast))).2]
      simp
    | cons y ys =>
      have hmem : last ∈ part true post := by
        rw [List.getLast?_append_of_ne_nil _ (by simp [hpost])] at hlast
        exact List.mem_of_getLast? hlast
      rw [(h.behind hshort (mem_pieces_of_part hmem)).2]
      rfl

lemma Stream.first_le (h : Stream iss acc tx a la nx (pre ++ (seg, false) :: post))
    (hpre : part false pre = []) :
    a + extent qlen pre ≤ nx := by
  -- all that comes before the first unsent segment has been sent
  rcases List.eq_nil_or_concat pre with rfl | ⟨front, x, rfl⟩
  · have := h.freed
    have := h.acked
    rw [extent_nil]
    omega
  · obtain ⟨z, c⟩ := x
    obtain ⟨hfront, -⟩ := h.at
    rw [List.concat_eq_append] at hpre hfront ⊢
    obtain ⟨-, hx⟩ := tiles_append.1 hfront
    cases c with
    | false => simp at hpre
    | true =>
      have hsent : a + extent qlen front + z.tcplen ≤ nx := hx.1.sent rfl
      rw [extent_middle, extent_nil]
      omega

lemma Stream.no_flight (h : Stream iss acc tx a la nx (pre ++ (seg, false) :: post))
    (hpre : part false pre = []) (hempty : tx.unacked = []) : pre = [] := by
  have htrue : part true pre = [] := by
    have hun := h.unacked
    rw [hempty, part_append] at hun
    exact (List.append_eq_nil_iff.1 hun.symm).1
  have hall := part_eq_pieces (b := true) hpre
  rw [htrue] at hall
  exact List.map_eq_nil_iff.1 hall.symm

lemma seqAt_max {p r : ℕ} (hp : p < r + half) (hr : r < p + half) :
    (if lt (seqAt iss p) (seqAt iss r) then seqAt iss r else seqAt iss p) =
      seqAt iss (max p r) := by
  by_cases hlt : p < r
  · rw [if_pos ((lt_seqAt hp hr).2 hlt), max_eq_right hlt.le]
  · rw [if_neg ((lt_seqAt hp hr).not.2 hlt), max_eq_left (by omega)]

end Places

lemma Stream.send (h : Stream iss acc tx a la nx q) (hshort : extent qlen q < 2 ^ 30)
    {rest : List TxSeg} (hu : tx.unsent = seg :: rest) (hw : reach tx seg ≤ tx.sndWnd) :
    ∃ p q', Stream iss acc (noteSent tx seg rest) a la (max nx (p + seg.tcplen)) q' ∧
    pieces q' = pieces q ∧
      Placed iss acc p seg ∧ p ≤ nx ∧ (tx.finQueued = false → seg.fin = false) := by
  obtain ⟨pre, post, rfl, hpre, rfl⟩ := exists_first (h.unsent ▸ hu)
  have hun := h.noteSent_unacked hshort (part false post)
  have hle := h.first_le hpre
  have hseg := h.at.2.1
  have hwithin := h.within
  have hfreed := h.freed
  have hacked := h.acked
  have hflight := h.flight
  have hwindow := h.window
  have hlen := tcplen_le seg
  rw [extent_middle] at hshort hwithin
  have hmono : nx ≤ max nx (a + extent qlen pre + seg.tcplen) := le_max_left _ _
  refine ⟨a + extent qlen pre, pre ++ (seg, true) :: post, ?_, by simp, hseg.placed, hle,
    fun hfin => ?_⟩
  · refine { h with
      unacked := by rw [hun]; simp
      unsent := by simp [noteSent, hpre]
      tiles := h.remark hmono fun _ => le_max_right _ _
      finish := by rw [extent_middle, ← extent_middle (b := false)]; exact h.finish
      sndNxt := ?_
      acked := hacked.trans hmono
      within := by rw [extent_middle]; omega
      flight := ?_ }
    · simp only [noteSent]
      rw [h.sndNxt, hseg.placed.seqno, seqAt_add]
      exact seqAt_max (by unfold half; omega) (by unfold half; omega)
    · simp only [noteSent]
      -- a segment that ends behind `lastack` cannot be the one that reaches farthest
      rcases le_total (a + extent qlen pre + seg.data.length) la with hold | hnew
      · omega
      · have hreach : reach tx seg = a + extent qlen pre + seg.data.length - la := by
          unfold reach
          rw [hseg.placed.seqno, h.lastack, sub_add_eq_add_sub, seqAt_add]
          exact off_seqAt hnew (by unfold half; omega)
        omega
  · exact h.plain hfin hseg.placed (by rw [extent_middle]; omega)

/-! ### Segments go back -/

lemma Stream.rexmit (h : Stream iss acc tx a la nx q) (hshort : extent qlen q < 2 ^ 30) :
    ∃ q', Stream iss acc (TcpOut.tcpRexmit tx) a la nx q' ∧ pieces q' = pieces q := by
  -- the first segment in flight goes back to the unsent queue
  cases hu : tx.unacked with
  | nil => exact ⟨q, by rw [TcpOut.tcpRexmit, hu]; exact h, rfl⟩
  | cons seg rest =>
    obtain ⟨pre, post, rfl, hpre, rfl⟩ := exists_first (h.unacked ▸ hu)
    have hun : tx.unsent = part false pre ++ part false post := by
      rw [h.unsent]
      simp
    refine ⟨pre ++ (seg, false) :: post, ?_, by simp⟩
    rw [TcpOut.tcpRexmit, hu]
    dsimp only
    exact { h with
      unacked := by simp [hpre]
      unsent := by rw [hun, h.insert hshort false]; simp
      tiles := h.remark le_rfl nofun
      finish := by rw [extent_middle, ← extent_middle (b := true)]; exact h.finish
      within := by rw [extent_middle, ← extent_middle (b := true)]; exact h.within }

lemma Stream.parts (h : Stream iss acc tx a la nx q) (hshort : extent qlen q < 2 ^ 30)
    (hord : InOrder tx) :
    ∃ q₁ q₂, q = q₁ ++ q₂ ∧ part false q₁ = [] ∧ part true q₂ = [] := by
  cases hlast : (part true q).getLast? with
  | none => exact ⟨[], q, rfl, rfl, List.getLast?_eq_none_iff.1 hlast⟩
  | some x =>
    obtain ⟨pre, post, rfl, hpost⟩ := exists_last hlast
    refine ⟨pre ++ [(x, true)], post, by simp, ?_, hpost⟩
    cases hpre : part false pre with
    | nil => simp [hpre]
    | cons y ys =>
      have hbefore := (h.before hshort
        (mem_pieces_of_part (b := false) (x := y) (by simp [hpre]))).2
      have hafter := hord x (h.unacked ▸ hlast) y (by simp [h.unsent, hpre])
      rw [hbefore] at hafter
      cases hafter

lemma extent_markAll (b : Bool) (q : List (TxSeg × Bool)) :
    extent qlen (markAll b q) = extent qlen q := by
  simp only [extent, markAll, List.map_map]
  rfl

lemma tiles_markAll (h : Tiles qlen (Spot iss acc nx) a q) :
    Tiles qlen (Spot iss acc nx) a (markAll false q) := by
  induction q generalizing a with
  | nil => trivial
  | cons x q ih => exact ⟨⟨h.1.placed, nofun⟩, ih h.2⟩

lemma Stream.timeout (h : Stream iss acc tx a la nx q) (hshort : extent qlen q < 2 ^ 30)
    (hord : InOrder tx) :
    Stream iss acc (TcpOut.tcpRexmitRtoPrepare tx) a la nx (markAll false q) := by
  obtain ⟨q₁, q₂, rfl, h1, h2⟩ := h.parts hshort hord
  have hall : tx.unacked ++ tx.unsent = pieces (q₁ ++ q₂) := by
    rw [h.unacked, h.unsent]
    simp [h1, h2, part_eq_pieces (b := true) h1, part_eq_pieces (b := false) h2]
  exact { h with
    unacked := by simp [TcpOut.tcpRexmitRtoPrepare]
    unsent := by simp [TcpOut.tcpRexmitRtoPrepare, hall]
    tiles := tiles_markAll h.tiles
    finish := by rw [extent_markAll]; exact h.finish
    within := by rw [extent_markAll]; exact h.within }

/-! ### Acknowledgements -/

lemma tcpFreeAckedSegments_eq (ackno : Seq) (l : List TxSeg) : (tcpFreeAckedSegments ackno l).1 =
    l.dropWhile fun seg => leq (seg.seqno + BitVec.ofNat 32 seg.tcplen) ackno := by
  induction l with
  | nil => rfl
  | cons seg l ih =>
    unfold tcpFreeAckedSegments
    rw [List.dropWhile_cons]
    split_ifs
    · exact ih
    · rfl

lemma Placed.syn_of_zero (h : Placed iss acc 0 seg) : seg.syn = true := by
  by_contra hs
  have := (h.data (by simpa using hs)).1
  omega

lemma Placed.at_zero (h : Placed iss acc 0 seg) : seg.tcplen = 1 := h.tcplen_syn h.syn_of_zero

lemma Stream.ack (h : Stream iss acc tx a la nx q) (hshort : extent qlen q < 2 ^ 30) {ackno : Seq}
    (hnew : between ackno (tx.lastack + 1) tx.sndNxt = true) :
    ∃ b p q', la < p ∧ Stream iss acc (ackNewData o tx ackno).1 b p nx q' ∧
      ∀ seg ∈ (pieces q').head?, p ≤ b + seg.data.length := by
  have hfreed := h.freed
  have hwithin := h.within
  have hacked := h.acked
  have hflight := h.flight
  rw [h.lastack, h.sndNxt] at hnew
  obtain ⟨p, rfl, hlt, hle⟩ := exists_pos_of_between hacked (by unfold half; omega) hnew
  have htest : ∀ r x, a ≤ r → r + qlen x ≤ a + extent qlen q → Spot iss acc nx r x →
      (leq (x.1.seqno + BitVec.ofNat 32 x.1.tcplen) (seqAt iss p) = true ↔ r + qlen x ≤ p) := by
    intro r x hr hrx hP
    rw [hP.placed.seqno, seqAt_add]
    exact leq_seqAt (by unfold qlen half at *; omega) (by unfold half at *; omega)
  obtain ⟨b, hab, hbp, hext, htiles, hhead⟩ := h.tiles.dropWhile htest
  have hpair := h.tiles.pairwise htest
  refine ⟨b, p, _, hlt, { h with
    unacked := ?_
    unsent := ?_
    tiles := htiles
    finish := hext.trans h.finish
    lastack := rfl
    freed := by omega
    acked := hle
    within := by omega
    synFreed := .inr ?_
    flight := by simp only [ackNewData]; omega }, fun seg hseg => ?_⟩
  · simp only [ackNewData, tcpFreeAckedSegments_eq, h.unacked]
    exact dropWhile_part hpair
  · simp only [ackNewData, tcpFreeAckedSegments_eq, h.unsent]
    exact dropWhile_part hpair
  · -- the SYN is at the head and ends at position 1, which is acknowledged
    by_contra hb
    obtain rfl : b = 0 := by omega
    generalize q.dropWhile _ = l at hext htiles hhead
    cases l with
    | nil =>
      have := h.finish
      rw [extent_nil] at hext
      omega
    | cons x l =>
      have hone := htiles.1.placed.at_zero
      have hend := hhead x rfl
      rw [qlen, hone] at hend
      omega
  · rw [pieces, List.head?_map] at hseg
    obtain ⟨x, hx, rfl⟩ := Option.map_eq_some_iff.1 hseg
    have hend := hhead x hx
    have := (tcplen_le x.1).2
    rw [qlen] at hend
    omega

lemma Stream.aligned (h : Stream iss acc tx a la nx q) (hshort : extent qlen q < 2 ^ 30)
    (hal : Aligned tx) : la ≤ a + 1 := by
  have hwithin := h.within
  have hfreed := h.freed
  have hacked := h.acked
  cases q with
  | nil =>
    rw [extent_nil] at hwithin
    omega
  | cons x q =>
    have hmem : x.1 ∈ outbound tx := by
      rw [outbound, h.unacked, h.unsent]
      exact (perm_pieces (x :: q)).mem_iff.2 (by simp)
    have hle := hal x.1 hmem
    rw [h.lastack, h.tiles.1.placed.seqno, show (1 : Seq) = BitVec.ofNat 32 1 from rfl,
      seqAt_add] at hle
    exact (leq_seqAt (by unfold half; omega) (by unfold half; omega)).1 hle

lemma Stream.newWindow (h : Stream iss acc tx a la nx q) (seg : Segment) :
    Stream iss acc (updateSndWnd tx seg) a la nx q := by
  obtain ⟨wl1, wl2, wnd, wndMax, heq, hmax, hwnd⟩ := updateSndWnd_eq tx seg
  have hflight := h.flight
  rw [heq]
  exact { h with
    window := hwnd h.window
    flight := by dsimp only; omega }

/-! ### The persist timer -/

lemma Stream.probe (h : Stream iss acc tx a la nx q) (hshort : extent qlen q < 2 ^ 30)
    {rest : List TxSeg} (hempty : tx.unacked = []) (hu : tx.unsent = seg :: rest) :
    Placed iss acc a seg ∧ (tx.finQueued = false → seg.fin = false) ∧
      Stream iss acc { tx with
        sndNxt := if lt tx.sndNxt (seg.seqno + 1) then seg.seqno + 1 else tx.sndNxt } a la
        (max nx (a + 1)) q := by
  -- a probe repeats, or sends ahead, what stands first
  obtain ⟨pre, post, rfl, hpre, rfl⟩ := exists_first (h.unsent ▸ hu)
  obtain rfl : pre = [] := h.no_flight hpre hempty
  have hseg := h.at.2.1
  have hpos : 0 < seg.tcplen := hseg.placed.nonempty
  have hwithin := h.within
  have hfreed := h.freed
  have hacked := h.acked
  have hflight := h.flight
  rw [extent_nil, Nat.add_zero] at hseg
  rw [extent_middle, extent_nil] at hshort hwithin
  have hmono : nx ≤ max nx (a + 1) := le_max_left _ _
  refine ⟨hseg.placed, fun hfin => h.plain hfin hseg.placed
    (by rw [extent_middle, extent_nil]; omega), { h with
    tiles := h.tiles.imp fun p x _ _ hx => hx.mono hmono
    sndNxt := ?_
    acked := hacked.trans hmono
    within := by rw [extent_middle, extent_nil]; omega
    flight := by dsimp only; omega }⟩
  dsimp only
  rw [h.sndNxt, hseg.placed.seqno, show (1 : Seq) = BitVec.ofNat 32 1 from rfl, seqAt_add]
  exact seqAt_max (by unfold half; omega) (by unfold half; omega)

lemma Placed.split (h : Placed iss acc pos seg) (hf : seg.fin = false) (keep : ℕ) {n : ℕ}
    (h0 : 0 < n) (hn : n < seg.data.length) :
    Placed iss acc pos (splitHead keep n seg) ∧ Placed iss acc (pos + n) (splitTail n seg) ∧
      (splitHead keep n seg).tcplen = n ∧ (splitTail n seg).tcplen = seg.tcplen - n := by
  -- the halves of a segment without a FIN lie where the segment lay
  have hs : seg.syn = false := by
    by_contra hs
    rw [(h.syn (by simpa using hs)).2.1, List.length_nil] at hn
    omega
  obtain ⟨hpos, tail, htail⟩ := h.data hs
  have hplain := tcplen_plain hs hf
  have hhead : (splitHead keep n seg).tcplen = n := by
    have hcut : (splitHead keep n seg).tcplen = (seg.data.take n).length := tcplen_plain hs hf
    rw [hcut, List.length_take]
    omega
  have hrest : (splitTail n seg).tcplen = seg.tcplen - n := by
    have hcut : (splitTail n seg).tcplen = (seg.data.drop n).length := tcplen_plain rfl hf
    rw [hcut, hplain, List.length_drop]
  refine ⟨⟨h.seqno, by omega, fun h => ?_, fun _ => ⟨hpos, ?_⟩, fun h => ?_⟩,
    ⟨?_, by omega, nofun, fun _ => ⟨by omega, ?_⟩, fun h => ?_⟩, hhead, hrest⟩
  · exact absurd (hs ▸ h) nofun
  · exact (List.take_prefix n _).trans (h.data hs).2
  · exact absurd (hf ▸ h) nofun
  · simp only [splitTail, h.seqno, seqAt_add]
  · refine ⟨tail, ?_⟩
    rw [show pos + n - 1 = pos - 1 + n by omega, ← List.drop_drop, ← htail,
      List.drop_append_of_le_length hn.le]
    rfl
  · exact absurd (hf ▸ h) nofun

lemma Stream.split (h : Stream iss acc tx a la nx q) {rest : List TxSeg} {keep n len ov : ℕ}
    (hu : tx.unsent = seg :: rest) (hf : seg.fin = false) (h0 : 0 < n) (hn : n < seg.data.length) :
    ∃ q', Stream iss acc { tx with
      unsent := splitHead keep n seg :: splitTail n seg :: rest, sndQueuelen := len,
      unsentOversize := ov }
      a la nx q' ∧ (Close a la q → Close a la q') := by
  obtain ⟨pre, post, rfl, hpre, rfl⟩ := exists_first (h.unsent ▸ hu)
  obtain ⟨htiles, hseg, hpost⟩ := h.at
  obtain ⟨hhead, htail, hlen, hlen'⟩ := hseg.placed.split hf keep h0 hn
  have hle := (tcplen_le seg).1
  have hext : extent qlen
      (pre ++ (splitHead keep n seg, false) :: (splitTail n seg, false) :: post) =
      extent qlen (pre ++ (seg, false) :: post) := by
    simp only [extent_append, extent_cons, qlen, hlen, hlen']
    omega
  refine ⟨pre ++ (splitHead keep n seg, false) :: (splitTail n seg, false) :: post, { h with
    unacked := by simpa using h.unacked
    unsent := by simp [hpre]
    tiles := tiles_append.2 ⟨htiles, ⟨hhead, nofun⟩, ⟨by rw [qlen, hlen]; exact htail, nofun⟩, ?_⟩
    finish := by rw [hext]; exact h.finish
    within := by rw [hext]; exact h.within }, fun hc => ⟨hc.le, fun x hx => ?_⟩⟩
  rotate_left
  · cases pre with
    | nil =>
      obtain rfl : splitHead keep n seg = x := Option.some.inj hx
      have := hc.le
      simp only [splitHead, List.length_take]
      omega
    | cons y pre => exact hc.head x hx
  have hpos : a + extent qlen pre + seg.tcplen = a + extent qlen pre + n + (seg.tcplen - n) := by
    omega
  rw [hpos] at hpost
  rw [qlen, qlen, hlen, hlen']
  exact hpost

/-! ### Writing and closing -/

lemma Placed.append (h : Placed iss acc pos seg) (hf : seg.fin = false) (data : Bytes) :
    Placed iss (acc ++ data) pos seg where
  seqno := h.seqno
  nonempty := h.nonempty
  syn := h.syn
  data hs := ⟨(h.data hs).1, by
    rw [List.drop_append]
    exact (h.data hs).2.trans (List.prefix_append _ _)⟩
  fin hfin := by
    rw [hf] at hfin
    cases hfin

lemma tiles_cut (nx : ℕ) {m k : ℕ} (hm : 0 < m) {segs : List TxSeg}
    (h : Cut m (seqAt iss (k + 1)) (acc.drop k) segs) (hk : k ≤ acc.length) :
    Tiles qlen (Spot iss acc nx) (k + 1) (segs.map (·, false)) ∧
      k + 1 + extent qlen (segs.map (·, false)) = acc.length + 1 := by
  -- the new segments lie end to end behind what was accepted before
  induction segs generalizing k with
  | nil =>
    have := List.drop_eq_nil_iff.1 h
    exact ⟨trivial, by simp only [List.map_nil, extent_nil]; omega⟩
  | cons seg segs ih =>
    obtain ⟨hd, hseg, hcut⟩ := h
    have hne : k < acc.length := by
      by_contra hk'
      exact hd (List.drop_eq_nil_iff.2 (by omega))
    have hlen : seg.tcplen = ((acc.drop k).take m).length := by
      rw [hseg]
      rfl
    have hpos : 0 < ((acc.drop k).take m).length := by
      rw [List.length_take, List.length_drop]
      omega
    have hle : k + ((acc.drop k).take m).length ≤ acc.length := by
      rw [List.length_take, List.length_drop]
      omega
    have hrest : (acc.drop k).drop m = acc.drop (k + ((acc.drop k).take m).length) := by
      rw [List.drop_drop, List.length_take, List.length_drop]
      rcases le_total m (acc.length - k) with hm' | hm'
      · rw [min_eq_left hm']
      · rw [min_eq_right hm', List.drop_eq_nil_iff.2 (by omega), List.drop_eq_nil_iff.2 (by omega)]
    rw [hrest, seqAt_add, Nat.add_right_comm] at hcut
    obtain ⟨htiles, hend⟩ := ih hcut hle
    rw [List.map_cons]
    refine ⟨⟨⟨⟨?_, ?_, ?_, ?_, ?_⟩, nofun⟩, ?_⟩, ?_⟩
    · rw [hseg]
    · rw [hlen]
      exact hpos
    · rw [hseg]
      exact nofun
    · rw [hseg]
      exact fun _ => ⟨by omega, List.take_prefix _ _⟩
    · rw [hseg]
      exact nofun
    · rw [qlen, hlen, Nat.add_right_comm]
      exact htiles
    · rw [extent_cons, qlen, hlen]
      omega

@[simp] lemma part_map_mark (b c : Bool) (l : List TxSeg) :
    part b (l.map (·, c)) = if c = b then l else [] := by
  have := part_markAll b c (l.map (·, c))
  simpa [markAll, pieces, Function.comp_def] using this

lemma tcplen_grow (seg : TxSeg) (more : Bytes) (n : ℕ) :
    ({ seg with data := seg.data ++ more, clen := seg.clen + n } : TxSeg).tcplen =
      seg.tcplen + more.length := by
  simp only [TxSeg.tcplen, List.length_append]
  omega

lemma Placed.grow (h : Placed iss acc pos seg) (hs : seg.syn = false) (hf : seg.fin = false)
    (hend : pos + seg.tcplen = acc.length + 1) {data more : Bytes} (hmore : more <+: data) (n : ℕ) :
    Placed iss (acc ++ data) pos { seg with data := seg.data ++ more, clen := seg.clen + n } := by
  obtain ⟨hpos, hdata⟩ := h.data hs
  rw [tcplen_plain hs hf] at hend
  have hall : seg.data = acc.drop (pos - 1) := hdata.eq_of_length (by rw [List.length_drop]; omega)
  refine ⟨h.seqno, ?_, fun h => ?_, fun _ => ⟨hpos, ?_⟩, fun h => ?_⟩
  · have := h.nonempty
    rw [tcplen_grow]
    omega
  · exact absurd (hs ▸ h) nofun
  · rw [List.drop_append_of_le_length (by omega), ← hall]
    exact List.prefix_append_right_inj _ |>.2 hmore
  · exact absurd (hf ▸ h) nofun

lemma Stream.begun (h : Stream iss acc tx a la nx q) (hla : 1 ≤ la) : 1 ≤ a :=
  h.synFreed.resolve_left (by omega)

lemma Placed.not_syn (h : Placed iss acc pos seg) (hpos : 1 ≤ pos) : seg.syn = false := by
  by_contra hs
  have := (h.syn (by simpa using hs)).1
  omega

lemma Stream.close_append (h : Stream iss acc tx a la nx q) (new : List (TxSeg × Bool))
    (hc : Close a la q) : Close a la (q ++ new) := by
  refine ⟨hc.le, fun x hx => ?_⟩
  cases q with
  | nil =>
    have hwithin := h.within
    have hacked := h.acked
    rw [extent_nil] at hwithin
    omega
  | cons y q => exact hc.head x hx

lemma close_last {pre : List (TxSeg × Bool)} (last last' : TxSeg) {b : Bool}
    (new : List (TxSeg × Bool)) (hlen : last.data.length ≤ last'.data.length)
    (hc : Close a la (pre ++ [(last, b)])) : Close a la (pre ++ (last', b) :: new) := by
  refine ⟨hc.le, fun x hx => ?_⟩
  cases pre with
  | nil =>
    obtain rfl : last' = x := Option.some.inj hx
    have := hc.head last rfl
    omega
  | cons y pre => exact hc.head x hx

lemma Stream.last (h : Stream iss acc tx a la nx q) (hshort : extent qlen q < 2 ^ 30)
    (hord : InOrder tx) (hla : 1 ≤ la) (hfin : tx.finQueued = false) {front : List TxSeg}
    (hu : tx.unsent = front ++ [seg]) :
    ∃ pre, q = pre ++ [(seg, false)] ∧ part false pre = front ∧ Tiles qlen (Spot iss acc nx) a pre ∧
      Placed iss acc (a + extent qlen pre) seg ∧ a + extent qlen pre + seg.tcplen = acc.length + 1 ∧
      seg.syn = false ∧ seg.fin = false := by
  obtain ⟨q₁, q₂, rfl, h1, h2⟩ := h.parts hshort hord
  have hun := h.unsent
  rw [part_append, h1, List.nil_append, hu] at hun
  obtain ⟨pre, post, rfl, hpost⟩ := exists_last (b := false) (q := q₂) (x := seg) (by simp [← hun])
  have hnil : post = [] := by
    have htrue : part true post = [] := by
      rw [part_append, part_true_false] at h2
      exact (List.append_eq_nil_iff.1 h2).2
    have := part_eq_pieces (b := true) hpost
    rw [htrue] at this
    exact List.map_eq_nil_iff.1 this.symm
  subst hnil
  rw [← List.append_assoc] at h
  obtain ⟨hpre, hseg, -⟩ := h.at
  have hend := h.finish
  rw [extent_middle, extent_nil, hfin] at hend
  simp only [Bool.false_eq_true, if_false, Nat.add_zero] at hend
  refine ⟨q₁ ++ pre, by simp, ?_, hpre, hseg.placed, by omega, hseg.placed.not_syn ?_,
    h.plain hfin hseg.placed (by rw [extent_middle, extent_nil]; omega)⟩
  · rw [part_append, part_same, part_nil] at hun
    rw [part_append, h1, List.nil_append]
    exact (List.append_inj_left' hun rfl).symm
  · have := h.begun hla
    omega

lemma drop_length_append (l : Bytes) {data : Bytes} {n : ℕ} :
    (l ++ data).drop (l.length + n) = data.drop n := by
  rw [← List.drop_drop, List.drop_left]

lemma Stream.write (pcb : Pcb o) (h : Stream iss acc pcb.tx a la nx q)
    (hshort : extent qlen q < 2 ^ 30) (hmss : MssOk pcb) (hord : InOrder pcb.tx) (hla : 1 ≤ la)
    (hfin : pcb.tx.finQueued = false) {data : Bytes} {n c : ℕ} {segs : List TxSeg}
    (hw : Written pcb data n c segs) (ov : ℕ) :
    ∃ q', Stream iss (acc ++ data) (writtenTx pcb data n c segs ov) a la nx q' ∧
      (Close a la q → Close a la q') := by
  -- the bytes that `tcp_write` takes go to the end of the queue
  have hfinish := h.finish
  have hwithin := h.within
  rw [hfin] at hfinish
  simp only [Bool.false_eq_true, if_false, Nat.add_zero] at hfinish
  have hcut := hw.cut
  rw [h.lbb hfin, seqAt_add, Nat.add_right_comm, ← drop_length_append acc] at hcut
  have hle : acc.length + n ≤ (acc ++ data).length := by
    rw [List.length_append]
    exact Nat.add_le_add_left hw.pos_le _
  obtain ⟨hnew, hend⟩ := tiles_cut nx (mssLocal_pos hmss) hcut hle
  have hlbb : pcb.tx.sndLbb + BitVec.ofNat 32 data.length = seqAt iss
      ((acc ++ data).length + 1) := by
    rw [h.lbb hfin, seqAt_add, List.length_append, Nat.add_right_comm]
  have hold : Tiles qlen (Spot iss (acc ++ data) nx) a q := h.tiles.imp fun p x _ hle hx =>
    ⟨hx.placed.append (h.plain hfin hx.placed hle) data, hx.sent⟩
  have hif : (if pcb.tx.finQueued = true then 1 else 0) = 0 := by simp [hfin]
  rcases growLast_eq (l := pcb.tx.unsent) (data.take n) c with ⟨hu, hg⟩ | ⟨front, last, hu, hg⟩
  · obtain ⟨rfl, rfl⟩ := hw.empty hu
    rw [Nat.add_zero, ← hfinish] at hnew hend
    refine ⟨q ++ segs.map (·, false), { h with
      unacked := by simp [writtenTx, h.unacked]
      unsent := by rw [writtenTx, hg, part_append, ← h.unsent, hu]; simp
      tiles := tiles_append.2 ⟨hold, hnew⟩
      finish := by rw [extent_append, writtenTx, hif, ← Nat.add_assoc]; exact hend
      lbb := fun _ => hlbb
      within := by rw [extent_append]; omega }, h.close_append _⟩
  · obtain ⟨pre, rfl, hpre, -, hlast, hlen, hsyn, hnofin⟩ := h.last hshort hord hla hfin hu
    have hgrow := hlast.grow hsyn hnofin hlen (List.take_prefix n data) c
    have hpos := tcplen_grow last (data.take n) c
    rw [List.length_take, min_eq_left hw.pos_le] at hpos
    have hdata : last.data.length ≤ (last.data ++ data.take n).length := by simp
    change last.data.length ≤ ({ last with
      data := last.data ++ data.take n, clen := last.clen + c } : TxSeg).data.length at hdata
    generalize ({ last with data := last.data ++ data.take n, clen := last.clen + c } : TxSeg) =
      grown at hg hgrow hpos hdata
    have hplace : a + extent qlen pre + grown.tcplen = acc.length + n + 1 := by omega
    rw [← hplace] at hnew hend
    rw [extent_middle, extent_nil] at hwithin
    refine ⟨pre ++ (grown, false) :: segs.map (·, false), { h with
      unacked := by simp [writtenTx, h.unacked]
      unsent := by rw [writtenTx, hg, part_append, part_same, hpre]; simp
      tiles := tiles_append.2 ⟨(tiles_append.1 hold).1, ⟨hgrow, (absurd · Bool.false_ne_true)⟩,
        hnew⟩
      finish := by rw [extent_middle, writtenTx, hif, ← Nat.add_assoc, ← Nat.add_assoc]; exact hend
      lbb := fun _ => hlbb
      within := by rw [extent_middle]; omega }, close_last last grown _ hdata⟩

lemma Stream.fin (pcb : Pcb o) {p : Pcb o} (h : Stream iss acc pcb.tx a la nx q)
    (hshort : extent qlen q < 2 ^ 30) (hord : InOrder pcb.tx) (hla : 1 ≤ la)
    (hfin : pcb.tx.finQueued = false) (hf : tcpSendFin pcb = (p, .ok)) :
    p.tx.finQueued = true ∧ ∃ q', Stream iss acc p.tx a la nx q' ∧
    (Close a la q → Close a la q') := by
  have hfinish := h.finish
  have hwithin := h.within
  rw [hfin] at hfinish
  simp only [Bool.false_eq_true, if_false, Nat.add_zero] at hfinish
  rcases tcpSendFin_ok hf with ⟨front, last, hu, -, -, rfl⟩ | ⟨-, rfl⟩
  · obtain ⟨pre, rfl, hpre, htiles, hlast, hlen, hsyn, hnofin⟩ := h.last hshort hord hla hfin hu
    have hplain := tcplen_plain hsyn hnofin
    have hmarked : ({ last with fin := true } : TxSeg).tcplen = last.tcplen + 1 := by
      rw [hplain]
      simp [TxSeg.tcplen]
    rw [extent_middle, extent_nil] at hwithin
    refine ⟨rfl, pre ++ [({ last with fin := true }, false)], { h with
      unacked := by simpa using h.unacked
      unsent := by simp [hpre]
      tiles := tiles_append.2 ⟨htiles,
        ⟨⟨hlast.seqno, ?_, ?_, hlast.data, fun _ => ?_⟩, (absurd · Bool.false_ne_true)⟩, trivial⟩
      finish := by rw [extent_middle, extent_nil, hmarked]; simp only [if_true]; omega
      lbb := (absurd · Bool.false_ne_true.symm)
      within := by rw [extent_middle, extent_nil, hmarked]; omega },
        close_last last { last with fin := true } [] le_rfl⟩
    · rw [hmarked]
      omega
    · exact fun hs => absurd (hsyn ▸ hs) Bool.false_ne_true
    · dsimp only
      omega
  · refine ⟨rfl, q ++ [(⟨pcb.tx.sndLbb, [], 0, 1, false, true⟩, false)], { h with
      unacked := by simpa using h.unacked
      unsent := by simp [h.unsent]
      tiles := tiles_append.2 ⟨h.tiles,
        ⟨⟨?_, by simp [TxSeg.tcplen], by simp, ?_, fun _ => ?_⟩, (absurd · Bool.false_ne_true)⟩,
        trivial⟩
      finish := by
        rw [extent_middle, extent_nil]
        simp only [if_true, TxSeg.tcplen, List.length_nil, Bool.or_false]
        omega
      lbb := (absurd · Bool.false_ne_true.symm)
      within := by rw [extent_middle, extent_nil]; omega }, h.close_append _⟩
    · rw [h.lbb hfin, hfinish]
    · exact fun _ => ⟨by omega, List.nil_prefix⟩
    · simp only [List.length_nil]
      omega

end TunForge.SendEngine
