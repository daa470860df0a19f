import TunForge.ReceiveSteps

/-! Reassembly: the queue of segments that came out of order stays sorted, and what
`tcp_receive` finds in sequence is charged to the window byte for byte. -/
namespace TunForge.Reassembly
open SerialNumber PbufChain LwipTypes TcpIn PcbFrames ReceiveSteps

variable {o : Platform} {r : Seq} {n a : ℕ} {c : RxSeg} {l : List RxSeg}

/-! ### The queue -/

/-- A segment that starts ahead of `r`, ends within `n` numbers of it, and has the length of its
payload. -/
structure SegOk (r : Seq) (n : ℕ) (c : RxSeg) : Prop where
  start : off r c.seqno < 2 ^ 16
  len : c.len = c.p.size
  small : c.len < 2 ^ 16
  text : 0 < c.tcplen
  edge : off r c.seqno + c.tcplen ≤ n

/-- The segments lie one behind the other from offset `a` on, and only the last has a FIN. -/
def Chained (r : Seq) (n : ℕ) : ℕ → List RxSeg → Prop
  | _, [] => True
  | a, c :: cs =>
    a ≤ off r c.seqno ∧ SegOk r n c ∧ (c.fin = true → cs = []) ∧
      Chained r n (off r c.seqno + c.len) cs

lemma Chained.mono {b : ℕ} (h : Chained r n a l) (hb : b ≤ a) : Chained r n b l := by
  cases l with
  | nil => trivial
  | cons c cs => exact ⟨hb.trans h.1, h.2⟩

lemma Chained.widen {m : ℕ} (h : Chained r n a l) (hm : n ≤ m) : Chained r m a l := by
  induction l generalizing a with
  | nil => trivial
  | cons c cs ih =>
    obtain ⟨h1, h2, h3, h4⟩ := h
    exact ⟨h1, ⟨h2.start, h2.len, h2.small, h2.text, h2.edge.trans hm⟩, h3, ih h4⟩

lemma Chained.tail {cs : List RxSeg} (h : Chained r n a (c :: cs)) : Chained r n a cs :=
  h.2.2.2.mono (h.1.trans (Nat.le_add_right _ _))

lemma Chained.from (h : Chained r n a l) : ∀ d ∈ l, a ≤ off r d.seqno ∧ SegOk r n d := by
  induction l generalizing a with
  | nil => exact fun d hd => (by cases hd)
  | cons c cs ih =>
    intro d hd
    rcases List.mem_cons.1 hd with rfl | hd
    · exact ⟨h.1, h.2.1⟩
    · exact ih h.tail d hd

lemma SegOk.textEnd (h : SegOk r n c) : off r c.textEnd = off r c.seqno + c.len := by
  have h1 := h.start
  have h2 := h.small
  exact off_add_nat (by omega)

lemma SegOk.cutAt (h : SegOk r n c) (seqno : Seq) (hlt : off r c.seqno < off r seqno)
    (hle : off r seqno ≤ off r c.seqno + c.len) :
    SegOk r n (RxSeg.cutAt c seqno) ∧ (RxSeg.cutAt c seqno).len = off r seqno - off r c.seqno := by
  have hsmall := h.small
  have hlen : (seqno - c.seqno).toNat % 2 ^ 16 = off r seqno - off r c.seqno := by
    rw [toNat_sub_eq hlt.le]
    exact Nat.mod_eq_of_lt (by omega)
  have hsize : (c.p.realloc (off r seqno - off r c.seqno)).size = off r seqno - off r c.seqno := by
    rw [Pbuf.size_realloc (by rw [← h.len]; exact hsmall), ← h.len]
    omega
  have hedge := h.edge
  refine ⟨⟨h.start, ?_, ?_, ?_, ?_⟩, ?_⟩
  · simp only [RxSeg.cutAt, hlen, hsize]
  · simp only [RxSeg.cutAt, hlen]
    omega
  · simp only [RxSeg.cutAt, RxSeg.tcplen, hlen]
    omega
  · simp only [RxSeg.cutAt, RxSeg.tcplen, hlen] at hedge ⊢
    omega
  · simp only [RxSeg.cutAt, hlen]

lemma RxSeg.tcplen_le (c : RxSeg) : c.len ≤ c.tcplen ∧ c.tcplen ≤ c.len + 1 := by
  unfold RxSeg.tcplen
  split_ifs <;> omega

lemma SegOk.withFin (h : SegOk r n c) (hroom : off r c.seqno + c.len + 1 ≤ n) :
    SegOk r n { c with fin := true } := by
  refine ⟨h.start, h.len, h.small, ?_, ?_⟩
  · simp [RxSeg.tcplen]
  · simp only [RxSeg.tcplen, if_true]
    omega

lemma oosDropCovered_spec (hc : SegOk r n c) (hl : Chained r n a l) (hfin : c.fin = false)
    (hroom : l.any RxSeg.fin = true → off r c.seqno + c.len + 1 ≤ n) :
    ∃ f, (oosDropCovered c l).1 = { c with fin := f } ∧ SegOk r n { c with fin := f } ∧
      Chained r n a (oosDropCovered c l).2 ∧ (f = true → (oosDropCovered c l).2 = []) ∧
      ∀ d ∈ (oosDropCovered c l).2, d ∈ l ∧ off r c.seqno + c.len < off r d.seqno + d.len := by
  -- what is left of the queue behind a segment that covers the front of it
  induction l generalizing a with
  | nil =>
    refine ⟨false, ?_, ?_, trivial, fun h => (by cases h), fun d hd => (by cases hd)⟩
    · obtain ⟨_, _, _, _⟩ := c
      subst hfin
      rfl
    · obtain ⟨_, _, _, _⟩ := c
      subst hfin
      exact hc
  | cons d cs ih =>
    obtain ⟨hd, hok, hlast, hrest⟩ := hl
    have hgeq : geq c.textEnd d.textEnd = true ↔ off r d.seqno + d.len ≤ off r c.seqno + c.len := by
      have h1 := hc.start
      have h2 := hc.small
      have h3 := hok.start
      have h4 := hok.small
      rw [geq_iff (r := r) (by rw [hc.textEnd]; unfold half; omega)
        (by rw [hok.textEnd]; unfold half; omega), hc.textEnd, hok.textEnd]
    unfold oosDropCovered
    split_ifs with hcov
    · cases hdf : d.fin with
      | true =>
        rw [hlast hdf, hfin]
        refine ⟨true, rfl, hc.withFin (hroom (by simp [hdf])), trivial, fun _ => rfl,
          fun e he => (by cases he)⟩
      | false =>
        have hsame : ({ c with fin := c.fin || false } : RxSeg) = c := by
          obtain ⟨_, _, _, _⟩ := c
          simp
        rw [hsame]
        obtain ⟨f, h1, h2, h3, h4, h5⟩ :=
          ih (hrest.mono (hd.trans (Nat.le_add_right _ _))) fun hany => hroom (by simp [hany])
        exact ⟨f, h1, h2, h3, h4, fun e he => ⟨List.mem_cons_of_mem d (h5 e he).1, (h5 e he).2⟩⟩
    · refine ⟨false, ?_, ?_, ⟨hd, hok, hlast, hrest⟩, fun h => (by cases h), ?_⟩
      · obtain ⟨_, _, _, _⟩ := c
        subst hfin
        rfl
      · obtain ⟨_, _, _, _⟩ := c
        subst hfin
        exact hc
      · intro e he
        refine ⟨he, ?_⟩
        rcases List.mem_cons.1 he with rfl | he
        · exact Nat.lt_of_not_le fun h => hcov (hgeq.2 h)
        · have hbehind := (hrest.from e he).1
          have hlt := Nat.lt_of_not_le fun h => hcov (hgeq.2 h)
          omega

/-- `tcp_oos_insert_segment` in front of segments that start later, or at the same place and end
earlier. -/
lemma tcpOosInsertSegment_chained (hc : SegOk r n c) (hl : Chained r n a l)
    (hroom : l.any RxSeg.fin = true → off r c.seqno + c.len + 1 ≤ n)
    (hafter : ∀ d ∈ l, off r c.seqno < off r d.seqno ∨
      (off r d.seqno = off r c.seqno ∧ d.len < c.len)) :
    Chained r n (off r c.seqno) (tcpOosInsertSegment c l) := by
  unfold tcpOosInsertSegment
  split_ifs with hfin
  · exact ⟨le_rfl, hc, fun _ => rfl, trivial⟩
  · obtain ⟨f, h1, h2, h3, h4, h5⟩ := oosDropCovered_spec hc hl (by simpa using hfin) hroom
    generalize oosDropCovered c l = x at h1 h3 h4 h5 ⊢
    obtain ⟨c', rest⟩ := x
    dsimp only at h1 h3 h4 h5 ⊢
    subst h1
    cases rest with
    | nil => exact ⟨le_rfl, h2, fun _ => rfl, trivial⟩
    | cons d rest =>
      obtain ⟨hmem, hend⟩ := h5 d List.mem_cons_self
      have hlt : off r c.seqno < off r d.seqno := by
        rcases hafter d hmem with h | ⟨h, h'⟩
        · exact h
        · omega
      have hf : f = false := by
        cases f with
        | false => rfl
        | true => cases h4 rfl
      subst hf
      have hd := h3.2.1
      have hgt : gt (RxSeg.textEnd { c with fin := false }) d.seqno = true ↔
        off r d.seqno < off r c.seqno + c.len := by
        have h1 := hc.start
        have h2' := hc.small
        have h3' := hd.start
        have htext := h2.textEnd
        rw [gt_iff (r := r) (by rw [htext]; unfold half; dsimp only; omega) (by unfold half; omega),
          htext]
      dsimp only
      split_ifs with hcut
      · obtain ⟨hok, hlen⟩ := h2.cutAt d.seqno hlt (hgt.1 hcut).le
        refine ⟨le_rfl, hok, fun h => (by cases h), ?_, h3.2⟩
        have hseq : (RxSeg.cutAt { c with fin := false } d.seqno).seqno = c.seqno := rfl
        rw [hlen, hseq]
        dsimp only
        omega
      · refine ⟨le_rfl, h2, fun h => (by cases h), ?_, h3.2⟩
        exact Nat.le_of_not_lt fun h => hcut (hgt.2 h)

lemma trimPrev_chained {prev : RxSeg} {seqno : Seq} {b : ℕ} (hp : SegOk r n prev)
    (hb : b ≤ off r prev.seqno) (hlt : off r prev.seqno < off r seqno) (hs : off r seqno < half)
    (hfin : prev.fin = false) (hl : Chained r n (off r seqno) l) :
    Chained r n b (trimPrev prev seqno :: l) := by
  have hgt : gt prev.textEnd seqno = true ↔ off r seqno < off r prev.seqno + prev.len := by
    have h1 := hp.start
    have h2 := hp.small
    rw [gt_iff (r := r) (by rw [hp.textEnd]; unfold half; omega) hs, hp.textEnd]
  unfold trimPrev
  split_ifs with hcut
  · obtain ⟨hok, hlen⟩ := hp.cutAt seqno hlt (hgt.1 hcut).le
    refine ⟨hb, hok, fun h => ?_, hl.mono ?_⟩
    · have : (RxSeg.cutAt prev seqno).fin = prev.fin := rfl
      rw [this, hfin] at h
      cases h
    · have hseq : (RxSeg.cutAt prev seqno).seqno = prev.seqno := rfl
      rw [hlen, hseq]
      omega
  · refine ⟨hb, hp, fun h => ?_, hl.mono ?_⟩
    · rw [hfin] at h
      cases h
    · exact Nat.le_of_not_lt fun h => hcut (hgt.2 h)

lemma trimToWindow_eq (hc : SegOk r n c) (hn : n < 2 ^ 16) :
    trimToWindow c (r + BitVec.ofNat 32 n) = c := by
  have hstart := hc.start
  have hsmall := hc.small
  have hlen := RxSeg.tcplen_le c
  have hedge : off r (r + BitVec.ofNat 32 n) = n := off_base_add (by omega)
  have hend : off r (c.seqno + BitVec.ofNat 32 c.tcplen) = off r c.seqno + c.tcplen :=
    off_add_nat (by omega)
  have hgt := gt_iff (r := r) (a := c.seqno + BitVec.ofNat 32 c.tcplen) (b := r + BitVec.ofNat 32 n)
    (by rw [hend]; unfold half; omega) (by rw [hedge]; unfold half; omega)
  rw [hend, hedge] at hgt
  unfold trimToWindow
  rw [if_neg]
  exact fun h => absurd (hgt.1 h) (Nat.not_lt.2 hc.edge)

lemma chained_behind {prev : Option RxSeg} {l' : List RxSeg} (h : Chained r n a (prev.toList ++ l))
    (hl : l ≠ []) (hl' : ∀ b, Chained r n b l → Chained r n b l') :
    Chained r n a (prev.toList ++ l') := by
  cases prev with
  | none => exact hl' a h
  | some pv =>
    obtain ⟨h1, h2, h3, h4⟩ := h
    exact ⟨h1, h2, fun hf => absurd (h3 hf) hl, hl' _ h4⟩

lemma Chained.len_pos {cs : List RxSeg} (h : Chained r n a (c :: cs)) (hcs : cs ≠ []) :
    c.fin = false ∧ 0 < c.len := by
  obtain ⟨-, hok, hlast, -⟩ := h
  have hfin : c.fin = false := by
    rw [← Bool.not_eq_true]
    exact fun hf => hcs (hlast hf)
  have htext := hok.text
  unfold RxSeg.tcplen at htext
  rw [hfin] at htext
  exact ⟨hfin, by simpa using htext⟩

/-- Where the walk stops to insert: in front of the first segment that starts later. -/
def insertsHere (inseg : RxSeg) (next : RxSeg) : Option RxSeg → Bool
  | none => lt inseg.seqno next.seqno
  | some pv => between inseg.seqno (pv.seqno + 1) (next.seqno - 1)

lemma insertsHere_iff {inseg next : RxSeg} {rest : List RxSeg} {prev : Option RxSeg}
    (hc : SegOk r n inseg) (hprev : ∀ pv ∈ prev, off r pv.seqno < off r inseg.seqno)
    (hl : Chained r n a (prev.toList ++ next :: rest)) :
    insertsHere inseg next prev = true ↔ off r inseg.seqno < off r next.seqno := by
  have hnext := (hl.from next (by simp)).2.start
  have hstart := hc.start
  cases prev with
  | none => exact lt_iff (by unfold half; omega) (by unfold half; omega)
  | some pv =>
    have hlt := hprev pv rfl
    have hpos := (Chained.len_pos hl (by simp)).2
    have hbehind := hl.2.2.2.1
    have hopen := between_open (r := r) (a := inseg.seqno) (b := pv.seqno) (c := next.seqno)
      (by unfold half; omega)
      (by unfold half; omega) (by unfold half; omega) (by omega)
    exact hopen.trans ⟨fun h => h.2, fun h => ⟨hlt, h⟩⟩

lemma oosWalk_cons (mem : Bool) (inseg next : RxSeg) (rest : List RxSeg) (edge : Seq)
    (prev : Option RxSeg) :
    oosWalk mem inseg edge prev (next :: rest) =
      if inseg.seqno = next.seqno then
        prev.toList ++
          if next.len < inseg.len ∧ rest ≠ [] ∧ mem then tcpOosInsertSegment inseg (next :: rest)
          else next :: rest
      else if insertsHere inseg next prev then
        if mem then (prev.map fun pv => trimPrev pv inseg.seqno).toList ++ tcpOosInsertSegment inseg
          (next :: rest)
        else prev.toList ++ next :: rest
      else if rest = [] ∧ gt inseg.seqno next.seqno then
        prev.toList ++ if next.fin ∨
        !mem then [next] else [trimPrev next inseg.seqno, trimToWindow inseg edge]
      else prev.toList ++ oosWalk mem inseg edge (some next) rest := by
  cases prev <;> rfl

lemma oosWalk_chained {mem : Bool} {inseg : RxSeg} {prev : Option RxSeg} (hc : SegOk r n inseg)
    (hn : n < 2 ^ 16) (hroom : (prev.toList ++ l).any RxSeg.fin = true →
      off r inseg.seqno + inseg.len + 1 ≤ n)
    (ha : a ≤ off r inseg.seqno) (hprev : ∀ pv ∈ prev, off r pv.seqno < off r inseg.seqno)
    (hl : Chained r n a (prev.toList ++ l)) :
    Chained r n a (oosWalk mem inseg (r + BitVec.ofNat 32 n) prev l) := by
  induction l generalizing prev a with
  | nil =>
    unfold oosWalk
    rwa [List.append_nil] at hl
  | cons next rest ih =>
    have hhere := insertsHere_iff hc hprev hl
    have hroom' : (next :: rest).any RxSeg.fin = true → off r inseg.seqno + inseg.len + 1 ≤ n := by
      intro h
      apply hroom
      rw [List.any_append, h, Bool.or_true]
    have hafter : off r inseg.seqno < off r next.seqno → ∀ b, Chained r n b (next :: rest) →
        Chained r n (off r inseg.seqno) (tcpOosInsertSegment inseg (next :: rest)) := by
      intro hlt b hb
      refine tcpOosInsertSegment_chained hc hb hroom' fun d hd => .inl ?_
      rcases List.mem_cons.1 hd with rfl | hd
      · exact hlt
      · have hbehind := (hb.2.2.2.from d hd).1
        omega
    rw [oosWalk_cons]
    by_cases heq : inseg.seqno = next.seqno
    · -- a segment with the same start is replaced by a longer one
      rw [if_pos heq]
      refine chained_behind hl (by simp) fun b hb => ?_
      split_ifs with hins
      · refine (tcpOosInsertSegment_chained hc hb hroom' ?_).mono (heq ▸ hb.1)
        intro d hd
        rcases List.mem_cons.1 hd with rfl | hd
        · exact .inr ⟨by rw [heq], hins.1⟩
        · have hpos := (hb.len_pos hins.2.1).2
          have hbehind := (hb.2.2.2.from d hd).1
          rw [heq]
          exact .inl (by omega)
      · exact hb
    · rw [if_neg heq]
      by_cases hstop : insertsHere inseg next prev = true
      · rw [if_pos hstop]
        cases mem with
        | false => exact hl
        | true =>
          cases prev with
          | none => exact (hafter (hhere.1 hstop) a hl).mono ha
          | some pv =>
            have hstart := hc.start
            exact trimPrev_chained hl.2.1 hl.1 (hprev pv rfl) (by unfold half; omega)
              (hl.len_pos (by simp)).1
              (hafter (hhere.1 hstop) _ hl.2.2.2)
      · have hne : off r inseg.seqno ≠ off r next.seqno := fun h => heq (off_inj h)
        have hge : ¬ off r inseg.seqno < off r next.seqno := fun h => hstop (hhere.2 h)
        rw [if_neg hstop]
        by_cases hlast : rest = [] ∧ gt inseg.seqno next.seqno = true
        · -- behind the last segment, unless that has the FIN
          rw [if_pos hlast]
          obtain ⟨rfl, -⟩ := hlast
          refine chained_behind hl (by simp) fun b hb => ?_
          split_ifs with hkeep
          · exact hb
          · rw [not_or, Bool.not_eq_true] at hkeep
            have hstart := hc.start
            rw [trimToWindow_eq hc hn]
            exact trimPrev_chained hb.2.1 hb.1 (by omega) (by unfold half; omega) hkeep.1
              ⟨le_rfl, hc, fun _ => rfl, trivial⟩
        · rw [if_neg hlast]
          refine chained_behind hl (by simp) fun b hb => ?_
          have hle := hb.1
          refine @ih b (some next) hroom' (by omega) (fun pv hpv => ?_) hb
          cases hpv
          omega

lemma queueOutOfSequence_chained {mem : Bool} {inseg : RxSeg} (hc : SegOk r n inseg)
    (hn : n < 2 ^ 16) (hroom : l.any RxSeg.fin = true → off r inseg.seqno + inseg.len + 1 ≤ n)
    (ha : a ≤ off r inseg.seqno) (hl : Chained r n a l) :
    Chained r n a (queueOutOfSequence mem inseg (r + BitVec.ofNat 32 n) l) := by
  unfold queueOutOfSequence
  cases l with
  | nil =>
    cases mem with
    | false => trivial
    | true => exact ⟨ha, hc, fun _ => rfl, trivial⟩
  | cons next rest => exact oosWalk_chained hc hn hroom ha (fun pv hpv => (by cases hpv)) hl

/-! ### In sequence -/

def queued (l : List RxSeg) : ℕ := (l.map RxSeg.tcplen).sum

def dataSize (d : Option Pbuf) : ℕ := d.elim 0 Pbuf.size

lemma Chained.rebase {m : ℕ} (h : Chained r n a l) (hm : m ≤ a) (hn : m ≤ n) :
    Chained (r + BitVec.ofNat 32 m) (n - m) (a - m) l := by
  -- when `m` more numbers have been received, the queue begins `m` numbers earlier
  induction l generalizing a with
  | nil => trivial
  | cons c cs ih =>
    obtain ⟨h1, h2, h3, h4⟩ := h
    have hoff : off (r + BitVec.ofNat 32 m) c.seqno = off r c.seqno - m := off_shift (by omega)
    have hstart := h2.start
    have hedge := h2.edge
    refine ⟨?_, ⟨?_, h2.len, h2.small, h2.text, ?_⟩, h3, ?_⟩
    · rw [hoff]
      omega
    · rw [hoff]
      omega
    · rw [hoff]
      omega
    · have hrest := ih h4 (by omega)
      rw [hoff, show off r c.seqno - m + c.len = off r c.seqno + c.len - m by omega]
      exact hrest

lemma dropCovered_eq (hfin : c.fin = false) (hl : Chained r n a l) :
    dropCovered c l = oosDropCovered c l := by
  -- a segment in sequence covers what a queued segment in its place would cover
  induction l generalizing a with
  | nil => rfl
  | cons d cs ih =>
    have hend : c.seqno + BitVec.ofNat 32 c.tcplen = c.textEnd := by
      simp [RxSeg.tcplen, RxSeg.textEnd, hfin]
    unfold dropCovered oosDropCovered
    rw [hend]
    split_ifs
    · cases hd : d.fin with
      | true =>
        rw [hl.2.2.1 hd]
        rfl
      | false =>
        rw [Bool.or_false]
        exact ih hl.tail
    · rfl

lemma queued_oosDropCovered (c : RxSeg) (l : List RxSeg) :
    (oosDropCovered c l).1.tcplen + queued (oosDropCovered c l).2 ≤ c.tcplen + queued l := by
  induction l generalizing c with
  | nil => exact le_rfl
  | cons d cs ih =>
    have hcons : queued (d :: cs) = d.tcplen + queued cs := rfl
    unfold oosDropCovered
    split_ifs
    · have htake : RxSeg.tcplen { c with fin := c.fin || d.fin } ≤ c.tcplen + d.tcplen := by
        unfold RxSeg.tcplen
        cases c.fin <;> cases d.fin <;> simp
      have hrest := ih { c with fin := c.fin || d.fin }
      omega
    · exact le_rfl

lemma adjustOoseq_spec (hc : SegOk r n c) (hseq : c.seqno = r) (hl : Chained r n 1 l)
    (hroom : l.any RxSeg.fin = true → c.len + 1 ≤ n) :
    SegOk r n (adjustOoseq c l).1 ∧ (adjustOoseq c l).1.seqno = r ∧
      ((adjustOoseq c l).1.fin = true → (adjustOoseq c l).2 = []) ∧
      Chained r n (adjustOoseq c l).1.len (adjustOoseq c l).2 ∧
      (adjustOoseq c l).1.tcplen + queued (adjustOoseq c l).2 ≤ c.tcplen + queued l := by
  have hzero : off r c.seqno = 0 := by rw [hseq, off_self]
  unfold adjustOoseq
  split_ifs with hfin
  · exact ⟨hc, hseq, fun _ => rfl, trivial, Nat.add_le_add_left (Nat.zero_le _) _⟩
  · rw [Bool.not_eq_true] at hfin
    rw [dropCovered_eq hfin hl]
    have hsum := queued_oosDropCovered c l
    obtain ⟨f, h1, h2, h3, h4, h5⟩ :=
      oosDropCovered_spec hc hl hfin (by rw [hzero]; simpa using hroom)
    generalize oosDropCovered c l = x at h1 h3 h4 h5 hsum ⊢
    obtain ⟨c', rest⟩ := x
    dsimp only at h1 h3 h4 h5 hsum ⊢
    subst h1
    cases rest with
    | nil => exact ⟨h2, hseq, fun _ => rfl, trivial, hsum⟩
    | cons d rest =>
      have hf : f = false := by
        cases f with
        | false => rfl
        | true => cases h4 rfl
      subst hf
      have hstart := h3.2.1.start
      have hsmall := hc.small
      have hlen : RxSeg.tcplen { c with fin := false } = c.len := by simp [RxSeg.tcplen]
      have hend : off r (c.seqno + BitVec.ofNat 32 c.len) = c.len := by
        rw [hseq]
        exact off_base_add (by omega)
      have hgt := gt_iff (r := r) (a := c.seqno + BitVec.ofNat 32 c.len) (b := d.seqno)
        (by rw [hend]; unfold half; omega) (by unfold half; omega)
      rw [hend] at hgt
      dsimp only
      rw [hlen] at hsum ⊢
      split_ifs with hcut
      · have hlt := hgt.1 hcut
        obtain ⟨hok, hcutlen⟩ :=
          h2.cutAt d.seqno (by rw [hzero]; exact h3.1) (by rw [hzero]; dsimp only; omega)
        have hcuttcp : (RxSeg.cutAt { c with fin := false } d.seqno).tcplen = off r d.seqno := by
          have hnofin : (RxSeg.cutAt { c with fin := false } d.seqno).fin = false := rfl
          rw [RxSeg.tcplen, hnofin, hcutlen, hzero]
          simp
        refine ⟨hok, hseq, fun h => (by cases h), ?_, ?_⟩
        · rw [hcutlen, hzero]
          exact ⟨Nat.sub_le _ _, h3.2⟩
        · rw [hcuttcp]
          dsimp only
          omega
      · refine ⟨h2, hseq, fun h => (by cases h), ⟨?_, h3.2⟩, by rw [hlen]; exact hsum⟩
        exact Nat.le_of_not_lt fun h => hcut (hgt.2 h)

lemma wndSub_eq {o : Platform} {w m : ℕ} (hw : w < o.wndMod) (hm : m ≤ w) :
    wndSub o w m = w - m := by
  unfold wndSub
  rw [Nat.mod_eq_of_lt (a := m) (by omega), show w + (o.wndMod - m) = w - m + o.wndMod by omega,
    Nat.add_mod_right]
  exact Nat.mod_eq_of_lt (by omega)

lemma takeInSequence_eq (mss : ℕ) (rx : Rx) (seg : RxSeg) (hw : rx.rcvWnd < o.wndMod)
    (hm : seg.tcplen ≤ rx.rcvWnd) :
    inboxOf (takeInSequence o mss rx seg) =
      { inboxOf rx with
        rcvNxt := rx.rcvNxt + BitVec.ofNat 32 seg.tcplen, rcvWnd := rx.rcvWnd - seg.tcplen } := by
  obtain ⟨w, heq⟩ := tcpUpdateRcvAnnWnd_eq (o := o) mss { rx with
    rcvNxt := rx.rcvNxt + BitVec.ofNat 32 seg.tcplen
    rcvWnd := rx.rcvWnd - seg.tcplen }
  unfold takeInSequence
  rw [wndSub_eq hw hm, heq]
  rfl

lemma dataSize_chainData (d : Option Pbuf) {p : Pbuf} (hp : p.size < 2 ^ 16) :
    dataSize (chainData d p) = dataSize d + p.size := by
  unfold chainData
  rw [Pbuf.totLen_eq hp]
  split_ifs with hpos
  · cases d with
    | none => simp [dataSize]
    | some q => simp [dataSize]
  · rw [show p.size = 0 by omega, Nat.add_zero]

/-- What has been put in sequence: `m` numbers from `r` on, each of them charged to a window of `n`
and either a byte of the data or the FIN. -/
structure Assembled (r : Seq) (n m : ℕ) (st : InSeq) : Prop where
  nxt : st.rx.rcvNxt = r + BitVec.ofNat 32 m
  wnd : st.rx.rcvWnd + m = n
  data : dataSize st.recvData + st.gotFin.toNat = m

lemma Assembled.take {m : ℕ} {st : InSeq} (h : Assembled r n m st) (mss : ℕ) (hn : n < o.wndMod)
    (hgot : st.gotFin = false) (hseq : c.seqno = st.rx.rcvNxt)
    (hok : SegOk st.rx.rcvNxt st.rx.rcvWnd c) (hlast : c.fin = true → l = [])
    (hl : Chained st.rx.rcvNxt st.rx.rcvWnd c.len l) (f : Bool) :
    Assembled r n (m + c.tcplen) ⟨takeInSequence o mss st.rx c, chainData st.recvData c.p,
      st.gotFin || c.fin, f⟩ ∧
      Chained (takeInSequence o mss st.rx c).rcvNxt (takeInSequence o mss st.rx c).rcvWnd 0 l := by
  have hzero : off st.rx.rcvNxt c.seqno = 0 := off_eq_zero.2 hseq
  have hedge := hok.edge
  have hwnd := h.wnd
  have hdata := h.data
  have hsize := hok.len
  have htake := takeInSequence_eq (o := o) mss st.rx c (by omega) (by omega)
  have hnxt : (takeInSequence o mss st.rx c).rcvNxt = st.rx.rcvNxt + BitVec.ofNat 32 c.tcplen :=
    congrArg Inbox.rcvNxt htake
  have hrcv : (takeInSequence o mss st.rx c).rcvWnd = st.rx.rcvWnd - c.tcplen :=
    congrArg Inbox.rcvWnd htake
  refine ⟨⟨?_, ?_, ?_⟩, ?_⟩
  · dsimp only
    rw [hnxt, h.nxt, BitVec.add_assoc, ← BitVec.ofNat_add]
  · dsimp only
    rw [hrcv]
    omega
  · dsimp only
    rw [dataSize_chainData _ (hsize ▸ hok.small), hgot, Bool.false_or, RxSeg.tcplen, hsize]
    rw [hgot] at hdata
    cases c.fin <;> simp at hdata ⊢ <;> omega
  · rw [hnxt, hrcv]
    cases hf : c.fin with
    | true =>
      rw [hlast hf]
      trivial
    | false =>
      have hlen : c.tcplen = c.len := by simp [RxSeg.tcplen, hf]
      exact (hl.rebase (m := c.tcplen) (by omega) (by omega)).mono (Nat.zero_le _)

lemma drainOoseq_spec {m : ℕ} {st : InSeq} (mss : ℕ) (h : Assembled r n m st) (hn : n < o.wndMod)
    (hfin : st.gotFin = true → l = []) (hl : Chained st.rx.rcvNxt st.rx.rcvWnd 0 l) :
    ∃ m', Assembled r n m' (drainOoseq o mss st l) ∧
      Chained (drainOoseq o mss st l).rx.rcvNxt (drainOoseq o mss st l).rx.rcvWnd 1
        (drainOoseq o mss st l).rx.ooseq ∧
      m' + queued (drainOoseq o mss st l).rx.ooseq ≤ m + queued l := by
  induction l generalizing st m with
  | nil => exact ⟨m, ⟨h.nxt, h.wnd, h.data⟩, trivial, le_rfl⟩
  | cons c cs ih =>
    unfold drainOoseq
    split_ifs with hseq
    · obtain ⟨-, hok, hlast, hrest⟩ := hl
      have hgot : st.gotFin = false := by
        rw [← Bool.not_eq_true]
        exact fun hf => (by cases hfin hf)
      obtain ⟨hstep, hleft⟩ := h.take mss hn hgot hseq hok hlast (hrest.mono (Nat.le_add_left _ _))
        (st.queuedFin || c.fin)
      obtain ⟨m', h1, h2, h3⟩ := ih hstep (by simpa [hgot] using hlast) hleft
      refine ⟨m', h1, h2, h3.trans ?_⟩
      rw [show queued (c :: cs) = c.tcplen + queued cs from rfl]
      omega
    · refine ⟨m, ⟨h.nxt, h.wnd, h.data⟩, ⟨?_, hl.2⟩, le_rfl⟩
      rw [Nat.one_le_iff_ne_zero]
      exact fun h0 => hseq (off_eq_zero.1 h0)

lemma cutToRcvWnd_spec {w : ℕ} (hw : 0 < w) (hw' : w < 2 ^ 16) (hseq : c.seqno = r)
    (hlen : c.len = c.p.size) (hsmall : c.len < 2 ^ 16) (htext : 0 < c.tcplen) :
    SegOk r w (cutToRcvWnd w c) ∧ (cutToRcvWnd w c).seqno = r ∧ (cutToRcvWnd w c).len ≤ c.len ∧
      (cutToRcvWnd w c).tcplen ≤ c.tcplen := by
  have hzero : off r c.seqno = 0 := by rw [hseq, off_self]
  have hle := RxSeg.tcplen_le c
  unfold cutToRcvWnd
  split_ifs with hcut
  · have hsize : (c.p.realloc w).size = w := by
      rw [Pbuf.size_realloc (by omega)]
      omega
    dsimp only
    rw [Nat.mod_eq_of_lt hw']
    refine ⟨⟨?_, ?_, ?_, ?_, ?_⟩, hseq, ?_, ?_⟩
    · rw [hzero]
      omega
    · exact hsize.symm
    · exact hw'
    · simpa [RxSeg.tcplen] using hw
    · simp [RxSeg.tcplen, hzero]
    · omega
    · simp only [RxSeg.tcplen, Bool.false_eq_true, if_false]
      omega
  · refine ⟨⟨?_, hlen, hsmall, htext, ?_⟩, hseq, le_rfl, le_rfl⟩
    · rw [hzero]
      omega
    · rw [hzero]
      omega

lemma receiveInSequence_spec {rx : Rx} (mss : ℕ) (hw : 0 < rx.rcvWnd) (hw' : rx.rcvWnd < 2 ^ 16)
    (hmod : rx.rcvWnd < o.wndMod) (hseq : c.seqno = rx.rcvNxt) (hlen : c.len = c.p.size)
    (hsmall : c.len < 2 ^ 16) (htext : 0 < c.tcplen) (hl : Chained rx.rcvNxt rx.rcvWnd 1 rx.ooseq)
    (hroom : rx.ooseq.any RxSeg.fin = true → c.len + 1 ≤ rx.rcvWnd) :
    ∃ m, Assembled rx.rcvNxt rx.rcvWnd m (receiveInSequence o mss rx c) ∧
      Chained (receiveInSequence o mss rx c).rx.rcvNxt (receiveInSequence o mss rx c).rx.rcvWnd 1
        (receiveInSequence o mss rx c).rx.ooseq ∧
      m + queued (receiveInSequence o mss rx c).rx.ooseq ≤ c.tcplen + queued rx.ooseq := by
  -- what the in-sequence branch of `tcp_receive` finds
  obtain ⟨h1, h2, h3, h4⟩ := cutToRcvWnd_spec hw hw' hseq hlen hsmall htext
  obtain ⟨g1, g2, g3, g4, g5⟩ :=
    adjustOoseq_spec h1 h2 hl fun h => Nat.le_trans (Nat.succ_le_succ h3) (hroom h)
  have hfit : (if rx.ooseq = [] then (cutToRcvWnd rx.rcvWnd c, [])
      else adjustOoseq (cutToRcvWnd rx.rcvWnd c) rx.ooseq) =
      adjustOoseq (cutToRcvWnd rx.rcvWnd c) rx.ooseq := by
    split_ifs with hnil
    · rw [hnil]
      simp [adjustOoseq, dropCovered]
    · rfl
  unfold receiveInSequence
  dsimp only
  rw [hfit]
  generalize adjustOoseq (cutToRcvWnd rx.rcvWnd c) rx.ooseq = x at g1 g2 g3 g4 g5 ⊢
  obtain ⟨d, l⟩ := x
  dsimp only at g1 g2 g3 g4 g5 ⊢
  have hbegin : Assembled rx.rcvNxt rx.rcvWnd 0 ⟨rx, none, false, false⟩ :=
    ⟨(BitVec.add_zero _).symm, rfl, rfl⟩
  obtain ⟨hfirst, hleft⟩ := hbegin.take mss hmod rfl g2 g1 g3 g4 false
  obtain ⟨m, h1, h2, h3⟩ := drainOoseq_spec mss hfirst hmod g3 hleft
  refine ⟨m, h1, h2, h3.trans ?_⟩
  omega

/-! ### Arrivals -/

/-- The segment, as far as it is new, ends inside the window unless it is in sequence, and has no
text behind a FIN that is queued already. -/
def Orderly (b : Inbox) (seg : Segment) : Prop :=
  off b.rcvNxt (trimFirstEdge b.rcvNxt seg).seqno < half →
    ((trimFirstEdge b.rcvNxt seg).seqno = b.rcvNxt ∨
      off b.rcvNxt (trimFirstEdge b.rcvNxt seg).seqno + (trimFirstEdge b.rcvNxt seg).tcplen ≤
        b.rcvWnd) ∧
    ∀ d ∈ b.ooseq, d.fin = true →
      off b.rcvNxt (trimFirstEdge b.rcvNxt seg).seqno + (trimFirstEdge b.rcvNxt seg).len ≤
        off b.rcvNxt d.seqno + d.len

instance (b : Inbox) (seg : Segment) : Decidable (Orderly b seg) :=
  inferInstanceAs (Decidable (_ → _))

/-- The window is no larger than it should be, and the queue is sorted and inside it. -/
structure Boxed (o : Platform) (b : Inbox) : Prop where
  wnd : b.rcvWnd ≤ o.tcpWnd
  queue : Chained b.rcvNxt b.rcvWnd 1 b.ooseq

lemma Boxed.grow {b : Inbox} {w : ℕ} (h : Boxed o b) (hw : b.rcvWnd ≤ w) (hw' : w ≤ o.tcpWnd) :
    Boxed o { b with rcvWnd := w } := ⟨hw', h.queue.widen hw⟩

lemma Boxed.empty {b : Inbox} (h : Boxed o b) (r : Option Refused) :
    Boxed o { b with ooseq := [], refusedData := r } :=
  ⟨h.wnd, trivial⟩

lemma Orderly.grow {b b' : Inbox} {seg : Segment} (h : Orderly b seg) (hn : b'.rcvNxt = b.rcvNxt)
    (hq : b'.ooseq = b.ooseq) (hw : b.rcvWnd ≤ b'.rcvWnd) : Orderly b' seg := by
  unfold Orderly at h ⊢
  rw [hn, hq]
  intro hoff
  obtain ⟨h1, h2⟩ := h hoff
  exact ⟨h1.imp_right fun h => h.trans hw, h2⟩

lemma trimFirstEdge_spec {seg : Segment} (htext : 0 < seg.tcplen) (hsyn : seg.syn = false) :
    (trimFirstEdge r seg).len = (trimFirstEdge r seg).p.size ∧ (trimFirstEdge r seg).len < 2 ^ 16 ∧
      0 < (trimFirstEdge r seg).tcplen ∧ (trimFirstEdge r seg).tcplen ≤ seg.tcplen := by
  have hfits := seg.fits
  have htcp : seg.tcplen = seg.p.size + if seg.fin then 1 else 0 := by simp [Segment.tcplen, hsyn]
  have hone : (if seg.fin then 1 else 0) ≤ 1 := by split_ifs <;> omega
  have hin := between_inside (r := r) (a := seg.seqno) htext (by unfold half; omega)
  unfold trimFirstEdge
  dsimp only
  split_ifs with hover
  · obtain ⟨hpos, hlt⟩ := hin.1 hover
    unfold off at hpos hlt
    rw [Nat.mod_eq_of_lt (a := (r - seg.seqno).toNat) (by omega)]
    generalize (r - seg.seqno).toNat = k at hpos hlt
    have hlen : (seg.p.size + (2 ^ 16 - k)) % 2 ^ 16 = seg.p.size - k := by omega
    rw [hlen]
    refine ⟨?_, ?_, ?_, ?_⟩
    · rw [Pbuf.size_trimFront]
    · dsimp only
      omega
    · dsimp only [RxSeg.tcplen]
      omega
    · dsimp only [RxSeg.tcplen]
      omega
  · refine ⟨rfl, ?_, ?_, ?_⟩
    · dsimp only
      omega
    · dsimp only [RxSeg.tcplen]
      omega
    · dsimp only [RxSeg.tcplen]
      omega

lemma Orderly.room {b : Inbox} {seg : Segment} (h : Orderly b seg) (hb : Boxed o b)
    (hoff : off b.rcvNxt (trimFirstEdge b.rcvNxt seg).seqno < half)
    (hfin : b.ooseq.any RxSeg.fin = true) :
    off b.rcvNxt (trimFirstEdge b.rcvNxt seg).seqno + (trimFirstEdge b.rcvNxt seg).len + 1 ≤
      b.rcvWnd := by
  obtain ⟨d, hd, hdf⟩ := List.any_eq_true.1 hfin
  have hle := (h hoff).2 d hd hdf
  have hedge := (hb.queue.from d hd).2.edge
  rw [RxSeg.tcplen, if_pos hdf] at hedge
  omega

lemma arrival_off_lt {b : Inbox} {seg : Segment} (h : Arrival b seg) (hw : b.rcvWnd ≤ o.tcpWnd) :
    off b.rcvNxt (trimFirstEdge b.rcvNxt seg).seqno < b.rcvWnd ∧ b.rcvWnd < 2 ^ 16 := by
  have hmax := tcpWnd_le o
  exact ⟨(between_window (by unfold half; omega)).1 h.window, by omega⟩

lemma assembled_of_inSequence {b : Inbox} {seg : Segment} {x : InSeq} (h : InSequence o b seg x)
    (hb : Boxed o b) (ho : Orderly b seg) :
    ∃ m, Assembled b.rcvNxt b.rcvWnd m x ∧ Boxed o (inboxOf x.rx) ∧
      m + queued x.rx.ooseq ≤ seg.tcplen + queued b.ooseq := by
  obtain ⟨harr, hseq, mss, rx, rfl, rfl⟩ := h
  obtain ⟨hoff, hw⟩ := arrival_off_lt harr hb.wnd
  obtain ⟨hlen, hsmall, htext, hle⟩ := trimFirstEdge_spec (r := rx.rcvNxt) harr.text harr.syn
  have hmod := tcpWnd_lt_wndMod o
  have hmax := hb.wnd
  have hzero : off rx.rcvNxt (trimFirstEdge rx.rcvNxt seg).seqno = 0 := off_eq_zero.2 hseq.symm
  have hroom : rx.ooseq.any RxSeg.fin = true →
      (trimFirstEdge rx.rcvNxt seg).len + 1 ≤ rx.rcvWnd := by
    intro hfin
    have := ho.room hb (by unfold half; omega) hfin
    dsimp only [inboxOf] at this
    omega
  obtain ⟨m, h1, h2, h3⟩ := receiveInSequence_spec mss (Nat.zero_lt_of_lt hoff) hw
    (Nat.lt_of_le_of_lt hmax hmod)
    hseq.symm hlen hsmall htext hb.queue hroom
  refine ⟨m, h1, ⟨?_, h2⟩, h3.trans (Nat.add_le_add_right hle _)⟩
  have hwnd := h1.wnd
  dsimp only [inboxOf] at hmax hwnd ⊢
  omega

lemma boxed_of_outOfSequence {b : Inbox} {seg : Segment} {q : List RxSeg}
    (h : OutOfSequence b seg q) (hb : Boxed o b) (ho : Orderly b seg) :
    Boxed o { b with ooseq := q } := by
  obtain ⟨harr, hseq, mem, rfl⟩ := h
  obtain ⟨hoff, hw⟩ := arrival_off_lt harr hb.wnd
  obtain ⟨hlen, hsmall, htext, -⟩ := trimFirstEdge_spec (r := b.rcvNxt) harr.text harr.syn
  have hhalf : off b.rcvNxt (trimFirstEdge b.rcvNxt seg).seqno < half := by
    unfold half
    omega
  have hedge := (ho hhalf).1.resolve_left hseq.symm
  refine ⟨hb.wnd, queueOutOfSequence_chained ⟨?_, hlen, hsmall, htext, hedge⟩ hw
    (ho.room hb hhalf) ?_ hb.queue⟩
  · dsimp only
    omega
  · rw [Nat.one_le_iff_ne_zero]
    exact fun h0 => hseq (off_eq_zero.1 h0).symm

end TunForge.Reassembly
