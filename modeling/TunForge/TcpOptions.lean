import TunForge.StackRuns

/-! The options of a TCP header, byte by byte: `tcp_parseopt` reads them from the memory in which
the segment lies. What it makes of them is what `TcpIn.tcpParseopt` makes of a segment whose options
have been read. -/
namespace TunForge.TcpOptions
open SerialNumber PbufChain LwipTypes TcpIn Tcp
open StackRuns (openingSyn calmEnv)

variable {o : Platform}

/-! ### The source -/

/-- Where `tcp_input` has left the options: the memory behind the fixed part of the header, and that
of the second pbuf if they go on there. -/
structure OptMemory where
  tcphdrOptlen : ℕ
  tcphdrOpt1len : ℕ
  opts : ℕ → UInt8
  tcphdrOpt2 : Option (ℕ → UInt8)

/-- `tcp_get_next_optbyte` for an index. -/
def tcpGetNextOptbyte (m : OptMemory) (optidx : ℕ) : UInt8 :=
  match m.tcphdrOpt2 with
  | none => m.opts optidx
  | some opt2 =>
    if optidx < m.tcphdrOpt1len then m.opts optidx else opt2 ((optidx - m.tcphdrOpt1len) % 256)

/-- What an MSS option does. -/
def takeMss (mss : ℕ) (pcb : Pcb o) : Pcb o :=
  { pcb with mss := if tcpMss < mss ∨ mss = 0 then tcpMss else mss }

/-- What a window scale option does in a segment with or without a SYN. -/
def takeWndScale (syn : Bool) (data : ℕ) (pcb : Pcb o) : Pcb o :=
  if syn && !pcb.wndScale then
    { pcb with
      wndScale := true
      tx := { pcb.tx with sndScale := min data 14 }
      rx := { pcb.rx with rcvWnd := o.tcpWnd, rcvAnnWnd := o.tcpWnd } }
  else pcb

/-- The loop of `tcp_parseopt`, and the indices at which it has read. -/
def parseoptLoop (m : OptMemory) (syn : Bool) (tcpOptidx : ℕ) (pcb : Pcb o) (reads : List ℕ) :
    Pcb o × List ℕ :=
  if tcpOptidx < m.tcphdrOptlen then
    let opt := tcpGetNextOptbyte m tcpOptidx
    if opt = 0 then (pcb, reads ++ [tcpOptidx])
    else if opt = 1 then parseoptLoop m syn (tcpOptidx + 1) pcb (reads ++ [tcpOptidx])
    else if opt = 2 then
      if tcpGetNextOptbyte m (tcpOptidx + 1) ≠ 4 ∨ m.tcphdrOptlen < tcpOptidx + 4 then
        (pcb, reads ++ [tcpOptidx, tcpOptidx + 1])
      else
        let mss := (tcpGetNextOptbyte m (tcpOptidx + 2)).toNat * 256 +
          (tcpGetNextOptbyte m (tcpOptidx + 3)).toNat
        parseoptLoop m syn (tcpOptidx + 4) (takeMss mss pcb)
          (reads ++ [tcpOptidx, tcpOptidx + 1, tcpOptidx + 2, tcpOptidx + 3])
    else if opt = 3 ∧ o.lwipWndScale = true then
      if tcpGetNextOptbyte m (tcpOptidx + 1) ≠ 3 ∨ m.tcphdrOptlen < tcpOptidx + 3 then
        (pcb, reads ++ [tcpOptidx, tcpOptidx + 1])
      else
        let data := (tcpGetNextOptbyte m (tcpOptidx + 2)).toNat
        parseoptLoop m syn (tcpOptidx + 3) (takeWndScale syn data pcb)
          (reads ++ [tcpOptidx, tcpOptidx + 1, tcpOptidx + 2])
    else
      let data := (tcpGetNextOptbyte m (tcpOptidx + 1)).toNat
      if data < 2 then (pcb, reads ++ [tcpOptidx, tcpOptidx + 1])
      else parseoptLoop m syn (tcpOptidx + 2 + (data - 2)) pcb (reads ++ [tcpOptidx, tcpOptidx + 1])
  else (pcb, reads)
termination_by m.tcphdrOptlen - tcpOptidx

def tcpParseopt (m : OptMemory) (syn : Bool) (pcb : Pcb o) : Pcb o × List ℕ :=
  parseoptLoop m syn 0 pcb []

/-! ### The options as a byte string -/

/-- The maximum segment size and the window scale that a string of options announces: of several the
last and the first. A malformed option ends the string. -/
def decode (o : Platform) : Bytes → Option ℕ × Option ℕ
  | [] => (none, none)
  | kind :: rest =>
    if kind = 0 then (none, none)
    else if kind = 1 then decode o rest
    else if kind = 2 then
      match rest with
      | len :: high :: low :: rest =>
        if len = 4 then
          let (mss, scale) := decode o rest
          (mss.or (some (high.toNat * 256 + low.toNat)), scale)
        else (none, none)
      | _ => (none, none)
    else if kind = 3 ∧ o.lwipWndScale = true then
      match rest with
      | len :: data :: rest =>
        if len = 3 then ((decode o rest).1, some data.toNat) else (none, none)
      | _ => (none, none)
    else
      match rest with
      | len :: rest => if len.toNat < 2 then (none, none) else decode o (rest.drop (len.toNat - 2))
      | [] => (none, none)
termination_by bs => bs.length
decreasing_by
  all_goals simp_wf
  all_goals omega

/-- The bytes that are options. -/
def options (m : OptMemory) : Bytes := (List.range m.tcphdrOptlen).map (tcpGetNextOptbyte m)

lemma length_options (m : OptMemory) : (options m).length = m.tcphdrOptlen := by simp [options]

lemma drop_options {m : OptMemory} {i : ℕ} (h : i < m.tcphdrOptlen) :
    (options m).drop i = tcpGetNextOptbyte m i :: (options m).drop (i + 1) := by
  rw [List.drop_eq_getElem_cons (by rw [length_options]; exact h)]
  simp [options]

lemma drop_options_end {m : OptMemory} {i : ℕ} (h : m.tcphdrOptlen ≤ i) : (options m).drop i = [] :=
  List.drop_eq_nil_iff.2 (by rw [length_options]; exact h)

/-- What the announced values do to a pcb. -/
def takeOptions (syn : Bool) (r : Option ℕ × Option ℕ) (pcb : Pcb o) : Pcb o :=
  let pcb := match r.1 with
    | none => pcb
    | some mss => takeMss mss pcb
  match r.2 with
  | none => pcb
  | some data => if o.lwipWndScale then takeWndScale syn data pcb else pcb

lemma takeOptions_eq (pcb : Pcb o) (seg : Segment) :
    takeOptions seg.syn (seg.mss, seg.wndScale) pcb = TcpIn.tcpParseopt pcb seg := by
  unfold takeOptions TcpIn.tcpParseopt takeWndScale takeMss
  cases seg.mss <;> cases seg.wndScale <;> simp only [] <;> cases o.lwipWndScale <;> simp

lemma takeOptions_mss (syn : Bool) (mss : ℕ) (r : Option ℕ × Option ℕ) (pcb : Pcb o) :
    takeOptions syn r (takeMss mss pcb) = takeOptions syn (r.1.or (some mss), r.2) pcb := by
  obtain ⟨x, y⟩ := r
  cases x <;> rfl

lemma takeOptions_wndScale (syn : Bool) (data : ℕ) (r : Option ℕ × Option ℕ) (pcb : Pcb o)
    (h : o.lwipWndScale = true) :
    takeOptions syn r (takeWndScale syn data pcb) = takeOptions syn (r.1, some data) pcb := by
  obtain ⟨x, y⟩ := r
  unfold takeOptions takeWndScale takeMss
  simp only [h, if_true]
  cases syn <;> cases hs : pcb.wndScale <;> cases x <;> cases y <;> simp [hs]

section Decode

variable {kind : UInt8} {rest : Bytes}

lemma decode_nil : decode o [] = (none, none) := by rw [decode.eq_def]

lemma decode_eol (h : kind = 0) : decode o (kind :: rest) = (none, none) := by
  rw [decode.eq_def]
  exact if_pos h

lemma decode_nop (h : kind = 1) : decode o (kind :: rest) = decode o rest := by
  subst h
  rw [decode.eq_def]
  rfl

lemma decode_mss (h : kind = 2) {len high low : UInt8} (hlen : len = 4) :
    decode o (kind :: len :: high :: low :: rest) =
      ((decode o rest).1.or (some (high.toNat * 256 + low.toNat)), (decode o rest).2) := by
  subst h hlen
  rw [decode.eq_def]
  rfl

lemma decode_mss_bad (h : kind = 2) (hbad : rest.head? ≠ some 4 ∨ rest.length < 3) :
    decode o (kind :: rest) = (none, none) := by
  subst h
  rw [decode.eq_def]
  dsimp only
  rw [if_neg (by decide), if_neg (by decide), if_pos rfl]
  split
  · rename_i len high low rest
    rw [if_neg]
    rintro rfl
    simp only [List.head?_cons, ne_eq, not_true_eq_false, false_or, List.length_cons] at hbad
    omega
  · rfl

lemma decode_wndScale (h : kind = 3) (ho : o.lwipWndScale = true) {len data : UInt8}
    (hlen : len = 3) :
    decode o (kind :: len :: data :: rest) = ((decode o rest).1, some data.toNat) := by
  subst h hlen
  rw [decode.eq_def]
  dsimp only
  rw [if_neg (by decide), if_neg (by decide), if_neg (by decide), if_pos ⟨rfl, ho⟩, if_pos rfl]

lemma decode_wndScale_bad (h : kind = 3) (ho : o.lwipWndScale = true)
    (hbad : rest.head? ≠ some 3 ∨ rest.length < 2) :
    decode o (kind :: rest) = (none, none) := by
  subst h
  rw [decode.eq_def]
  dsimp only
  rw [if_neg (by decide), if_neg (by decide), if_neg (by decide), if_pos ⟨rfl, ho⟩]
  split
  · rename_i len data rest
    rw [if_neg]
    rintro rfl
    simp at hbad
  · rfl

lemma decode_other (h0 : kind ≠ 0) (h1 : kind ≠ 1) (h2 : kind ≠ 2)
    (h3 : ¬(kind = 3 ∧ o.lwipWndScale = true)) :
    decode o (kind :: rest) = match rest with
      | len :: rest => if len.toNat < 2 then (none, none) else decode o (rest.drop (len.toNat - 2))
      | [] => (none, none) := by
  rw [decode.eq_def]
  dsimp only
  rw [if_neg h0, if_neg h1, if_neg h2, if_neg h3]
  cases rest <;> rfl

end Decode

lemma parseoptLoop_eq (m : OptMemory) (syn : Bool) (i : ℕ) (pcb : Pcb o) (reads : List ℕ) :
    (parseoptLoop m syn i pcb reads).1 = takeOptions syn (decode o ((options m).drop i)) pcb := by
  -- from any index on, the loop makes of the options what their string announces
  -- the byte behind the last option may be read, but only as a length that does not fit
  have hbad : ∀ {i n : ℕ} {len : UInt8}, tcpGetNextOptbyte m (i + 1) ≠ len ∨
      m.tcphdrOptlen < i + (n + 2) →
      ((options m).drop (i + 1)).head? ≠ some len ∨ ((options m).drop (i + 1)).length < n + 1 := by
    rintro i n len (h | h)
    · by_cases hi : i + 1 < m.tcphdrOptlen
      · left
        rw [drop_options hi]
        simpa using h
      · left
        rw [drop_options_end (not_lt.1 hi)]
        simp
    · right
      rw [List.length_drop, length_options]
      omega
  fun_induction parseoptLoop m syn i pcb reads with
  | case1 i pcb reads h opt h0 =>
    rw [drop_options h, decode_eol h0]
    rfl
  | case2 i pcb reads h opt h0 h1 ih =>
    rw [drop_options h, decode_nop h1]
    exact ih
  | case3 i pcb reads h opt h0 h1 h2 hlen =>
    rw [drop_options h, decode_mss_bad h2 (hbad hlen)]
    rfl
  | case4 i pcb reads h opt h0 h1 h2 hok mss ih =>
    obtain ⟨hlen, hfits⟩ := not_or.1 hok
    rw [drop_options h, drop_options (by omega), drop_options (by omega), drop_options (by omega),
      decode_mss h2 (not_not.1 hlen), ih, takeOptions_mss]
  | case5 i pcb reads h opt h0 h1 h2 h3 hlen =>
    rw [drop_options h, decode_wndScale_bad h3.1 h3.2 (hbad hlen)]
    rfl
  | case6 i pcb reads h opt h0 h1 h2 h3 hok data ih =>
    obtain ⟨hlen, hfits⟩ := not_or.1 hok
    rw [drop_options h, drop_options (by omega), drop_options (by omega),
      decode_wndScale h3.1 h3.2 (not_not.1 hlen), ih, takeOptions_wndScale syn _ _ pcb h3.2]
  | case7 i pcb reads h opt h0 h1 h2 h3 data hlen =>
    rw [drop_options h, decode_other h0 h1 h2 h3]
    by_cases hi : i + 1 < m.tcphdrOptlen
    · rw [drop_options hi]
      dsimp only
      rw [if_pos hlen]
      rfl
    · rw [drop_options_end (not_lt.1 hi)]
      rfl
  | case8 i pcb reads h opt h0 h1 h2 h3 data hlen ih =>
    rw [drop_options h, decode_other h0 h1 h2 h3, ih]
    by_cases hi : i + 1 < m.tcphdrOptlen
    · rw [drop_options hi]
      dsimp only
      rw [if_neg hlen, List.drop_drop]
    · rw [drop_options_end (not_lt.1 hi), drop_options_end (by omega), decode.eq_def]
  | case9 i pcb reads h =>
    rw [drop_options_end (not_lt.1 h), decode_nil]
    rfl

lemma parseoptLoop_reads (m : OptMemory) (syn : Bool) (i : ℕ) (pcb : Pcb o) (reads : List ℕ)
    (h : ∀ j ∈ reads, j ≤ m.tcphdrOptlen) :
    ∀ j ∈ (parseoptLoop m syn i pcb reads).2, j ≤ m.tcphdrOptlen := by
  -- all that is read lies in the options or is the byte behind them
  fun_induction parseoptLoop m syn i pcb reads with
  | case1 i pcb reads hi => simpa [or_imp, forall_and] using ⟨h, hi.le⟩
  | case2 i pcb reads hi _ _ _ ih => exact ih (by simpa [or_imp, forall_and] using ⟨h, hi.le⟩)
  | case3 i pcb reads hi => simpa [or_imp, forall_and] using ⟨h, hi.le, hi⟩
  | case4 i pcb reads hi _ _ _ _ hok _ ih =>
    refine ih ?_
    simp only [List.mem_append, List.mem_cons, List.not_mem_nil, or_false, or_imp, forall_and,
      forall_eq]
    exact ⟨h, by omega⟩
  | case5 i pcb reads hi => simpa [or_imp, forall_and] using ⟨h, hi.le, hi⟩
  | case6 i pcb reads hi _ _ _ _ _ hok _ ih =>
    refine ih ?_
    simp only [List.mem_append, List.mem_cons, List.not_mem_nil, or_false, or_imp, forall_and,
      forall_eq]
    exact ⟨h, by omega⟩
  | case7 i pcb reads hi => simpa [or_imp, forall_and] using ⟨h, hi.le, hi⟩
  | case8 i pcb reads hi _ _ _ _ _ _ _ ih =>
    exact ih (by simpa [or_imp, forall_and] using ⟨h, hi.le, hi⟩)
  | case9 i pcb reads _ => exact h

/-- Whatever lies behind the options in memory, `tcp_parseopt` does to a pcb what the segment's
announced options do, and it reads at most one byte beyond them. -/
theorem parseopt_refines (m : OptMemory) (pcb : Pcb o) (seg : Segment)
    (h : (seg.mss, seg.wndScale) = decode o (options m)) :
    (tcpParseopt m seg.syn pcb).1 = TcpIn.tcpParseopt pcb seg ∧
    ∀ j ∈ (tcpParseopt m seg.syn pcb).2, j ≤ m.tcphdrOptlen := by
  refine ⟨?_, parseoptLoop_reads m seg.syn 0 pcb [] fun _ hj => (by cases hj)⟩
  rw [tcpParseopt, parseoptLoop_eq, List.drop_zero, ← h, takeOptions_eq]

/-- Options that start in one pbuf and go on in the next, with data behind them. -/
def splitOptions : OptMemory :=
  ⟨8, 3, fun i => [2, 4, 5].getD i 0, some fun i => [0xB4, 1, 3, 3, 7, 0xEE, 0xEE].getD i 0⟩

theorem parseopt_refines_splitOptions :
    let pcb := newPcb .macos openingSyn 6510 calmEnv 0
    let seg : Segment := { openingSyn with wndScale := some 7 }
    ((tcpParseopt splitOptions seg.syn pcb).1 = TcpIn.tcpParseopt pcb seg ∧
      ∀ j ∈ (tcpParseopt splitOptions seg.syn pcb).2, j ≤ 8) ∧
      (TcpIn.tcpParseopt pcb seg).tx.sndScale = 7 := by
  refine ⟨parseopt_refines splitOptions _ _ ?_, by decide⟩
  rw [show options splitOptions = [2, 4, 5, 0xB4, 1, 3, 3, 7] from rfl, decode_mss rfl rfl,
    decode_nop rfl, decode_wndScale rfl rfl rfl, decode.eq_def]
  rfl

end TunForge.TcpOptions
