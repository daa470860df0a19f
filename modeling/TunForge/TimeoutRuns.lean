import TunForge.Runs
import TunForge.Timeouts

/-! What holds of the timeouts over every run: the pool of two is enough, no timeout is lost,
doubled, early or left over. -/
namespace TunForge.Timeouts
open SerialNumber

variable {s : Timers} {t : Timeout} {rest : List Timeout} {G b : ℕ} {hs : List Handler}

/-! ### The list -/

/-- The list of timeouts, for the handlers `hs`, at most `G` milliseconds after `b`. -/
structure Pending (G b : ℕ) (hs : List Handler) (l : List Timeout) : Prop where
  sorted : l.Pairwise fun x y => x.due ≤ y.due
  time : ∀ x ∈ l, x.time = BitVec.ofNat 32 x.due
  window : ∀ x ∈ l, b ≤ x.due ∧ x.due ≤ b + G + ipTmrInterval
  handlers : (l.map Timeout.h).Perm hs

lemma Pending.tail {l : List Timeout} (h : Pending G b (t.h :: hs) (t :: l)) :
    Pending G b hs l where
  sorted := (List.pairwise_cons.1 h.sorted).2
  time x hx := h.time x (.tail _ hx)
  window x hx := h.window x (.tail _ hx)
  handlers := (List.perm_cons _).1 h.handlers

lemma pairwise_orderedInsert {α : Type*} {r : α → α → Prop} [DecidableRel r] {key : α → ℕ} {a : α}
    {l : List α} (hr : ∀ x ∈ l, r a x ↔ key a < key x) (hl : l.Pairwise fun x y => key x ≤ key y) :
    (l.orderedInsert r a).Pairwise fun x y => key x ≤ key y := by
  -- an insertion by a strict order that the keys of the elements decide
  induction l with
  | nil => exact List.pairwise_singleton _ a
  | cons x l ih =>
    obtain ⟨hx, hl'⟩ := List.pairwise_cons.1 hl
    rw [List.orderedInsert_cons]
    split_ifs with hax
    · have hlt := (hr x (.head _)).1 hax
      refine List.pairwise_cons.2 ⟨fun y hy => ?_, hl⟩
      rcases List.mem_cons.1 hy with rfl | hy
      · exact hlt.le
      · exact hlt.le.trans (hx y hy)
    · have hle := not_lt.1 ((hr x (.head _)).not.1 hax)
      refine List.pairwise_cons.2 ⟨fun y hy => ?_, ih (fun y hy => hr y (.tail _ hy)) hl'⟩
      rcases List.mem_orderedInsert r |>.1 hy with rfl | hy
      · exact hle
      · exact hx y hy

variable (hG : G + ipTmrInterval < half)

/-- The timeout of a handler that is due at a time of the unbounded clock. -/
def timeout (h : Handler) (due : ℕ) : Timeout := ⟨BitVec.ofNat 32 due, h, due⟩

include hG in
lemma Pending.insert {l : List Timeout} (h : Pending G b hs l) (hnd : Handler) {due : ℕ}
    (hb : b ≤ due) (hb' : due ≤ b + G + ipTmrInterval) :
    Pending G b (hnd :: hs) (l.orderedInsert Earlier (timeout hnd due)) where
  sorted := by
    refine pairwise_orderedInsert (fun y hy => ?_) h.sorted
    have hw := h.window y hy
    unfold Earlier
    rw [h.time y hy]
    exact lt_ofNat hb (by omega) hw.1 (by omega)
  time y hy := by
    rcases List.mem_orderedInsert _ |>.1 hy with rfl | hy
    · rfl
    · exact h.time y hy
  window y hy := by
    rcases List.mem_orderedInsert _ |>.1 hy with rfl | hy
    · exact ⟨hb, hb'⟩
    · exact h.window y hy
  handlers := ((List.perm_orderedInsert _ _ l).map _).trans (h.handlers.cons _)

lemma Pending.length_eq {l : List Timeout} (h : Pending G b hs l) : l.length = hs.length := by
  rw [← h.handlers.length_eq, List.length_map]

lemma sysTimeoutAbs_eq {due : ℕ} {hnd : Handler} (h : Pending G b hs s.nextTimeout)
    (hroom : hs.length < mempNumSysTimeout) :
    sysTimeoutAbs (BitVec.ofNat 32 due) due hnd s =
      { s with nextTimeout := s.nextTimeout.orderedInsert Earlier (timeout hnd due) } := by
  unfold sysTimeoutAbs
  rw [if_pos (h.length_eq ▸ hroom)]
  rfl

/-! ### The handlers -/

def reassembly : Handler := .lwipCyclicTimer ⟨ipTmrInterval, .ipReassTmr⟩

/-- The handlers that are scheduled. -/
def handlers (active : Bool) : List Handler :=
  if active then [.tcpipTcpTimer, reassembly] else [reassembly]

structure Scheduled (G b : ℕ) (s : Timers) : Prop where
  pending : Pending G b (handlers s.tcpipTcpTimerActive) s.nextTimeout
  needed : s.pcbs = true → s.tcpipTcpTimerActive = true
  past : b ≤ s.clock

lemma Scheduled.first (h : Scheduled G b s) (hl : s.nextTimeout = t :: rest) :
    (t.h = .tcpipTcpTimer ∧ s.tcpipTcpTimerActive = true ∧ Pending G b [reassembly] rest) ∨
      t.h = reassembly ∧ Pending G b (if s.tcpipTcpTimerActive then [.tcpipTcpTimer]
        else []) rest := by
  -- what is left of the list once its first timeout has expired
  have hp := h.pending
  rw [hl] at hp
  have hmem : t.h ∈ handlers s.tcpipTcpTimerActive := hp.handlers.subset (by simp)
  unfold handlers at hmem hp
  split_ifs at hmem hp with hact
  · rcases List.mem_pair.1 hmem with ht | ht
    · rw [← ht] at hp
      exact .inl ⟨ht, hact, hp.tail⟩
    · refine .inr ⟨ht, ?_⟩
      rw [if_pos hact]
      refine Pending.tail (t := t) { hp with handlers := ?_ }
      rw [ht]
      exact hp.handlers.trans (.swap _ _ _)
  · have ht := List.mem_singleton.1 hmem
    refine .inr ⟨ht, ?_⟩
    rw [if_neg hact]
    exact Pending.tail (t := t) (ht ▸ hp)

/-- What `tcp_tmr` calls. -/
def tcpCalls (due clock : ℕ) (timer : BitVec 8) : List Call :=
  ⟨.tcpFasttmr, due, clock⟩ :: if (timer + 1) &&& 1 ≠ 0 then [⟨.tcpSlowtmr, due, clock⟩] else []

lemma tcpTmr_eq (s : Timers) :
    tcpTmr s = { s with
      tcpTimer := s.tcpTimer + 1, calls := s.calls ++
        tcpCalls s.currentDue s.clock s.tcpTimer } := by
  unfold tcpTmr tcpCalls call
  dsimp only
  split_ifs <;> simp

/-- The timer of TCP expires: it is scheduled again while there are pcbs. -/
def afterTcp (t : Timeout) (rest : List Timeout) (r : Round) (s : Timers) : Timers :=
  { s with
    nextTimeout :=
      if r.pcbs then rest.orderedInsert Earlier
        (timeout .tcpipTcpTimer (s.clock + r.elapsed + tcpTmrInterval)) else rest
    currentTimeoutDueTime := t.time
    currentDue := t.due
    tcpipTcpTimerActive := r.pcbs
    tcpTimer := s.tcpTimer + 1
    pcbs := r.pcbs
    clock := s.clock + r.elapsed
    calls := s.calls ++ tcpCalls t.due s.clock s.tcpTimer }

/-- When the reassembly runs next after it was due and ended at `clock`. -/
def reassemblyDue (due clock : ℕ) : ℕ :=
  if due + ipTmrInterval < clock then clock + ipTmrInterval else due + ipTmrInterval

/-- The timer of the reassembly expires: it is scheduled again from when it was due, unless that
has passed too. -/
def afterReassembly (t : Timeout) (rest : List Timeout) (r : Round) (s : Timers) : Timers :=
  { s with
    nextTimeout := rest.orderedInsert Earlier
      (timeout reassembly (reassemblyDue t.due (s.clock + r.elapsed)))
    currentTimeoutDueTime := t.time
    currentDue := t.due
    clock := s.clock + r.elapsed
    calls := s.calls ++ [⟨.ipReassTmr, t.due, s.clock⟩] }

lemma expire_tcp (r : Round) (ht : t.h = .tcpipTcpTimer) (hact : s.tcpipTcpTimerActive = true)
    (hp : Pending G b [reassembly] rest) :
    expire t rest r s = afterTcp t rest r s := by
  rw [expire, ht, runHandler, tcpipTcpTimer, tcpTmr_eq, afterTcp]
  dsimp only
  cases r.pcbs with
  | true =>
    rw [if_pos rfl, sysTimeout, sysNow, ← BitVec.ofNat_add, sysTimeoutAbs_eq hp (by decide)]
    simp only [hact, if_true]
  | false => rfl

include hG in
lemma expire_reassembly (r : Round) (ht : t.h = reassembly) (hp : Pending G b hs rest)
    (hroom : hs.length < mempNumSysTimeout) (htime : t.time = BitVec.ofNat 32 t.due)
    (hdue : b ≤ t.due) (hlate : t.due ≤ s.clock) (hclock : s.clock + r.elapsed ≤ b + G) :
    expire t rest r s = afterReassembly t rest r s := by
  rw [expire, ht, reassembly, runHandler, lwipCyclicTimer, afterReassembly]
  simp only [cyclicHandler, call, sysNow, htime, ← BitVec.ofNat_add]
  have hlt : lt (BitVec.ofNat 32 (t.due + ipTmrInterval)) (BitVec.ofNat 32 (s.clock + r.elapsed)) =
      true ↔ _ :=
    lt_ofNat (b := b) (by omega) (by omega) (by omega) (by omega)
  simp only [hlt, reassemblyDue]
  split_ifs <;> exact sysTimeoutAbs_eq hp hroom

/-- What an expiry comes to while the timeouts are as they should be. -/
inductive Expiry (G b : ℕ) (t : Timeout) (rest : List Timeout) (r : Round) (s : Timers) :
    Timers → Prop
  | tcp (ht : t.h = .tcpipTcpTimer) (hact : s.tcpipTcpTimerActive = true)
      (hp : Pending G b [reassembly] rest) :
      Expiry G b t rest r s (afterTcp t rest r s)
  | reassembly (ht : t.h = reassembly)
      (hp : Pending G b (if s.tcpipTcpTimerActive then [.tcpipTcpTimer] else []) rest) :
      Expiry G b t rest r s (afterReassembly t rest r s)

include hG in
lemma Scheduled.expiry (h : Scheduled G b s) (hl : s.nextTimeout = t :: rest)
    (hlate : t.due ≤ s.clock) {r : Round} (hclock : s.clock + r.elapsed ≤ b + G) :
    Expiry G b t rest r s (expire t rest r s) := by
  have hmem : t ∈ s.nextTimeout := by rw [hl]; exact .head _
  rcases h.first hl with ⟨ht, hact, hp⟩ | ⟨ht, hp⟩
  · rw [expire_tcp r ht hact hp]
    exact .tcp ht hact hp
  · rw [expire_reassembly hG r ht hp (by split_ifs <;> decide) (h.pending.time t hmem)
      (h.pending.window t hmem).1 hlate hclock]
    exact .reassembly ht hp

lemma reassemblyDue_bounds {due clock : ℕ} (h : due ≤ clock) :
    clock ≤ reassemblyDue due clock ∧ due + ipTmrInterval ≤ reassemblyDue due clock ∧
    reassemblyDue due clock ≤ clock + ipTmrInterval := by
  unfold reassemblyDue
  split_ifs <;> omega

include hG in
lemma Expiry.scheduled {s' : Timers} {r : Round} (he : Expiry G b t rest r s s')
    (h : Scheduled G b s) (hlate : t.due ≤ s.clock) (hclock : s.clock + r.elapsed ≤ b + G) :
    Scheduled G b s' := by
  have hpast := h.past
  cases he with
  | tcp _ _ hp =>
    refine ⟨?_, id, by dsimp only [afterTcp]; omega⟩
    dsimp only [afterTcp]
    cases r.pcbs with
    | true =>
      refine hp.insert hG .tcpipTcpTimer (by omega) ?_
      unfold tcpTmrInterval ipTmrInterval
      omega
    | false => exact hp
  | reassembly _ hp =>
    obtain ⟨h1, -, h3⟩ := reassemblyDue_bounds (hlate.trans (Nat.le_add_right _ r.elapsed))
    refine ⟨?_, h.needed, by dsimp only [afterReassembly]; omega⟩
    have hins : Pending G b _ (rest.orderedInsert Earlier
        (timeout Timeouts.reassembly (reassemblyDue t.due (s.clock + r.elapsed)))) :=
      hp.insert hG Timeouts.reassembly (by omega) (by omega)
    refine { hins with handlers := hins.handlers.trans ?_ }
    dsimp only [afterReassembly]
    unfold handlers
    split_ifs
    · exact .swap _ _ _
    · exact .refl _

lemma Expiry.clock {s' : Timers} {r : Round} (he : Expiry G b t rest r s s') :
    s'.clock = s.clock + r.elapsed := by
  cases he <;> rfl

/-! ### The loop -/

/-- How often a timeout can still expire in a check at `now`. -/
def turns (now : ℕ) (t : Timeout) : ℕ := if t.due < now then 2 else if t.due = now then 1 else 0

def work (now : ℕ) (l : List Timeout) : ℕ := (l.map (turns now)).sum

lemma work_insert (now : ℕ) (x : Timeout) (l : List Timeout) :
    work now (l.orderedInsert Earlier x) = turns now x + work now l := by
  unfold work
  rw [((List.perm_orderedInsert _ x l).map _).sum_eq, List.map_cons, List.sum_cons]

lemma turns_eq_zero {now : ℕ} (h : now < t.due) : turns now t = 0 := by
  unfold turns
  split_ifs <;> omega

lemma work_le (now : ℕ) (l : List Timeout) : work now l ≤ 2 * l.length := by
  have hle : ∀ n ∈ l.map (turns now), n ≤ 2 := by
    intro n hn
    obtain ⟨x, -, rfl⟩ := List.mem_map.1 hn
    unfold turns
    split_ifs <;> omega
  have := List.sum_le_card_nsmul _ 2 hle
  rw [List.length_map, smul_eq_mul] at this
  unfold work
  omega

lemma Expiry.work_lt {s' : Timers} {r : Round} {now : ℕ} (he : Expiry G b t rest r s s')
    (hl : s.nextTimeout = t :: rest) (hdue : t.due ≤ now) (hnow : now ≤ s.clock) :
    work now s'.nextTimeout < work now s.nextTimeout := by
  have hturn : work now s.nextTimeout = turns now t + work now rest := by
    rw [hl]
    rfl
  have hpos : 0 < turns now t := by
    unfold turns
    split_ifs <;> omega
  rw [hturn]
  cases he with
  | tcp =>
    dsimp only [afterTcp]
    split_ifs
    · rw [work_insert, turns_eq_zero (by dsimp only [timeout, tcpTmrInterval]; omega)]
      omega
    · omega
  | reassembly =>
    dsimp only [afterReassembly]
    rw [work_insert]
    have hless : turns now (timeout Timeouts.reassembly (reassemblyDue t.due (s.clock + r.elapsed)))
        < turns now t := by
      unfold turns timeout reassemblyDue ipTmrInterval
      dsimp only
      split_ifs <;> omega
    omega

/-- The rounds of a check end by `bound`. -/
def Spent (bound clock : ℕ) (rounds : List Round) : Prop :=
  clock + (rounds.map Round.elapsed).sum ≤ bound

include hG in
/-- What every expiry keeps holds after the check, and then nothing that was due is left. -/
theorem checkLoop_keeps {now : ℕ} {P : Timers → Prop}
    (hP : ∀ s t rest r s', Scheduled G b s → s.nextTimeout = t :: rest → t.due ≤ now →
      now ≤ s.clock → s.clock + r.elapsed ≤ b + G →
      Expiry G b t rest r s s' → P s → P s') {fuel : ℕ} {rounds : List Round} (h :
      Scheduled G b s) (hnow : now ≤ s.clock) (hb : b ≤ now)
    (hspent : Spent (b + G) s.clock rounds) (hfuel : work now s.nextTimeout < fuel) (hs : P s) :
    Scheduled G b (checkLoop (BitVec.ofNat 32 now) fuel rounds s) ∧
    P (checkLoop (BitVec.ofNat 32 now) fuel rounds s) ∧
      ∀ t ∈ (checkLoop (BitVec.ofNat 32 now) fuel rounds s).nextTimeout, now < t.due := by
  induction fuel generalizing s rounds with
  | zero => omega
  | succ fuel ih =>
    unfold checkLoop
    cases hl : s.nextTimeout with
    | nil =>
      refine ⟨h, hs, fun t ht => ?_⟩
      rw [hl] at ht
      cases ht
    | cons t rest =>
      have hmem : t ∈ s.nextTimeout := by rw [hl]; exact .head _
      have hw := h.pending.window t hmem
      have hlt : lt (BitVec.ofNat 32 now) t.time = true ↔ now < t.due := by
        rw [h.pending.time t hmem]
        exact lt_ofNat hb (by unfold Spent at hspent; omega) hw.1 (by omega)
      dsimp only
      split_ifs with hearly
      · refine ⟨h, hs, fun x hx => ?_⟩
        have hsorted := h.pending.sorted
        rw [hl] at hx hsorted
        rcases List.mem_cons.1 hx with rfl | hx
        · exact hlt.1 hearly
        · exact (hlt.1 hearly).trans_le ((List.pairwise_cons.1 hsorted).1 x hx)
      · have hdue := not_lt.1 (hlt.not.1 hearly)
        have hclock : s.clock + (rounds.headD ⟨0, s.pcbs⟩).elapsed ≤ b + G ∧
            Spent (b + G) (s.clock + (rounds.headD ⟨0, s.pcbs⟩).elapsed) rounds.tail := by
          unfold Spent at *
          cases rounds with
          | nil => exact ⟨hspent, hspent⟩
          | cons r rounds =>
            simp only [List.map_cons, List.sum_cons, List.headD_cons, List.tail_cons] at *
            omega
        generalize rounds.headD ⟨0, s.pcbs⟩ = r at hclock
        have he := h.expiry hG hl (hdue.trans hnow) hclock.1
        have hwork := he.work_lt hl hdue hnow
        refine ih (he.scheduled hG h (hdue.trans hnow) hclock.1)
          (he.clock ▸ hnow.trans (Nat.le_add_right _ _)) ?_ (by omega)
          (hP s t rest r _ h hl hdue hnow hclock.1 he hs)
        rw [he.clock]
        exact hclock.2

/-! ### Runs -/

/-- The timeouts are checked, and a pcb is registered, at most `G` milliseconds after they were last
checked or restarted. -/
def Within (G : ℕ) (s : Timers) : Event → Prop
  | .tcpReg => s.clock ≤ s.base + G
  | .check rounds => Spent (s.base + G) s.clock rounds
  | _ => True

instance (G : ℕ) (s : Timers) : ∀ e, Decidable (Within G s e)
  | .tcpReg => inferInstanceAs (Decidable (s.clock ≤ s.base + G))
  | .check rounds =>
    inferInstanceAs (Decidable (s.clock + (rounds.map Round.elapsed).sum ≤ s.base + G))
  | .elapse _ => isTrue trivial
  | .tcpRmv => isTrue trivial
  | .start => isTrue trivial

include hG in
lemma check_keeps {P : Timers → Prop}
    (hP : ∀ u t rest r u', Scheduled G s.base u → u.nextTimeout = t :: rest → t.due ≤ s.clock →
      s.clock ≤ u.clock →
      u.clock + r.elapsed ≤ s.base + G → Expiry G s.base t rest r u u' → P u → P u') {rounds :
      List Round} (h : Scheduled G s.base s)
    (hspent : Spent (s.base + G) s.clock rounds) (hs : P s) :
    Scheduled G s.base (sysCheckTimeouts rounds s) ∧ P (sysCheckTimeouts rounds s) ∧
    s.clock ≤ (sysCheckTimeouts rounds s).clock ∧
      ∀ t ∈ (sysCheckTimeouts rounds s).nextTimeout, s.clock < t.due := by
  obtain ⟨h1, h2, h3⟩ := checkLoop_keeps hG (P := fun u => P u ∧ s.clock ≤ u.clock)
    (fun u t rest r u' hu hl hdue hnow hclock he hPu =>
      ⟨hP u t rest r u' hu hl hdue hnow hclock he hPu.1, he.clock ▸ hnow.trans
        (Nat.le_add_right _ _)⟩)
    h le_rfl h.past hspent (Nat.lt_succ_of_le (work_le s.clock s.nextTimeout)) ⟨hs, le_rfl⟩
  exact ⟨h1, h2.1, h2.2, h3⟩

lemma Scheduled.step_tcpReg (h : Scheduled G b s) : step s .tcpReg = { s with
    nextTimeout :=
      if s.tcpipTcpTimerActive then s.nextTimeout
      else s.nextTimeout.orderedInsert Earlier (timeout .tcpipTcpTimer (s.clock + tcpTmrInterval))
    tcpipTcpTimerActive := true
    pcbs := true } := by
  have hp := h.pending
  unfold step tcpTimerNeeded
  cases hact : s.tcpipTcpTimerActive with
  | true => rfl
  | false =>
    rw [hact] at hp
    have hp' : Pending G b (handlers false)
        ({ s with tcpipTcpTimerActive := true, pcbs := true } : Timers).nextTimeout := hp
    simp only [Bool.not_false, Bool.and_self, if_true]
    rw [sysTimeout, sysNow, ← BitVec.ofNat_add, sysTimeoutAbs_eq hp' (by decide)]
    rfl

lemma Pending.restart (h : Pending G b hs s.nextTimeout) :
    Pending G s.clock hs (sysRestartTimeouts s).nextTimeout := by
  -- a restart moves all timeouts by the same time, so that the first is due at once
  unfold sysRestartTimeouts
  cases hl : s.nextTimeout with
  | nil =>
    rw [hl] at h
    dsimp only
    rw [hl]
    exact ⟨.nil, fun x hx => (by cases hx), fun x hx => (by cases hx), h.handlers⟩
  | cons first rest =>
    rw [hl] at h
    have hfirst : ∀ x ∈ first :: rest, first.due ≤ x.due := by
      intro x hx
      rcases List.mem_cons.1 hx with rfl | hx
      · exact le_rfl
      · exact (List.pairwise_cons.1 h.sorted).1 x hx
    have hwin := h.window first (.head _)
    dsimp only
    refine ⟨?_, ?_, ?_, ?_⟩
    · rw [List.pairwise_map]
      refine h.sorted.imp fun hxy => ?_
      dsimp only
      omega
    · intro x hx
      obtain ⟨y, hy, rfl⟩ := List.mem_map.1 hx
      have hle := hfirst y hy
      dsimp only
      rw [h.time y hy, h.time first (.head _), sysNow, BitVec.ofNat_add]
      congr 1
      rw [show y.due = (y.due - first.due) + first.due by omega, BitVec.ofNat_add,
        Nat.add_sub_cancel, BitVec.add_sub_cancel]
    · intro x hx
      obtain ⟨y, hy, rfl⟩ := List.mem_map.1 hx
      have hle := hfirst y hy
      have hy' := h.window y hy
      dsimp only
      omega
    · rw [List.map_map]
      exact h.handlers

include hG in
lemma scheduled_step {e : Event} (h : Scheduled G s.base s) (he : Within G s e) :
    Scheduled G (step s e).base (step s e) := by
  cases e with
  | elapse ms => exact ⟨h.pending, h.needed, h.past.trans (Nat.le_add_right _ _)⟩
  | tcpReg =>
    have hp := h.pending
    have hpast := h.past
    rw [h.step_tcpReg]
    refine ⟨?_, fun _ => rfl, hpast⟩
    dsimp only
    cases hact : s.tcpipTcpTimerActive with
    | true =>
      rw [hact] at hp
      exact hp
    | false =>
      rw [hact] at hp
      refine hp.insert hG .tcpipTcpTimer (by omega) ?_
      have hle : s.clock ≤ s.base + G := he
      unfold tcpTmrInterval ipTmrInterval
      omega
  | tcpRmv => exact ⟨h.pending, fun hp => (by cases hp), h.past⟩
  | check rounds =>
    obtain ⟨h1, -, h3, h4⟩ := check_keeps hG (P := fun _ => True)
      (fun _ _ _ _ _ _ _ _ _ _ _ _ => trivial) h he trivial
    have hpast := h.past
    refine ⟨{ h1.pending with window := fun x hx => ?_ }, h1.needed, h3⟩
    have hwin := h1.pending.window x hx
    exact ⟨(h4 x hx).le, by dsimp only [step]; omega⟩
  | start =>
    have hsame : (sysRestartTimeouts s).tcpipTcpTimerActive = s.tcpipTcpTimerActive ∧
        (sysRestartTimeouts s).pcbs = s.pcbs ∧
        (sysRestartTimeouts s).clock = s.clock := by
      unfold sysRestartTimeouts
      split <;> exact ⟨rfl, rfl, rfl⟩
    refine ⟨?_, ?_, ?_⟩
    · dsimp only [step]
      rw [hsame.1]
      exact h.pending.restart
    · dsimp only [step]
      rw [hsame.1, hsame.2.1]
      exact h.needed
    · dsimp only [step]
      rw [hsame.2.2]

lemma scheduled_initial (clock : ℕ) : Scheduled G (initial clock).base (initial clock) := by
  have hinit : initial clock = ⟨[timeout reassembly (clock + ipTmrInterval)], 0, 0, false, 0, false,
      clock, clock, []⟩ := by
    simp only [initial, sysTimeoutsInit, lwipCyclicTimers, List.drop_succ_cons, List.drop_zero,
      List.foldl_cons, List.foldl_nil, sysTimeout, sysNow, ← BitVec.ofNat_add]
    rfl
  rw [hinit]
  refine ⟨⟨List.pairwise_singleton _ _, ?_, ?_, .refl _⟩, fun hp => (by cases hp), le_rfl⟩
  · intro x hx
    obtain rfl := List.mem_singleton.1 hx
    rfl
  · intro x hx
    obtain rfl := List.mem_singleton.1 hx
    dsimp only [timeout]
    omega

include hG in
lemma scheduled_run {clock : ℕ} {es : List Event}
    (hes : Runs.Along step (Within G) (initial clock) es) :
    Scheduled G (Runs.run step (initial clock) es).base (Runs.run step (initial clock) es) :=
  Runs.invariant step (fun s => Scheduled G s.base s) (fun _ _ h he => scheduled_step hG h he)
    (scheduled_initial clock) hes

/-- Over any run, exactly one timeout waits for the reassembly, and one for TCP if its timer is
active, which it is whenever there is a pcb; the pool never runs out. They stand in the order in
which they are due, and none of them was due before the last check. -/
theorem timers_scheduled {G clock : ℕ} (hG : G + ipTmrInterval < half) {es : List Event}
    (hes : Runs.Along step (Within G) (initial clock) es) :
    let s := Runs.run step (initial clock) es
    (s.nextTimeout.map Timeout.h).Perm (handlers s.tcpipTcpTimerActive) ∧
      (s.pcbs = true → s.tcpipTcpTimerActive = true) ∧
      s.nextTimeout.Pairwise (fun x y => x.due ≤ y.due) ∧
        ∀ x ∈ s.nextTimeout, x.time = BitVec.ofNat 32 x.due ∧ s.base ≤ x.due := by
  have h := scheduled_run hG hes
  exact ⟨h.pending.handlers, h.needed, h.pending.sorted,
    fun x hx => ⟨h.pending.time x hx, (h.pending.window x hx).1⟩⟩

/-- A connection that comes and goes, checked every 250 milliseconds. -/
def connectionRun : List Event :=
  [.elapse 100, .tcpReg, .elapse 250, .check [], .elapse 250, .check [], .elapse 250,
    .check [⟨0, false⟩]]

theorem timers_scheduled_connectionRun :
    let s := Runs.run step (initial 0) connectionRun
    ((s.nextTimeout.map Timeout.h).Perm (handlers s.tcpipTcpTimerActive) ∧
      (s.pcbs = true → s.tcpipTcpTimerActive = true) ∧
      s.nextTimeout.Pairwise (fun x y => x.due ≤ y.due) ∧
        ∀ x ∈ s.nextTimeout, x.time = BitVec.ofNat 32 x.due ∧ s.base ≤ x.due) ∧
      s.nextTimeout = [timeout reassembly 1000] :=
  ⟨timers_scheduled (G := 1000) (by decide) (by decide), by decide⟩

/-! ### What a check calls -/

def jobOf : Handler → Job
  | .tcpipTcpTimer => .tcpFasttmr
  | .lwipCyclicTimer ⟨_, .tcpTmr⟩ => .tcpFasttmr
  | .lwipCyclicTimer ⟨_, .ipReassTmr⟩ => .ipReassTmr

lemma Expiry.calls {s' : Timers} {r : Round} (he : Expiry G b t rest r s s') :
    ∃ new, s'.calls = s.calls ++ new ∧ (∀ c ∈ new, c.due = t.due) ∧
    ∃ c ∈ new, c.job = jobOf t.h := by
  cases he with
  | tcp ht =>
    refine ⟨_, rfl, fun c hc => ?_, ⟨.tcpFasttmr, t.due, s.clock⟩, .head _, by rw [ht]; rfl⟩
    unfold tcpCalls at hc
    split_ifs at hc <;> simp only [List.mem_cons, List.not_mem_nil, or_false] at hc
    · rcases hc with rfl | rfl <;> rfl
    · rw [hc]
  | reassembly ht =>
    refine ⟨_, rfl, fun c hc => ?_, ⟨.ipReassTmr, t.due, s.clock⟩, .head _, by rw [ht]; rfl⟩
    rw [List.mem_singleton.1 hc]

lemma Expiry.mem {s' : Timers} {r : Round} (he : Expiry G b t rest r s s')
    (hlate : t.due ≤ s.clock) :
    (∀ x ∈ rest, x ∈ s'.nextTimeout) ∧ ∀ x ∈ s'.nextTimeout, x ∈ rest ∨ s.clock ≤ x.due := by
  -- of the timeouts after an expiry one at most is new, and it is not due yet
  have hins : ∀ {y}, s.clock ≤ y.due → (∀ x ∈ rest, x ∈ rest.orderedInsert Earlier y) ∧
      ∀ x ∈ rest.orderedInsert Earlier y, x ∈ rest ∨ s.clock ≤ x.due := by
    intro y hy
    refine ⟨fun x hx => (List.mem_orderedInsert _).2 (.inr hx), fun x hx => ?_⟩
    rcases (List.mem_orderedInsert _).1 hx with rfl | hx
    · exact .inr hy
    · exact .inl hx
  cases he with
  | tcp =>
    dsimp only [afterTcp]
    split_ifs
    · exact hins (by dsimp only [timeout]; omega)
    · exact ⟨fun _ => id, fun _ => .inl⟩
  | reassembly =>
    have hbounds := reassemblyDue_bounds (hlate.trans (Nat.le_add_right _ r.elapsed))
    exact hins (by dsimp only [timeout]; omega)

/-- The calls `new` of a check of `l` at `now`, while `left` is left. -/
structure Served (now : ℕ) (l : List Timeout) (new : List Call) (left : List Timeout) : Prop where
  due : ∀ c ∈ new, c.due ≤ now
  order : new.Pairwise fun c d => c.due ≤ d.due
  before : ∀ c ∈ new, ∀ x ∈ left, c.due ≤ x.due
  served : ∀ x ∈ l, x ∈ left ∨ ∃ c ∈ new, c.due = x.due ∧ c.job = jobOf x.h

lemma Served.expire {now : ℕ} {l : List Timeout} {new new' : List Call} {left : List Timeout}
    (h : Served now l new (t :: rest)) (hsorted : (t :: rest).Pairwise fun x y => x.due ≤ y.due)
    (hdue : t.due ≤ now) (hnew : ∀ c ∈ new', c.due = t.due) (hjob : ∃ c ∈ new', c.job = jobOf t.h)
    (hkeep : ∀ x ∈ rest, x ∈ left) (hleft : ∀ x ∈ left, x ∈ rest ∨ now ≤ x.due) :
    Served now l (new ++ new') left where
  due c hc := by
    rcases List.mem_append.1 hc with hc | hc
    · exact h.due c hc
    · rw [hnew c hc]
      exact hdue
  order := by
    refine List.pairwise_append.2 ⟨h.order, List.pairwise_of_forall_mem_list fun c hc d hd => ?_,
      fun c hc d hd => ?_⟩
    · rw [hnew c hc, hnew d hd]
    · rw [hnew d hd]
      exact h.before c hc t (.head _)
  before c hc x hx := by
    rcases List.mem_append.1 hc with hc | hc
    · rcases hleft x hx with hx | hx
      · exact h.before c hc x (.tail _ hx)
      · exact (h.due c hc).trans hx
    · rw [hnew c hc]
      rcases hleft x hx with hx | hx
      · exact (List.pairwise_cons.1 hsorted).1 x hx
      · exact hdue.trans hx
  served x hx := by
    rcases h.served x hx with hx | ⟨c, hc, heq⟩
    · rcases List.mem_cons.1 hx with rfl | hx
      · obtain ⟨c, hc, hj⟩ := hjob
        exact .inr ⟨c, List.mem_append_right _ hc, hnew c hc, hj⟩
      · exact .inl (hkeep x hx)
    · exact .inr ⟨c, List.mem_append_left _ hc, heq⟩

/-- A check in any reachable state comes to its end. It has then called the handler of every
timeout that was due, in the order in which they were due, nothing too early, and what is left is
due later. -/
theorem check_exact {G clock : ℕ} (hG : G + ipTmrInterval < half) {es : List Event}
    {rounds : List Round} (hes : Runs.Along step (Within G) (initial clock)
      (es ++ [.check rounds])) :
    let s := Runs.run step (initial clock) es
    let s' := sysCheckTimeouts rounds s
    (∀ x ∈ s'.nextTimeout, s.clock < x.due) ∧
      ∃ new, s'.calls = s.calls ++ new ∧ (∀ c ∈ new, c.due ≤ s.clock) ∧
        new.Pairwise (fun c d => c.due ≤ d.due) ∧
        ∀ x ∈ s.nextTimeout, x.due ≤ s.clock → ∃ c ∈ new, c.due = x.due ∧ c.job = jobOf x.h := by
  intro s s'
  obtain ⟨hes, hwithin, -⟩ := (Runs.along_append step).1 hes
  have h : Scheduled G s.base s := scheduled_run hG hes
  obtain ⟨-, ⟨new, hcalls, hserved⟩, -, hlate⟩ := check_keeps hG
    (P := fun u => ∃ new, u.calls = s.calls ++ new ∧ Served s.clock s.nextTimeout new u.nextTimeout)
    (fun u t rest r u' hu hl hdue hnow _ he => by
      rintro ⟨new, hcalls, hserved⟩
      obtain ⟨new', hcalls', hdue', hjob⟩ := he.calls
      obtain ⟨hkeep, hleft⟩ := he.mem (hdue.trans hnow)
      have hsorted := hu.pending.sorted
      rw [hl] at hsorted hserved
      refine ⟨new ++ new', by rw [hcalls', hcalls, List.append_assoc], ?_⟩
      exact hserved.expire hsorted hdue hdue' hjob hkeep fun x hx => (hleft x hx).imp id hnow.trans)
    h hwithin ⟨[], (List.append_nil _).symm, fun _ hc => (by cases hc), .nil,
      fun _ hc => (by cases hc), fun _ => .inl⟩
  refine ⟨hlate, new, hcalls, hserved.due, hserved.order, fun x hx hdue => ?_⟩
  rcases hserved.served x hx with hx | hx
  · exact absurd hdue (not_le.2 (hlate x hx))
  · exact hx

theorem check_exact_connectionRun :
    let s := Runs.run step (initial 0) [.elapse 100, .tcpReg, .elapse 1000]
    let s' := sysCheckTimeouts [⟨5, true⟩] s
    ((∀ x ∈ s'.nextTimeout, s.clock < x.due) ∧
      ∃ new, s'.calls = s.calls ++ new ∧ (∀ c ∈ new, c.due ≤ s.clock) ∧
        new.Pairwise (fun c d => c.due ≤ d.due) ∧
        ∀ x ∈ s.nextTimeout, x.due ≤ s.clock → ∃ c ∈ new, c.due = x.due ∧ c.job = jobOf x.h) ∧
      s'.calls = [⟨.tcpFasttmr, 350, 1100⟩, ⟨.tcpSlowtmr, 350, 1100⟩, ⟨.ipReassTmr, 1000, 1105⟩] :=
  ⟨check_exact (G := 2000) (by decide) (by decide), by decide⟩

end TunForge.Timeouts
