import TunForge.TimeoutRuns

/-! The pace at which the timeouts are called: late checks never make the timers of TCP run faster,
and do not make the reassembly drift. -/
namespace TunForge.Timeouts
open SerialNumber

variable {s : Timers} {t : Timeout} {rest : List Timeout} {G b : ℕ}

/-! ### The timers of TCP -/

/-- When `job` was called, by the clock. -/
def times (job : Job) (s : Timers) : List ℕ := (s.calls.filter (·.job = job)).map Call.clock

/-- Calls of `job` are `gap` apart. The timer of TCP comes to the next one no sooner than `lull`
and one interval after the last. -/
structure Paced (gap lull : ℕ) (job : Job) (s : Timers) : Prop where
  chain : (times job s).IsChain fun a b => a + gap ≤ b
  past : ∀ c ∈ (times job s).getLast?, c + lull ≤ s.clock
  pending : ∀ c ∈ (times job s).getLast?, ∀ x ∈ s.nextTimeout, x.h = .tcpipTcpTimer →
    c + lull + tcpTmrInterval ≤ x.due

lemma Paced.keep {gap lull : ℕ} {job : Job} {s' : Timers} (h : Paced gap lull job s)
    (htimes : times job s' = times job s) (hclock : s.clock ≤ s'.clock)
    (hnew : ∀ x ∈ s'.nextTimeout, x.h = .tcpipTcpTimer → x ∈ s.nextTimeout ∨
      s.clock + tcpTmrInterval ≤ x.due) :
    Paced gap lull job s' where
  chain := htimes ▸ h.chain
  past c hc := (h.past c (htimes ▸ hc)).trans hclock
  pending c hc x hx ht := by
    rcases hnew x hx ht with hx | hx
    · exact h.pending c (htimes ▸ hc) x hx ht
    · exact (Nat.add_le_add_right (h.past c (htimes ▸ hc)) _).trans hx

lemma times_append (job : Job) {s' : Timers} {new : List Call} (h : s'.calls = s.calls ++ new) :
    times job s' = times job s ++ (new.filter (·.job = job)).map Call.clock := by
  unfold times
  rw [h, List.filter_append, List.map_append]

lemma Paced.afterReassembly {gap lull : ℕ} {job : Job} {r : Round} (h : Paced gap lull job s)
    (hl : s.nextTimeout = t :: rest) (hjob : job ≠ .ipReassTmr) :
    Paced gap lull job (afterReassembly t rest r s) := by
  refine h.keep ?_ (Nat.le_add_right _ _) fun x hx ht => .inl ?_
  · rw [times_append (s := s) job rfl, List.filter_cons_of_neg (by simpa using hjob.symm),
      List.filter_nil, List.map_nil, List.append_nil]
  · rcases (List.mem_orderedInsert _).1 hx with rfl | hx
    · cases ht
    · rw [hl]
      exact .tail _ hx

lemma Paced.afterTcp {gap lull lull' : ℕ} {job : Job} {r : Round} (h : Paced gap lull job s)
    (hl : s.nextTimeout = t :: rest) (ht : t.h = .tcpipTcpTimer) (hlate : t.due ≤ s.clock)
    (hp : Pending G b [reassembly] rest)
    (hcall : ((tcpCalls t.due s.clock s.tcpTimer).filter (·.job = job)).map Call.clock = [s.clock] ∧
      gap ≤ lull + tcpTmrInterval ∧ lull' = 0 ∨
      ((tcpCalls t.due s.clock s.tcpTimer).filter (·.job = job)).map Call.clock = [] ∧
      lull' ≤ lull + tcpTmrInterval) :
    Paced gap lull' job (afterTcp t rest r s) := by
  -- the timer of TCP expires, and `job` is called or is not
  have hmem : t ∈ s.nextTimeout := by rw [hl]; exact .head _
  have htimes : times job (Timeouts.afterTcp t rest r s) = _ := times_append (s := s) job rfl
  have hnone : ∀ x ∈ rest, x.h ≠ .tcpipTcpTimer := by
    intro x hx heq
    have := hp.handlers.subset (List.mem_map_of_mem hx)
    rw [heq] at this
    simp [reassembly] at this
  -- the only timeout of TCP is the one just scheduled
  have honly : ∀ x ∈ (Timeouts.afterTcp t rest r s).nextTimeout, x.h = .tcpipTcpTimer →
      x.due = s.clock + r.elapsed + tcpTmrInterval := by
    intro x hx heq
    dsimp only [Timeouts.afterTcp] at hx
    split_ifs at hx
    · rcases (List.mem_orderedInsert _).1 hx with rfl | hx
      · rfl
      · exact absurd heq (hnone x hx)
    · exact absurd heq (hnone x hx)
  have hclock : (Timeouts.afterTcp t rest r s).clock = s.clock + r.elapsed := rfl
  rcases hcall with ⟨hcall, hgap, rfl⟩ | ⟨hcall, hlull⟩
  · rw [hcall] at htimes
    have hlast : ∀ c ∈ (times job (Timeouts.afterTcp t rest r s)).getLast?, c = s.clock := by
      rw [htimes, List.getLast?_append]
      simp
    refine ⟨?_, fun c hc => ?_, fun c hc x hx heq => ?_⟩
    · rw [htimes]
      refine List.isChain_append.2 ⟨h.chain, .singleton _, fun c hc d hd => ?_⟩
      have := h.pending c hc t hmem ht
      simp only [List.head?_cons, Option.mem_some_iff] at hd
      omega
    · rw [hlast c hc, hclock]
      omega
    · rw [hlast c hc, honly x hx heq]
      omega
  · rw [hcall, List.append_nil] at htimes
    have hlate' : ∀ c ∈ (times job s).getLast?, c + lull' ≤ s.clock := by
      intro c hc
      have := h.pending c hc t hmem ht
      omega
    refine ⟨htimes ▸ h.chain, fun c hc => ?_, fun c hc x hx heq => ?_⟩
    · have := hlate' c (htimes ▸ hc)
      omega
    · have := hlate' c (htimes ▸ hc)
      rw [honly x hx heq]
      omega

def lull (timer : BitVec 8) : ℕ := if timer &&& 1 ≠ 0 then 0 else tcpTmrInterval

def InPace (s : Timers) : Prop :=
  Paced tcpTmrInterval 0 .tcpFasttmr s ∧ Paced (2 * tcpTmrInterval) (lull s.tcpTimer) .tcpSlowtmr s

lemma Expiry.inPace {s' : Timers} {r : Round} (he : Expiry G b t rest r s s')
    (hl : s.nextTimeout = t :: rest) (hlate : t.due ≤ s.clock) (h : InPace s) : InPace s' := by
  cases he with
  | tcp ht _ hp =>
    have hodd : (s.tcpTimer + 1) &&& 1 ≠ 0 ↔ ¬(s.tcpTimer &&& 1 ≠ 0) := by
      generalize s.tcpTimer = n
      revert n
      decide
    refine ⟨h.1.afterTcp hl ht hlate hp (.inl ⟨?_, by omega, rfl⟩), h.2.afterTcp hl ht hlate hp ?_⟩
    · unfold tcpCalls
      split_ifs <;> rfl
    · dsimp only [Timeouts.afterTcp]
      unfold lull tcpCalls
      by_cases hslow : (s.tcpTimer + 1) &&& 1 ≠ 0
      · rw [if_pos hslow, if_neg (hodd.1 hslow), if_pos hslow]
        exact .inl ⟨rfl, by omega, rfl⟩
      · rw [if_neg hslow, if_pos (not_not.1 (hodd.not.1 hslow)), if_neg hslow]
        exact .inr ⟨rfl, by omega⟩
  | reassembly => exact ⟨h.1.afterReassembly hl (by decide), h.2.afterReassembly hl (by decide)⟩

lemma inPace_step {e : Event} (hG : G + ipTmrInterval < half) (h : InPace s)
    (hs : Scheduled G s.base s) (he : Within G s e) (hstart : e ≠ .start) : InPace (step s e) := by
  cases e with
  | elapse ms =>
    exact ⟨h.1.keep rfl (Nat.le_add_right _ _) fun x hx _ => .inl hx,
      h.2.keep rfl (Nat.le_add_right _ _) fun x hx _ => .inl hx⟩
  | tcpReg =>
    rw [hs.step_tcpReg]
    have hnew : ∀ x ∈ (if s.tcpipTcpTimerActive then s.nextTimeout
        else s.nextTimeout.orderedInsert Earlier
          (timeout .tcpipTcpTimer (s.clock + tcpTmrInterval))),
        x.h = .tcpipTcpTimer → x ∈ s.nextTimeout ∨ s.clock + tcpTmrInterval ≤ x.due := by
      intro x hx _
      split_ifs at hx
      · exact .inl hx
      · rcases (List.mem_orderedInsert _).1 hx with rfl | hx
        · exact .inr le_rfl
        · exact .inl hx
    exact ⟨h.1.keep rfl le_rfl hnew, h.2.keep rfl le_rfl hnew⟩
  | tcpRmv =>
    exact ⟨h.1.keep rfl le_rfl fun x hx _ => .inl hx, h.2.keep rfl le_rfl fun x hx _ => .inl hx⟩
  | check rounds =>
    obtain ⟨-, h2, -⟩ := check_keeps hG (P := InPace)
      (fun u t rest r u' _ hl hdue hnow _ he => he.inPace hl (hdue.trans hnow)) hs he h
    exact ⟨h2.1.keep rfl le_rfl fun x hx _ => .inl hx, h2.2.keep rfl le_rfl fun x hx _ => .inl hx⟩
  | start => exact absurd rfl hstart

/-- However late and unevenly the timeouts are checked, the fast timer of TCP never runs more often
than every 250 milliseconds and the slow one than every 500. -/
theorem ticks_spaced {G clock : ℕ} (hG : G + ipTmrInterval < half) {es : List Event}
    (hes : Runs.Along step (fun s e => Within G s e ∧ e ≠ .start) (initial clock) es) :
    let s := Runs.run step (initial clock) es
    (times .tcpFasttmr s).IsChain (fun a b => a + 250 ≤ b) ∧
      (times .tcpSlowtmr s).IsChain (fun a b => a + 500 ≤ b) := by
  have hinit : InPace (initial clock) := by
    refine ⟨⟨.nil, fun c hc => ?_, fun c hc => ?_⟩, ⟨.nil, fun c hc => ?_, fun c hc => ?_⟩⟩
      <;> cases hc
  have h := Runs.invariant step (fun s => Scheduled G s.base s ∧ InPace s)
    (fun s e hs he => ⟨scheduled_step hG hs.1 he.1, inPace_step hG hs.2 hs.1 he.1 he.2⟩)
      ⟨scheduled_initial clock, hinit⟩ hes
  exact ⟨h.2.1.chain, h.2.2.chain⟩

theorem ticks_spaced_connectionRun :
    let s := Runs.run step (initial 0) connectionRun
    ((times .tcpFasttmr s).IsChain (fun a b => a + 250 ≤ b) ∧
      (times .tcpSlowtmr s).IsChain (fun a b => a + 500 ≤ b)) ∧
      times .tcpFasttmr s = [350, 600, 850] ∧ times .tcpSlowtmr s = [350, 850] :=
  ⟨ticks_spaced (G := 1000) (by decide) (by decide), by decide⟩

/-! ### The reassembly keeps time -/

def dues (s : Timers) : List ℕ := (s.calls.filter (·.job = .ipReassTmr)).map Call.due

/-- The reassembly is due an interval after it was due before. -/
structure OnBeat (s : Timers) : Prop where
  chain : (dues s).IsChain fun a b => b = a + ipTmrInterval
  next : ∀ c ∈ (dues s).getLast?, ∀ x ∈ s.nextTimeout, x.h = reassembly → x.due = c + ipTmrInterval

lemma OnBeat.keep {s' : Timers} (h : OnBeat s) (hdues : dues s' = dues s)
    (hnext : ∀ x ∈ s'.nextTimeout, x.h = reassembly → x ∈ s.nextTimeout) : OnBeat s' :=
  ⟨hdues ▸ h.chain, fun c hc x hx ht => h.next c (hdues ▸ hc) x (hnext x hx ht) ht⟩

lemma Expiry.onBeat {s' : Timers} {r : Round} (he : Expiry G b t rest r s s')
    (hbeat : G ≤ ipTmrInterval) (hs : Scheduled G b s) (hl : s.nextTimeout = t :: rest)
    (hclock : s.clock + r.elapsed ≤ b + G) (h : OnBeat s) : OnBeat s' := by
  have hmem : t ∈ s.nextTimeout := by rw [hl]; exact .head _
  cases he with
  | tcp =>
    refine h.keep ?_ fun x hx ht => ?_
    · unfold dues afterTcp tcpCalls
      split_ifs <;> simp
    · dsimp only [afterTcp] at hx
      rw [hl]
      split_ifs at hx
      · rcases (List.mem_orderedInsert _).1 hx with rfl | hx
        · cases ht
        · exact .tail _ hx
      · exact .tail _ hx
  | reassembly ht hp =>
    -- less than an interval has passed since the last check, so the timer does not start over
    have hdue : reassemblyDue t.due (s.clock + r.elapsed) = t.due + ipTmrInterval := by
      have := (hs.pending.window t hmem).1
      unfold reassemblyDue
      rw [if_neg (by omega)]
    have hdues : dues (afterReassembly t rest r s) = dues s ++ [t.due] := by
      unfold dues afterReassembly
      simp
    refine ⟨?_, fun c hc x hx heq => ?_⟩
    · rw [hdues]
      refine List.isChain_append.2 ⟨h.chain, .singleton _, fun c hc d hd => ?_⟩
      simp only [List.head?_cons, Option.mem_some_iff] at hd
      rw [← hd]
      exact h.next c hc t hmem ht
    · rw [hdues, List.getLast?_concat] at hc
      rcases (List.mem_orderedInsert _).1 hx with rfl | hx
      · rw [← Option.mem_some_iff.1 hc]
        exact hdue
      · have := hp.handlers.subset (List.mem_map_of_mem hx)
        rw [heq] at this
        split_ifs at this <;> simp [Timeouts.reassembly] at this

lemma onBeat_step {e : Event} (hG : G + ipTmrInterval < half) (hbeat : G ≤ ipTmrInterval)
    (h : OnBeat s) (hs : Scheduled G s.base s) (he : Within G s e) (hstart : e ≠ .start) :
    OnBeat (step s e) := by
  cases e with
  | elapse ms => exact h.keep rfl fun x hx _ => hx
  | tcpReg =>
    rw [hs.step_tcpReg]
    refine h.keep rfl fun x hx ht => ?_
    dsimp only at hx
    split_ifs at hx
    · exact hx
    · rcases (List.mem_orderedInsert _).1 hx with rfl | hx
      · cases ht
      · exact hx
  | tcpRmv => exact h.keep rfl fun x hx _ => hx
  | check rounds =>
    obtain ⟨-, h2, -⟩ := check_keeps hG (P := OnBeat)
      (fun u t rest r u' hu hl _ _ hclock he => he.onBeat hbeat hu hl hclock) hs he h
    exact h2.keep rfl fun x hx _ => hx
  | start => exact absurd rfl hstart

/-- While the timeouts are checked at least once a second, the reassembly is due every second on
the beat: lateness does not add up. -/
theorem reassembly_on_beat {clock : ℕ} {es : List Event}
    (hes : Runs.Along step (fun s e => Within ipTmrInterval s e ∧ e ≠ .start) (initial clock) es) :
    (dues (Runs.run step (initial clock) es)).IsChain fun a b => b = a + 1000 := by
  have hG : ipTmrInterval + ipTmrInterval < half := by decide
  have hinit : OnBeat (initial clock) := by
    refine ⟨.nil, fun c hc => ?_⟩
    cases hc
  have h := Runs.invariant step (fun s => Scheduled ipTmrInterval s.base s ∧ OnBeat s)
    (fun s e hs he => ⟨scheduled_step hG hs.1 he.1, onBeat_step hG le_rfl hs.2 hs.1 he.1 he.2⟩)
      ⟨scheduled_initial clock, hinit⟩ hes
  exact h.2.chain

theorem reassembly_on_beat_late :
    let s := Runs.run step (initial 0)
      [.elapse 900, .check [], .elapse 500, .check [⟨50, false⟩], .elapse 900, .check [],
        .elapse 900, .check []]
    (dues s).IsChain (fun a b => b = a + 1000) ∧ dues s = [1000, 2000, 3000] :=
  ⟨reassembly_on_beat (by decide), by decide⟩

end TunForge.Timeouts
