import TunForge.Unclaimed

/-! What the callbacks tell lwIP about an abort: the contract of `tcp_abort` asks them to
return `ERR_ABRT` if they aborted the pcb they were called for, and never otherwise. -/
namespace TunForge.AbortProtocol
open PbufChain LwipTypes Tcp Connection Callbacks Boundary Termination OrdinarySteps BoundaryRule
  Lifecycle
open Stack StackRuns SideFrames WriteSignal Unclaimed

variable {P : Type} [RawApi P] {s t : Sys P}

/-- The callbacks that lwIP invokes for a pcb. -/
inductive Invocation
  | recv (p : Option Pbuf) (err : Err)
  | sent (len : ℕ)
  | poll
  | accept
  deriving DecidableEq

/-- A callback with its return value. `tf_tcp_sent` and `tf_tcp_poll` return `ERR_OK` at every
exit. -/
def invoke (s : Sys P) : Invocation → Sys P × Err
  | .recv p err => tfTcpRecv s.hooks.arg p err s
  | .sent len => (tfTcpSent s.hooks.arg len s, .ok)
  | .poll => (tfTcpPoll s.hooks.arg s, .ok)
  | .accept => tunforgeAccept s

/-- The callback is the one that is installed; the accept callback runs for a fresh pcb. -/
def installed (s : Sys P) : Invocation → Bool
  | .recv _ _ => decide (s.hooks.recv = .tf)
  | .sent _ => s.hooks.sent
  | .poll => s.hooks.poll
  | .accept => decide (s.hooks = openedHooks)

/-- `tcp_abort` was called between the two states, and the pcb is gone. -/
def AbortFreed (s t : Sys P) : Prop :=
  t.pcb.isSome = false ∧ s.log.lwip.count .abort < t.log.lwip.count .abort

instance (s t : Sys P) : Decidable (AbortFreed s t) := inferInstanceAs (Decidable (_ ∧ _))

def closeFails (s : Sys P) : Bool := s.pcb.any fun pcb =>
  match RawApi.close pcb with
  | .freed => false
  | .returned _ err => decide (err ≠ .ok ∧ err ≠ .mem)

/-- The invocations that abort the pcb and say that all is well: an error passed to the receive
callback, the timeout of a connection left in `New`, and a retried close that fails for good. -/
def concealed (s : Sys P) : Invocation → Bool
  | .recv _ err => reaches s && decide (err ≠ .ok)
  | .poll => reaches s && (newStateTimedOut s || (s.conn.pendingClose && closeFails s))
  | _ => false

/-! ### One invocation -/

omit [RawApi P] in
lemma not_abortFreed (h : t.pcb.isSome = true) : ¬ AbortFreed s t := by
  rintro ⟨hn, -⟩
  rw [h] at hn
  cases hn

lemma abortFreed_abortLocked (h : Attached s)
    (hc : t.log.lwip.count .abort ≤ s.log.lwip.count .abort) (r : Reason) :
    AbortFreed t (abortLocked r s) := by
  rw [abortLocked_of_attached h]
  refine ⟨rfl, ?_⟩
  simp only [lwipFreed, closeConn, Sys.postIf, Sys.callLwip, List.count_append,
    List.count_singleton]
  simp
  omega

omit [RawApi P] in
lemma attached_of_reaches (hc : Coherent s) (hr : reaches s = true) : Attached s := by
  simp only [reaches, tfConnFromArg, Bool.and_eq_true] at hr
  exact hc.toAttached hr.1.1.2 hr.1.2

omit [RawApi P] in
lemma guard_eq_not_reaches (s : Sys P) :
    (!tfConnFromArg s.hooks.arg s || !s.conn.alive || !s.conn.pcb) = !reaches s := by
  simp [reaches, Bool.not_and]

lemma recv_returns (hc : Coherent s) (hp : s.pcb.isSome = true) (p : Option Pbuf) (err : Err) :
    ((invoke s (.recv p err)).2 = .abrt ↔ AbortFreed s (invoke s (.recv p err)).1) ↔
    concealed s (.recv p err) = false := by
  have hok : ∀ {t : Sys P}, t.pcb.isSome = true → (Err.ok = .abrt ↔ AbortFreed s t) :=
    fun ht => ⟨fun h => (by cases h), fun h => absurd h (not_abortFreed ht)⟩
  have hkept : ∀ {t : Sys P}, t.pcb.isSome = true → (False ↔ AbortFreed s t) :=
    fun ht => (iff_false_intro (not_abortFreed ht)).symm
  have hfree : (freeIfSome p s).pcb.isSome = true := by cases p <;> exact hp
  simp only [invoke, concealed]
  cases hr : reaches s with
  | false =>
    simp only [tfTcpRecv, guard_eq_not_reaches, hr, Bool.not_false, if_true, Bool.false_and]
    exact iff_of_true (hok hfree) trivial
  | true =>
    have hat := attached_of_reaches hc hr
    simp only [tfTcpRecv, guard_eq_not_reaches, hr, Bool.not_true, Bool.false_eq_true, if_false,
      Bool.true_and]
    by_cases herr : err = .ok
    · simp only [herr, ne_eq, not_true_eq_false, if_false, decide_false]
      refine iff_of_true ?_ trivial
      cases p with
      | none =>
        refine hok ?_
        unfold handlePeerFINLocked
        split_ifs <;> exact hp
      | some p =>
        dsimp only
        split_ifs
        · exact hkept hp
        · exact hkept hp
        · exact hkept ((ordinary_deliver p hat.alive).isSome.trans hp)
    · simp only [herr, ne_eq, not_false_eq_true, if_true, decide_true]
      have hat' : Attached (freeIfSome p s) := by
        cases p with
        | none => exact hat
        | some p =>
          exact ⟨hat.held, hat.alive, hat.pcb, hat.notified, hat.state, hat.isSome, hat.hooks,
            hat.ref⟩
      have hsame : (freeIfSome p s).log.lwip = s.log.lwip := by cases p <;> rfl
      have hab : AbortFreed s (abortLocked .abort (freeIfSome p s)) :=
        abortFreed_abortLocked hat' (by rw [hsame]) .abort
      simp [hab]

lemma sent_returns (hp : s.pcb.isSome = true) (len : ℕ) :
    (invoke s (.sent len)).2 = .abrt ↔ AbortFreed s (invoke s (.sent len)).1 := by
  refine ⟨fun h => (by cases h), fun h => absurd h (not_abortFreed ?_)⟩
  simp only [invoke, tfTcpSent]
  split_ifs
  · exact hp
  · simp only [Sys.postIf, updateWritableLocked_pcb]
    exact hp

lemma abortFreed_retry (hat : Attached s) (hc : t.log.lwip.count .abort = s.log.lwip.count .abort) :
    AbortFreed t (tryGracefulCloseLocked s) ↔ closeFails s = true := by
  -- a retried close aborts the pcb exactly if it fails for good
  rcases tryGracefulCloseLocked_cases hat with ⟨pcb, hpcb, hcl, heq⟩ | ⟨pcb, pcb', hpcb, hcl, heq⟩ |
    ⟨pcb, pcb', hpcb, hcl, heq⟩ | ⟨pcb, pcb', err, hpcb, hcl, hok, hmem, heq⟩
  · rw [heq]
    simp [AbortFreed, closeFails, hpcb, hcl, lwipFreed, closeConn, Sys.postIf, closingState,
      Sys.callLwip, hc]
  · rw [heq]
    simp [AbortFreed, closeFails, hpcb, hcl, closeConn, Sys.postIf]
  · rw [heq]
    simp [AbortFreed, closeFails, hpcb, hcl]
  · have hret : Attached { closingState s with pcb := some pcb' } := by
      have hst := closingState_attached hat
      exact ⟨hst.held, hst.alive, hst.pcb, hst.notified, hst.state, rfl, hst.hooks, hst.ref⟩
    have hab : AbortFreed t (tryGracefulCloseLocked s) := by
      rw [heq]
      exact abortFreed_abortLocked hret (by simp [closingState, Sys.callLwip, hc]) .abort
    simp [hab, closeFails, hpcb, hcl, hok, hmem]

lemma poll_returns (hc : Coherent s) (hp : s.pcb.isSome = true) :
    ((invoke s .poll).2 = .abrt ↔ AbortFreed s (invoke s .poll).1) ↔ concealed s .poll = false := by
  have hok : ∀ {t : Sys P}, ((Err.ok = .abrt) ↔ AbortFreed s t) ↔ ¬ AbortFreed s t := by
    intro t
    simp
  simp only [invoke, concealed]
  rw [hok]
  cases hr : reaches s with
  | false =>
    simp only [tfTcpPoll, guard_eq_not_reaches, hr, Bool.not_false, if_true, Bool.false_and]
    exact iff_of_true (not_abortFreed hp) trivial
  | true =>
    have hat := attached_of_reaches hc hr
    simp only [tfTcpPoll, guard_eq_not_reaches, hr, Bool.not_true, Bool.false_eq_true, if_false,
      Bool.true_and]
    cases ht : newStateTimedOut s with
    | true =>
      have hab : AbortFreed s (abortLocked .abort s) := abortFreed_abortLocked hat le_rfl .abort
      simp [hab]
    | false =>
      have hord : Ordinary .hints s (updateWritableLocked (tfTcpWriteReady s) s) :=
        ordinary_updateWritableLocked _ hat.alive
      have hlwip : (updateWritableLocked (tfTcpWriteReady s) s).log.lwip = s.log.lwip := by
        unfold updateWritableLocked
        split_ifs <;> rfl
      have hat' : Attached (updateWritableLocked (tfTcpWriteReady s) s) :=
        (coherent_ordinary hc hord).toAttached (hord.exist.trans hat.held)
          (hord.alive.trans hat.alive)
      simp only [Bool.false_eq_true, if_false, Bool.false_or, hord.pending]
      cases hpend : s.conn.pendingClose with
      | false =>
        simp only [Bool.false_eq_true, if_false, Bool.false_and]
        exact iff_of_true (not_abortFreed (hord.isSome.trans hp)) trivial
      | true =>
        have hsame : closeFails (updateWritableLocked (tfTcpWriteReady s) s) = closeFails s := by
          simp [closeFails, updateWritableLocked_pcb]
        simp only [if_true, Bool.true_and]
        rw [abortFreed_retry hat' (by rw [hlwip]), hsame, Bool.not_eq_true]

lemma accept_returns (hf : s.hooks = openedHooks) (hp : s.pcb.isSome = true) :
    (invoke s .accept).2 = .abrt ↔ AbortFreed s (invoke s .accept).1 := by
  simp only [invoke]
  rcases tunforgeAccept_cases hf hp with ⟨-, heq⟩ | ⟨-, -, cs, -, heq⟩ | ⟨-, -, heq⟩ <;> rw [heq]
  · simp [AbortFreed, Sys.callLwip]
  · simp [AbortFreed, orphaned, lwipFreed, closeConn, Sys.postIf, madeConnection, initWithTCPPcb,
      setupPcb, Sys.callLwip]
  · simp only [reduceCtorEq, false_iff]
    refine not_abortFreed ?_
    simpa [madeConnection, initWithTCPPcb, setupPcb, Sys.post, Sys.callLwip] using hp

/-- In every state that lwIP and the application can bring about, a callback returns `ERR_ABRT`
exactly if it aborted the pcb, unless it is one of the concealed aborts. -/
theorem abort_reported_iff (pcb : P) (env : TfEnv) (as : List (Action P)) (i : Invocation) :
    let s := Runs.run act (opened pcb env) as
    s.pcb.isSome = true → installed s i = true →
      (((invoke s i).2 = .abrt ↔ AbortFreed s (invoke s i).1) ↔ concealed s i = false) := by
  intro s hp hi
  have hc : Coherent s := coherent_run (coherent_opened pcb env) as
  cases i with
  | recv p err => exact recv_returns hc hp p err
  | sent len => exact iff_of_true (sent_returns hp len) rfl
  | poll => exact poll_returns hc hp
  | accept => exact iff_of_true (accept_returns (of_decide_eq_true hi) hp) rfl

/-- The accept callback without a delegate. -/
theorem abort_reported_iff_rejected :
    concealed (opened starved { calmTf with delegate := false }) .accept = false ∧
    ((invoke (opened starved { calmTf with delegate := false }) .accept).2 = .abrt ↔
      AbortFreed (opened starved { calmTf with delegate := false })
        (invoke (opened starved { calmTf with delegate := false }) .accept).1) :=
  ⟨rfl, (abort_reported_iff starved { calmTf with delegate := false } [] .accept (by decide)
    (by decide)).2 rfl⟩

/-- The poll that finds a connection left in `New` for too long aborts the pcb and returns
`ERR_OK`. -/
theorem abort_concealed : Initial (listening .ios) ∧
    let s := Runs.run step (listening .ios) [.segment (ackSegment 101 6511),
      .app .runConnectionsBlock,
      .app (.env { calmTf with now := 10000 }), .slowtmr]
    polls s = true ∧ installed s .poll = true ∧ AbortFreed s (invoke s .poll).1 ∧
      (invoke s .poll).2 = .ok := by
  exact ⟨listening_initial .ios, by decide⟩

end TunForge.AbortProtocol
