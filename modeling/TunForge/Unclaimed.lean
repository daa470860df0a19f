import TunForge.WriteSignal
import TunForge.InflowEvents

/-! A connection that nobody activates: the poll callback gives it up once its time is
over, as long as the connection object is still there to be asked. -/
namespace TunForge.Unclaimed
open SerialNumber PbufChain LwipTypes TcpOut TcpIn Tcp Connection Callbacks Stack StackRuns
open Boundary Termination OrdinarySteps BoundaryRule Lifecycle PcbFrames CalmSteps InputCases
  Refinement WellFormed
open ReceiveSteps Inflow InflowSteps InflowEvents SideFrames WriteSignal

variable {o : Platform} {s : State o}

/-! ### The time of acceptance -/

lemma since_act (h : Accepted s) (a : Action (Pcb o)) :
    (act s a).conn.newStateStartMs = s.conn.newStateStartMs := by
  have hf := follows_act h.1 h.2 a
  unfold Follows at hf
  have hkeep : (aside (act s a)).since = (aside s).since := by
    rw [hf]
    split
    · rfl
    · unfold moved
      split_ifs <;> rfl
  exact hkeep

lemma since_via {t : State o} (h : Accepted s) (hv : Via (fun _ _ => True) s t) :
    Accepted t ∧ t.conn.newStateStartMs = s.conn.newStateStartMs := by
  obtain ⟨as, -, rfl⟩ := hv
  refine Runs.invariant_all act (fun t => Accepted t ∧
    t.conn.newStateStartMs = s.conn.newStateStartMs) (fun t a ht => ?_)
    ⟨h, rfl⟩ as
  exact ⟨accepted_act ht.1 a, (since_act ht.1 a).trans ht.2⟩

lemma since_step (hw : Wf s) (hh : s.hooks ≠ openedHooks) (e : Event) :
    (step s e).hooks ≠ openedHooks ∧ (step s e).conn.newStateStartMs = s.conn.newStateStartMs := by
  obtain ⟨h1, h2⟩ := since_via ⟨hw.coherent, hh⟩ (refines_boundary admits_all hw e fun _ => trivial)
  exact ⟨h1.2, h2⟩

lemma since_run (hw : Wf s) (hh : s.hooks ≠ openedHooks) (es : List Event) :
    (Runs.run step s es).conn.newStateStartMs = s.conn.newStateStartMs := by
  have hrun := Runs.invariant_all step
    (fun t => Wf t ∧ t.hooks ≠ openedHooks ∧ t.conn.newStateStartMs = s.conn.newStateStartMs)
      (fun t e ht => ?_)
    ⟨hw, hh, rfl⟩ es
  · exact hrun.2.2
  · obtain ⟨h1, h2⟩ := since_step ht.1 ht.2.1 e
    exact ⟨wf_step ht.1 e, h1, h2.trans ht.2.2⟩

lemma since_accepted (hw : Wf s) {seg : Segment} (hf : s.hooks = openedHooks)
    (ha : (step s (.segment seg)).hooks = attachedHooks) :
    (step s (.segment seg)).conn.newStateStartMs = s.env.now := by
  -- the event that has a pcb accepted reads the clock
  have hno : ∀ {t : State o}, t.hooks = openedHooks ∨ t.hooks = detachedHooks false →
      t.hooks = attachedHooks → False := by
    rintro t (h | h) h' <;> rw [h] at h' <;> cases h'
  change (tcpInput seg s).hooks = attachedHooks at ha
  change (tcpInput seg s).conn.newStateStartMs = s.env.now
  cases hp : s.pcb with
  | none =>
    rw [show tcpInput seg s = s by simp [tcpInput, hp]] at ha
    exact (hno (.inl hf) ha).elim
  | some pcb =>
    have hs : pcb.state = .synRcvd := (hw.pcb pcb hp).fresh.1 hf
    rcases tcpInput_fresh hw seg hp hs with ⟨-, -, heq⟩ | ⟨q, heq⟩ | ⟨q, w, -, -, -, -, heq⟩
    · rw [heq] at ha ⊢
      have hcu := coherent_setPcb hw.coherent hp (atAccept pcb seg)
      have hacc := tunforgeAccept_cases
        (s := ({ s with pcb := some (atAccept pcb seg) } : State o)) hf rfl
      have hcoh := coherent_accept hcu hf rfl
      rcases acceptAndProcess_cases hw seg hp hs with
        ⟨-, heq'⟩ | ⟨-, henv, heq'⟩ | ⟨-, hst, hdel, heq'⟩
      · rw [heq'] at ha
        exact (hno (.inr rfl) ha).elim
      · rw [heq'] at ha
        rcases hacc with ⟨-, h⟩ | ⟨-, -, cs, -, h⟩ | ⟨hst, hdel, -⟩
        · rw [h] at ha
          exact (hno (.inr rfl) ha).elim
        · rw [h] at ha
          exact (hno (.inr rfl) ha).elim
        · have hst' : s.env.stack = true := hst
          have hdel' : s.env.delegate = true := hdel
          simp [hst', hdel'] at henv
      · -- the connection is made, and the rest of the segment leaves its time alone
        rw [tunforgeAccept_made (s := ({ s with pcb := some (atAccept pcb seg) } : State o)) hf rfl
          hst hdel] at hcoh
        rw [heq']
        have hvia := via_inputTail
          (r := processEstablished (tcpBacklogDelayed (atAccept pcb seg)) seg) admits_all
          (s := (madeConnection ({ s with pcb := some (atAccept pcb seg) } : State o)).post
            .accepted)
          (by simp [Sys.post, madeConnection, initWithTCPPcb, setupPcb, attachedHooks])
          (by simp [Sys.post, madeConnection, initWithTCPPcb, setupPcb, Sys.callLwip]) fun _ _ =>
            trivial
        exact (since_via ⟨hcoh, fun h => hno (.inl h) rfl⟩ hvia).2
    · rw [heq] at ha
      exact (hno (.inr rfl) ha).elim
    · rw [heq] at ha
      exact (hno (.inl hf) ha).elim

/-! ### The poll that gives the connection up -/

/-- `tcp_slowtmr` polls this pcb. -/
def polls (s : State o) : Bool := s.pcb.any fun pcb =>
  decide (pcb.list = .active) && !slowtmrRemoves (tick pcb) && decide
    (s.hooks.pollInterval ≤ pcb.polltmr + 1)

/-- The pcb has been accepted, and its connection neither activated nor closed. -/
def unclaimed (s : State o) : Bool := decide (s.hooks = attachedHooks ∧ s.conn.state = .new)

lemma eventPoll_unclaimed (hc : Coherent s) (hi : s.conn.pendingClose = false)
    (hp : s.pcb.isSome = true) (hh : s.hooks = attachedHooks) (hn : s.conn.state = .new) :
    (eventPoll s).pcb = none ↔ s.connExists = true ∧ newStateTimedOut s = true := by
  -- a poll aborts an unclaimed pcb exactly if the object is there and its time is over
  obtain ⟨pcb, hpcb⟩ := Option.isSome_iff_exists.1 hp
  have ha : s.conn.alive = true := by
    by_contra hd
    rw [hc.closed_iff.2 (by simpa using hd)] at hn
    cases hn
  have hord : Ordinary .hints s (noteCall .poll .conn s) := by
    have harg : s.hooks.arg = .conn := by rw [hh]; rfl
    exact harg ▸ ordinary_noteCall .poll
  obtain ⟨hpcb', hconn, harg, henv⟩ := noteCall_same .poll .conn s
  have hpoll : eventPoll s = tfTcpPoll .conn (noteCall .poll .conn s) := by
    simp [eventPoll, hh, attachedHooks]
  rw [hpoll]
  cases he : s.connExists with
  | false =>
    have hgone : tfConnFromArg .conn (noteCall .poll .conn s) = false := by
      rw [harg]
      simp [tfConnFromArg, he]
    simp [tfTcpPoll, hgone, hpcb', hpcb]
  | true =>
    have hat : Attached (noteCall .poll .conn s) :=
      (coherent_ordinary hc hord).toAttached (hord.exist.trans he) (hord.alive.trans ha)
    have hthere : tfConnFromArg .conn (noteCall .poll .conn s) = true := by
      simp [tfConnFromArg, hat.ref, hat.held]
    have htime : newStateTimedOut (noteCall .poll .conn s) = newStateTimedOut s := by
      simp [newStateTimedOut, hconn, henv]
    unfold tfTcpPoll
    rw [if_neg (by simp [hthere, hat.alive, hat.pcb]), htime]
    cases ht : newStateTimedOut s with
    | true =>
      rw [if_pos rfl, abortLocked_of_attached hat]
      simp [lwipFreed]
    | false =>
      simp only [Bool.false_eq_true, if_false, updateWritableLocked_pendingClose,
        updateWritableLocked_pcb, noteCall_conn, noteCall_pcb, hi, hpcb]
      simp

lemma slowtmr_unclaimed (h : Sound s) (hp : polls s = true) (hu : unclaimed s = true) :
    (step s .slowtmr).pcb = none ↔ s.connExists = true ∧ newStateTimedOut s = true := by
  -- what the slow timer does to an unclaimed pcb that it polls
  obtain ⟨hh, hn⟩ := of_decide_eq_true hu
  obtain ⟨pcb, hpcb, hpoll⟩ := (Option.any_eq_true _ _).1 hp
  simp only [Bool.and_eq_true, Bool.not_eq_true', decide_eq_true_eq] at hpoll
  obtain ⟨⟨hl, hr⟩, hint⟩ := hpoll
  let q : Pcb o := { dropStaleOoseq (tick pcb) with polltmr := 0 }
  have hstep : (step s .slowtmr).pcb =
      (eventPoll ({ s with pcb := some q } : State o)).pcb.map fun pcb => if pcb.list =
        .active then tcpOutput pcb else pcb := by
    have hl' : (tick pcb).list = .active := hl
    have hint' : s.hooks.pollInterval ≤ (dropStaleOoseq (tick pcb)).polltmr + 1 := by
      unfold dropStaleOoseq
      split_ifs <;> exact hint
    change (tcpSlowtmr s).pcb = _
    have htick : (modPcb tick s).pcb = some (tick pcb) := by simp [modPcb, hpcb]
    have heq : tcpSlowtmr s = pollPcb (dropStaleOoseq (tick pcb)) (modPcb tick s) := by
      have hmod : modPcb (fun pcb : Pcb o => { pcb with ticks := pcb.ticks + 1 }) s =
        modPcb tick s := rfl
      simp only [tcpSlowtmr, hmod, htick, hl', hr, Bool.false_eq_true, if_false]
    rw [heq]
    have hint'' : (modPcb tick s).hooks.pollInterval ≤ (dropStaleOoseq (tick pcb)).polltmr + 1 :=
      hint'
    simp only [pollPcb, if_pos hint'']
    rfl
  have hc := coherent_setPcb h.wf.coherent hpcb q
  rw [hstep, Option.map_eq_none_iff]
  exact eventPoll_unclaimed hc h.idle rfl hh hn

/-- A pcb that is polled after its time is over still has its connection object. -/
def Kept (s : State o) (e : Event) : Prop :=
  e = .slowtmr → polls s = true → unclaimed s = true → newStateTimedOut s = true →
    s.connExists = true

instance (s : State o) (e : Event) : Decidable (Kept s e) := inferInstanceAs (Decidable (_ → _))

/-- A pcb accepted at one time and not activated since is aborted by a poll exactly if the reject
timeout has gone by. -/
theorem unclaimed_aborted_in_time {s₀ : State o} (h₀ : Initial s₀) {before since : List Event}
    {seg : Segment} (hes : Runs.Along step Kept s₀ (before ++ .segment seg :: since ++ [.slowtmr]))
    (hopen : (Runs.run step s₀ before).hooks = openedHooks)
    (hacc : (step (Runs.run step s₀ before) (.segment seg)).hooks = attachedHooks)
    (hu : unclaimed (Runs.run step s₀ (before ++ .segment seg :: since)) = true)
    (hp : polls (Runs.run step s₀ (before ++ .segment seg :: since)) = true)
    (hnow : (Runs.run step s₀ before).env.now ≤
      (Runs.run step s₀ (before ++ .segment seg :: since)).env.now)
    (hlimit : (Runs.run step s₀ (before ++ .segment seg :: since)).env.now <
      (Runs.run step s₀ before).env.now + 2 ^ 32) :
    (Runs.run step s₀ (before ++ .segment seg :: since ++ [.slowtmr])).pcb = none ↔
      (Runs.run step s₀ before).env.now + newStateRejectTimeoutMs ≤
        (Runs.run step s₀ (before ++ .segment seg :: since)).env.now := by
  have hsound : ∀ es, Sound (Runs.run step s₀ es) := fun es =>
    Runs.invariant_all step Sound (fun _ e h => sound_step h e) (sound_initial h₀) es
  have hkept : Kept (Runs.run step s₀ (before ++ .segment seg :: since)) .slowtmr :=
    ((Runs.along_append step).1 hes).2.1
  have hstart : (Runs.run step s₀ (before ++ .segment seg :: since)).conn.newStateStartMs =
      (Runs.run step s₀ before).env.now := by
    have hw := (hsound before).wf
    rw [Runs.run_append, Runs.run_cons, since_run (wf_step hw _) (by rw [hacc]; decide)]
    exact since_accepted hw hopen hacc
  have hlast : Runs.run step s₀ (before ++ .segment seg :: since ++ [.slowtmr]) =
      step (Runs.run step s₀ (before ++ .segment seg :: since)) .slowtmr := by
    rw [Runs.run_append]
    rfl
  rw [hlast]
  have hsnd := hsound (before ++ .segment seg :: since)
  generalize Runs.run step s₀ (before ++ .segment seg :: since) =
    s at hu hp hnow hlimit hkept hstart hsnd ⊢
  rw [slowtmr_unclaimed hsnd hp hu]
  have hnew : s.conn.state = .new := (of_decide_eq_true hu).2
  have helapsed : newStateTimedOut s = true ↔
      (Runs.run step s₀ before).env.now + newStateRejectTimeoutMs ≤ s.env.now := by
    simp only [newStateTimedOut, hnew, hstart, decide_true, Bool.true_and, decide_eq_true_eq,
      newStateRejectTimeoutMs]
    omega
  rw [← helapsed]
  exact ⟨And.right, fun ht => ⟨hkept rfl hp hu ht, ht⟩⟩

/-- The delegate keeps the object and never answers; the second tick of the slow timer polls. -/
theorem unclaimed_aborted_in_time_kept :
    Runs.Along step Kept (listening .ios) ([] ++ .segment (ackSegment 101 6511) ::
      [.app .runConnectionsBlock, .app (.env { calmTf with now := 10000 }), .slowtmr] ++
      [.slowtmr]) ∧
    (Runs.run step (listening .ios) ([] ++ .segment (ackSegment 101 6511) ::
      [.app .runConnectionsBlock, .app (.env { calmTf with now := 10000 }), .slowtmr] ++
        [.slowtmr])).pcb = none := by
  have hes : Runs.Along step Kept (listening .ios) ([] ++ .segment (ackSegment 101 6511) ::
      [.app .runConnectionsBlock, .app (.env { calmTf with now := 10000 }), .slowtmr] ++
        [.slowtmr]) := by decide +kernel
  refine ⟨hes, (unclaimed_aborted_in_time (listening_initial .ios) hes ?_ ?_ ?_ ?_ ?_ ?_).2 ?_⟩
  all_goals decide +kernel

/-- The delegate does not keep the object: the same poll finds nobody and the pcb stays. -/
theorem unclaimed_leaks : Initial (listening .ios) ∧
    let s := Runs.run step (listening .ios) [.segment (ackSegment 101 6511),
      .app .runConnectionsBlock, .app .release,
      .app (.env { calmTf with now := 10000 }), .slowtmr]
    unclaimed s = true ∧ polls s = true ∧
      (listening .ios).env.now + newStateRejectTimeoutMs ≤ s.env.now ∧
      (step s .slowtmr).pcb.isSome = true := by
  exact ⟨listening_initial .ios, by decide +kernel⟩

end TunForge.Unclaimed
