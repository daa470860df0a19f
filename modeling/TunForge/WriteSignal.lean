import TunForge.SideFrames
import TunForge.StackRuns

/-! The writable flag of a connection: every operation that looks at the send buffer
moves it, each move is posted, and no move is lost. -/
namespace TunForge.WriteSignal
open PbufChain LwipTypes Tcp Connection Callbacks Boundary Termination OrdinarySteps BoundaryRule
  Lifecycle SideFrames
open Stack StackRuns

variable {P : Type} [RawApi P] {s : Sys P}

/-- The callback of this pcb leads to a connection that is alive. -/
def reaches (s : Sys P) : Bool := tfConnFromArg s.hooks.arg s && s.conn.alive && s.conn.pcb

/-- The value with which an action calls `updateWritableLocked:`, if it does: sent callbacks and
polls look at the send buffer, and so does a write that succeeds, while one that would block
says NO. -/
def finds (s : Sys P) : Action P → Option Bool
  | .sent _ => if s.pcb.isSome && s.hooks.sent && reaches s then some (tfTcpWriteReady s) else none
  | .poll =>
    if s.pcb.isSome && s.hooks.poll && reaches s && !newStateTimedOut s then some
      (tfTcpWriteReady s) else none
  | .app (.api (.writeBytes bytes)) => if held s then ofWrite (writeBytes bytes s) else none
  | .app (.api (.writeData data)) => if held s then ofWrite (writeData data s) else none
  | _ => none
where
  ofWrite (r : Sys P × ℕ × WriteStatus) : Option Bool :=
    match r.2.2 with
    | .ok => some (tfTcpWriteReady r.1)
    | .wouldBlock => some false
    | _ => none

/-- What `updateWritableLocked:` does, with or without a handler installed. -/
def moved (v installed : Bool) (a : Aside) : Aside :=
  if a.writable = v then a else { a with
    writable := v, edges := a.edges ++ if installed then [v] else [] }

omit [RawApi P] in
lemma aside_updateWritableLocked (v : Bool) (s : Sys P) :
    aside (updateWritableLocked v s) = moved v s.conn.handlers.onWritableChanged (aside s) := by
  by_cases h : s.conn.writable = v
  · have h' : (aside s).writable = v := h
    simp [updateWritableLocked, moved, h, h']
  · have h' : ¬ (aside s).writable = v := h
    simp only [updateWritableLocked, moved, h, h', if_false]
    cases hw : s.conn.handlers.onWritableChanged <;> simp [aside, edges, Sys.postIf, edge]

omit [RawApi P] in
lemma noteCall_same (cb : Callback) (arg : CallbackArg) (s : Sys P) :
    (noteCall cb arg s).pcb = s.pcb ∧ (noteCall cb arg s).conn = s.conn ∧
      tfConnFromArg arg (noteCall cb arg s) = tfConnFromArg arg s ∧
      (noteCall cb arg s).env = s.env := by
  unfold noteCall
  split_ifs <;> exact ⟨rfl, rfl, rfl, rfl⟩

/-- How an action leaves the flag and its posted values. -/
def Follows (s t : Sys P) (found : Option Bool) : Prop :=
  aside t = match found with
    | none => aside s
    | some v => moved v s.conn.handlers.onWritableChanged (aside s)

lemma follows_sent (len : ℕ) (hp : s.pcb.isSome = true) :
    Follows s (eventSent len s) (finds s (.sent len)) := by
  obtain ⟨hpcb, hconn, harg, -⟩ := noteCall_same .sent s.hooks.arg s
  have hready : tfTcpWriteReady (noteCall .sent s.hooks.arg s) = tfTcpWriteReady s := by
    simp [tfTcpWriteReady, hpcb]
  have hguard : (!tfConnFromArg s.hooks.arg (noteCall .sent s.hooks.arg s) ||
      !(noteCall .sent s.hooks.arg s).conn.alive ||
      !(noteCall .sent s.hooks.arg s).conn.pcb) = !reaches s := by
    simp [reaches, hconn, harg]
  unfold Follows eventSent
  simp only [finds, hp, Bool.true_and]
  cases hs : s.hooks.sent with
  | false => simp
  | true =>
    simp only [if_true, Bool.true_and, tfTcpSent, hguard, hready]
    cases hr : reaches s with
    | false => simp
    | true =>
      simp only [Bool.not_true, Bool.false_eq_true, if_false, if_true]
      rw [aside_postIf rfl, aside_updateWritableLocked, hconn, aside_noteCall]

lemma follows_poll (hp : s.pcb.isSome = true) : Follows s (eventPoll s) (finds s .poll) := by
  obtain ⟨hpcb, hconn, harg, henv⟩ := noteCall_same .poll s.hooks.arg s
  have hready : tfTcpWriteReady (noteCall .poll s.hooks.arg s) = tfTcpWriteReady s := by
    simp [tfTcpWriteReady, hpcb]
  have htime : newStateTimedOut (noteCall .poll s.hooks.arg s) = newStateTimedOut s := by
    simp [newStateTimedOut, hconn, henv]
  have hguard : (!tfConnFromArg s.hooks.arg (noteCall .poll s.hooks.arg s) ||
      !(noteCall .poll s.hooks.arg s).conn.alive ||
      !(noteCall .poll s.hooks.arg s).conn.pcb) = !reaches s := by
    simp [reaches, hconn, harg]
  unfold Follows eventPoll
  simp only [finds, hp, Bool.true_and]
  cases hs : s.hooks.poll with
  | false => simp
  | true =>
    simp only [if_true, Bool.true_and, tfTcpPoll, hguard, hready, htime]
    cases hr : reaches s with
    | false => simp
    | true =>
      simp only [Bool.not_true, Bool.false_eq_true, if_false, Bool.true_and]
      cases ht : newStateTimedOut s with
      | true => simp
      | false =>
        simp only [Bool.false_eq_true, if_false, Bool.not_false, if_true]
        split_ifs
        · rw [aside_tryGracefulCloseLocked, aside_updateWritableLocked, hconn, aside_noteCall]
        · rw [aside_updateWritableLocked, hconn, aside_noteCall]

lemma follows_writeBytes (bytes : Bytes) :
    Follows s (writeBytes bytes s).1 (finds.ofWrite (writeBytes bytes s)) := by
  unfold Follows writeBytes
  dsimp only
  split_ifs
  · rfl
  · rfl
  · rfl
  · cases hw : s.pcb.map (RawApi.write · bytes) with
    | none => rfl
    | some r =>
      obtain ⟨pcb, err⟩ := r
      have hmoved : ∀ (v : Bool) (t : Sys P), t.conn = s.conn → aside t = aside s →
          aside (updateWritableLocked v t) = moved v s.conn.handlers.onWritableChanged
            (aside s) := by
        intro v t hc ha
        rw [aside_updateWritableLocked, hc, ha]
      have hpcb : ∀ (v : Bool) (t : Sys P), tfTcpWriteReady (updateWritableLocked v t) =
          tfTcpWriteReady t := by
        intro v t
        unfold updateWritableLocked
        split_ifs <;> rfl
      cases err with
      | ok =>
        simp only [finds.ofWrite, hpcb]
        exact hmoved _ _ rfl rfl
      | mem => exact hmoved _ _ rfl rfl
      | _ => simp [finds.ofWrite]

lemma follows_api (c : ApiCall) (hh : held s = true) :
    Follows s (apiCall s c) (finds s (.app (.api c))) := by
  cases c with
  | writeBytes bytes =>
    simp only [finds, hh, if_true]
    exact follows_writeBytes bytes
  | writeData data =>
    simp only [finds, hh, if_true, apiCall]
    unfold writeData
    split_ifs
    · rfl
    · exact follows_writeBytes data
  | markActive => exact aside_markActive s
  | setInboundDeliveryEnabled enabled => rfl
  | acknowledgeDeliveredBytes n => exact aside_acknowledge n s
  | shutdownWrite => exact aside_shutdownWrite s
  | gracefulClose => exact aside_gracefulClose s
  | abort => exact aside_abortLocked .abort s

lemma follows_app (e : AppEvent) : Follows s (appStep s e) (finds s (.app e)) := by
  cases e with
  | api c =>
    simp only [appStep]
    split_ifs with hh
    · exact follows_api c hh
    · have hnone : finds s (.app (.api c)) = none := by
        cases c <;> simp [finds, hh]
      rw [hnone]
      rfl
  | setHandlers h =>
    simp only [appStep]
    split_ifs <;> rfl
  | runConnectionsBlock => exact aside_runConnectionsBlock s
  | runPacketsBlock => exact aside_runPacketsBlock s
  | callCompletion p onPackets => exact aside_callCompletion p onPackets s
  | callAcceptHandler accept onPackets => exact aside_callAcceptHandler accept onPackets s
  | release => exact aside_releaseConnection s
  | env env => rfl

lemma follows_act (hc : Coherent s) (hh : s.hooks ≠ openedHooks) (a : Action P) :
    Follows s (act s a) (finds s a) := by
  -- what every action does to the flag of a connection that has been accepted
  cases hp : s.pcb.isSome with
  | false =>
    have hnone : ∀ a, (∀ e, a ≠ .app e) → act s a = s ∧ finds s a = none := by
      intro a ha
      cases a <;> simp_all [act, finds]
    cases a with
    | app e => exact follows_app e
    | _ =>
      rw [(hnone _ (by simp)).1, (hnone _ (by simp)).2]
      rfl
  | true =>
    have hact : ∀ a, (∀ e, a ≠ .app e) → act s a = lwipAct s a := by
      intro a ha
      cases a <;> simp_all [act]
    cases a with
    | app e => exact follows_app e
    | sent len =>
      rw [hact _ (by simp)]
      exact follows_sent len hp
    | poll =>
      rw [hact _ (by simp)]
      exact follows_poll hp
    | accept =>
      -- the pcb has been accepted already
      have harg : s.hooks.arg ≠ .stack := by
        rcases hc.hooked with h | h | ⟨h, -⟩
        · exact absurd h hh
        · simp [h, attachedHooks]
        · simp [h, detachedHooks]
      rw [hact _ (by simp)]
      simp only [lwipAct, if_neg harg]
      rfl
    | recv p =>
      rw [hact _ (by simp)]
      exact aside_eventRecv p s
    | closed =>
      rw [hact _ (by simp)]
      exact aside_eventClosed s
    | recvErr p err =>
      rw [hact _ (by simp)]
      simp only [lwipAct]
      split_ifs
      · exact (aside_tfTcpRecv _ _ _ _).trans (aside_noteCall _ _ s)
      · rfl
    | err err =>
      rw [hact _ (by simp)]
      exact aside_eventErr _ _ s
    | free =>
      rw [hact _ (by simp)]
      exact aside_tcpFree s
    | freeThenErr gap =>
      rw [hact _ (by simp)]
      exact aside_freeThenErr gap s
    | lwip f =>
      rw [hact _ (by simp)]
      rfl

/-! ### Runs -/

/-- The handler is installed whenever the flag may move. -/
def Installed (s : Sys P) (a : Action P) : Prop :=
  finds s a ≠ none → s.conn.handlers.onWritableChanged = true

/-- The posted values alternate, beginning with YES, and the last one is the flag. -/
structure Tracked (s : Sys P) : Prop where
  alternate : List.IsChain (· ≠ ·) (false :: edges s)
  last : (edges s).getLast?.getD false = s.conn.writable

omit [RawApi P] in
lemma tracked_moved {t : Sys P} {v : Bool} (h : Tracked s) (ht : aside t = moved v true (aside s)) :
    Tracked t := by
  have hedges : edges t = (aside t).edges := rfl
  have hflag : t.conn.writable = (aside t).writable := rfl
  by_cases hv : (aside s).writable = v
  · have hsame : aside t = aside s := by simpa [moved, hv] using ht
    exact ⟨by rw [hedges, hsame]; exact h.alternate, by rw [hedges, hflag, hsame]; exact h.last⟩
  · have hnew : aside t = { aside s with writable := v, edges := (aside s).edges ++ [v] } := by
      simpa [moved, hv] using ht
    refine ⟨?_, by simp [hedges, hflag, hnew]⟩
    rw [hedges, hnew]
    have hlast : ∀ b ∈ (false :: edges s).getLast?, b ≠ v := by
      intro b hb
      rw [List.getLast?_cons] at hb
      have hb' : b = s.conn.writable := by
        rw [← h.last]
        simpa using hb.symm
      rw [hb']
      exact hv
    exact List.isChain_append.2 ⟨h.alternate, by simp, fun b hb c hc => by
      have : c = v := by simpa using hc.symm
      rw [this]
      exact hlast b hb⟩

lemma tracked_act (hc : Coherent s) (hh : s.hooks ≠ openedHooks) (h : Tracked s) {a : Action P}
    (ha : Installed s a) :
    Tracked (act s a) := by
  have hf := follows_act hc hh a
  unfold Follows at hf
  cases hv : finds s a with
  | none =>
    rw [hv] at hf
    have hedges : edges (act s a) = edges s := congrArg Aside.edges hf
    have hflag : (act s a).conn.writable = s.conn.writable := congrArg Aside.writable hf
    exact ⟨by rw [hedges]; exact h.alternate, by rw [hedges, hflag]; exact h.last⟩
  | some v =>
    rw [hv] at hf
    dsimp only at hf
    rw [ha (by simp [hv])] at hf
    exact tracked_moved h hf

/-- A connection that has been accepted, or a pcb that has been given up. -/
def Accepted (s : Sys P) : Prop := Coherent s ∧ s.hooks ≠ openedHooks

lemma accepted_act (h : Accepted s) (a : Action P) : Accepted (act s a) := by
  refine ⟨coherent_act h.1 a, ?_⟩
  have hrun := invariant_run (pastRank_preserved (fun _ _ => True) 0 (Nat.zero_le 3)) h.1
    ⟨h.2, Nat.zero_le _⟩
    (Runs.along_of_forall act (fun _ _ => trivial) s [a])
  exact hrun.1

lemma accepted_opened (pcb : P) (env : TfEnv) : Accepted (tunforgeAccept (opened pcb env)).1 :=
  ⟨coherent_accept (coherent_opened pcb env) rfl rfl, accepted_hooks pcb env⟩

lemma tracked_opened (pcb : P) (env : TfEnv) : Tracked (tunforgeAccept (opened pcb env)).1 := by
  have hnone : edges (tunforgeAccept (opened pcb env)).1 = [] ∧
      (tunforgeAccept (opened pcb env)).1.conn.writable = false := by
    rcases tunforgeAccept_cases (s := opened pcb env) rfl rfl with
      ⟨-, heq⟩ | ⟨-, -, cs, -, heq⟩ | ⟨-, -, heq⟩ <;> rw [heq]
    · exact ⟨rfl, rfl⟩
    · exact ⟨rfl, rfl⟩
    · exact ⟨rfl, rfl⟩
  exact ⟨by simp [hnone.1], by simp [hnone.1, hnone.2]⟩

/-- A write that would block. -/
def blocks (s : Sys P) : Action P → Bool
  | .app (.api (.writeBytes bytes)) => held s && decide ((writeBytes bytes s).2.2 = .wouldBlock)
  | .app (.api (.writeData data)) => held s && decide ((writeData data s).2.2 = .wouldBlock)
  | _ => false

lemma finds_of_blocks {a : Action P} (h : blocks s a = true) : finds s a = some false := by
  unfold blocks at h
  split at h
  · rw [Bool.and_eq_true, decide_eq_true_eq] at h
    simp [finds, finds.ofWrite, h.1, h.2]
  · rw [Bool.and_eq_true, decide_eq_true_eq] at h
    simp [finds, finds.ofWrite, h.1, h.2]
  · cases h

lemma flag_down (h : Accepted s) (hd : s.conn.writable = false) {as : List (Action P)}
    (has : Runs.Along act (fun s a => finds s a ≠ some true) s as) :
    (Runs.run act s as).conn.writable = false := by
  -- the flag stays down while nothing finds room in the send buffer
  have hrun := Runs.invariant act (fun s => Accepted s ∧ s.conn.writable = false)
    (fun s a hs ha => ?_) ⟨h, hd⟩ has
  · exact hrun.2
  · refine ⟨accepted_act hs.1 a, ?_⟩
    have hf := follows_act hs.1.1 hs.1.2 a
    unfold Follows at hf
    have hflag : (act s a).conn.writable = (aside (act s a)).writable := rfl
    cases hv : finds s a with
    | none =>
      rw [hv] at hf
      rw [hflag, hf]
      exact hs.2
    | some v =>
      rw [hv] at hf ha
      have hv' : v = false := by simpa using ha
      rw [hflag, hf, hv']
      have hdown : (aside s).writable = false := hs.2
      simp [moved, hdown]

/-- The values posted for the writable flag alternate, beginning with YES, and end with the flag.
After a write that would block the flag is down until an operation finds room in the send
buffer, and that operation posts exactly one YES. -/
theorem writable_edges (pcb : P) (env : TfEnv) {as : List (Action P)}
    (has : Runs.Along act Installed (tunforgeAccept (opened pcb env)).1 as) :
    let s₀ := (tunforgeAccept (opened pcb env)).1
    let s := Runs.run act s₀ as
    List.IsChain (· ≠ ·) (false :: edges s) ∧ (edges s).getLast?.getD false = s.conn.writable ∧
    ∀ before write after, as = before ++ write :: after →
      blocks (Runs.run act s₀ before) write = true →
      Runs.Along act (fun s a => finds s a ≠ some true)
        (Runs.run act s₀ (before ++ [write])) after →
      s.conn.writable = false ∧
      ∀ a, Installed s a → finds s a = some true →
        edges (act s a) = edges s ++ [true] ∧ (act s a).conn.writable = true := by
  intro s₀ s
  have hrun : Accepted s ∧ Tracked s := by
    refine Runs.invariant act (fun s => Accepted s ∧ Tracked s) (fun s a h ha => ?_)
      ⟨accepted_opened pcb env, tracked_opened pcb env⟩ has
    exact ⟨accepted_act h.1 a, tracked_act h.1.1 h.1.2 h.2 ha⟩
  refine ⟨hrun.2.alternate, hrun.2.last, fun before write after has' hblock hafter => ?_⟩
  have hbefore : Accepted (Runs.run act s₀ before) :=
    Runs.invariant_all act Accepted (fun _ a h => accepted_act h a) (accepted_opened pcb env) before
  have hw := follows_act hbefore.1 hbefore.2 write
  unfold Follows at hw
  rw [finds_of_blocks hblock] at hw
  have hdown : (act (Runs.run act s₀ before) write).conn.writable = false := by
    have hflag : (act (Runs.run act s₀ before) write).conn.writable =
        (aside (act (Runs.run act s₀ before) write)).writable := rfl
    rw [hflag, hw]
    dsimp only
    unfold moved
    split_ifs with h
    · exact h
    · rfl
    · rfl
  rw [Runs.run_append] at hafter
  have hs : s = Runs.run act (act (Runs.run act s₀ before) write) after := by
    rw [show s = Runs.run act s₀ as from rfl, has', Runs.run_append]
    rfl
  have hflag : s.conn.writable = false := by
    rw [hs]
    exact flag_down (accepted_act hbefore write) hdown hafter
  refine ⟨hflag, fun a ha hfound => ?_⟩
  have hf := follows_act hrun.1.1 hrun.1.2 a
  unfold Follows at hf
  rw [hfound] at hf
  dsimp only at hf
  rw [ha (by simp [hfound])] at hf
  have hlow : (aside s).writable = false := hflag
  have hnew : aside (act s a) = { aside s with
      writable := true, edges := (aside s).edges ++ [true] } := by
    simpa [moved, hlow] using hf
  exact ⟨congrArg Aside.edges hnew, congrArg Aside.writable hnew⟩

instance (s : Sys P) (a : Action P) : Decidable (Installed s a) :=
  inferInstanceAs (Decidable (_ → _))

/-- An established pcb on a machine without memory for outgoing segments. -/
def starved : Pcb .ios := { newPcb .ios openingSyn 6510 { calmEnv with mem := false } 0 with
    state := .established }

/-- A poll announces room, a write finds no memory, and a later poll announces room again. -/
def pollWritePoll : List (Action (Pcb .ios)) :=
  [.app .runConnectionsBlock, .app (.setHandlers { noHandlers with onWritableChanged := true }),
    .app (.api .markActive), .poll, .app (.api (.writeBytes [0])), .poll]

theorem writable_edges_pollWritePoll :
    Runs.Along act Installed (tunforgeAccept (opened starved calmTf)).1 pollWritePoll ∧
    edges (Runs.run act (tunforgeAccept (opened starved calmTf)).1 pollWritePoll) =
      [true, false, true] ∧
    (Runs.run act (tunforgeAccept (opened starved calmTf)).1 pollWritePoll).conn.writable =
      true := by
  have has : Runs.Along act Installed (tunforgeAccept (opened starved calmTf)).1 pollWritePoll := by
    decide
  have hedges : edges (Runs.run act (tunforgeAccept (opened starved calmTf)).1 pollWritePoll) =
      [true, false, true] := by decide
  have hlast := (writable_edges starved calmTf has).2.1
  rw [hedges] at hlast
  exact ⟨has, hedges, hlast.symm⟩

end TunForge.WriteSignal
