import TunForge.StackRuns

/-! Who owns the bridge object between a connection and its pcb. The ext-arg
reference accounts for it while the pcb exists; only the err callback that lwIP
makes after freeing a pcb depends on the connection object still being there. -/
namespace TunForge.Ownership
open SerialNumber PbufChain LwipTypes TcpOut TcpIn Tcp Connection Callbacks Stack
open Boundary Termination OrdinarySteps BoundaryRule Lifecycle InputCases Refinement StackRuns

variable {P : Type} {s t : Sys P}

/-- How often the ext-arg reference has been taken. -/
def attaches (s : Sys P) : ℕ := s.log.lwip.count .attach

/-- The ext-arg of the pcb is the outstanding reference to the bridge object, taken at most once
and given back when the pcb goes, and every callback so far found an owner. -/
structure Owned (s : Sys P) : Prop where
  ext : s.hooks.ext = s.extHeld
  present : s.extHeld = true → s.pcb.isSome = true
  kept : s.pcb.isSome = true → s.extGiven = 0
  given : s.extGiven + s.extHeld.toNat = attaches s
  fresh : s.hooks = openedHooks → attaches s = 0
  once : attaches s ≤ 1
  calls : ∀ c ∈ s.log.calls, 1 ≤ c.2

/-- The late err callback is made only for a connection object that exists and is not released
while the pcb is being freed. -/
def LateErrOwned [RawApi P] (s : Sys P) : Action P → Prop
  | .freeThenErr gap => s.hooks.errf = true → s.connExists = true ∧ gap = false
  | _ => True

lemma owners_pos (h : Owned s) (hc : Coherent s) (harg : s.hooks.arg = .conn) : 1 ≤ s.owners := by
  have hheld : s.extHeld = true := h.ext ▸ hc.ext_or.resolve_right fun hne => hne harg
  simp [Sys.owners, hheld]

lemma owned_frame (h : Owned s) (hh : t.hooks = s.hooks) (hp : t.pcb.isSome = s.pcb.isSome)
    (he : t.extHeld = s.extHeld ∧ t.extGiven = s.extGiven) (ha : attaches t = attaches s)
    (hcalls : ∀ c ∈ t.log.calls, 1 ≤ c.2) : Owned t := by
  obtain ⟨h1, h2, h3, h4, h5, h6, -⟩ := h
  rw [← hh, ← he.1] at h1
  rw [← he.1, ← hp] at h2
  rw [← he.2, ← hp] at h3
  rw [← he.1, ← he.2, ← ha] at h4
  rw [← hh, ← ha] at h5
  exact ⟨h1, h2, h3, h4, h5, ha ▸ h6, hcalls⟩

lemma calls_of_noted {cs : List (Callback × ℕ)} (h : Owned s) (hc : Coherent s)
    (hcalls : t.log.calls = s.log.calls ++ cs)
    (hcs : ∀ c ∈ cs, c.2 = s.owners ∧ s.hooks.arg = .conn) : ∀ c ∈ t.log.calls, 1 ≤ c.2 := by
  intro c hmem
  rw [hcalls, List.mem_append] at hmem
  rcases hmem with hold | hnew
  · exact h.calls c hold
  · obtain ⟨heq, harg⟩ := hcs c hnew
    rw [heq]
    exact owners_pos h hc harg

lemma owned_ordinary {k : Scope} (h : Owned s) (hc : Coherent s) (o : Ordinary k s t) :
    Owned t := by
  obtain ⟨cs, hcalls, hcs⟩ := o.calls
  exact owned_frame h o.hooks o.isSome o.ext o.attaches (calls_of_noted h hc hcalls hcs)

lemma owned_released (h : Owned s) (hext : s.hooks.ext = true) (hp : t.pcb = none)
    (hh : t.hooks = detachedHooks false) (he : t.extHeld = false ∧ t.extGiven = s.extGiven + 1)
    (ha : attaches t = attaches s) (hcalls : ∀ c ∈ t.log.calls, 1 ≤ c.2) : Owned t := by
  have hheld : s.extHeld = true := h.ext ▸ hext
  have hgiven := h.given
  simp only [hheld, Bool.toNat_true] at hgiven
  refine ⟨by rw [hh, he.1]; rfl, by simp [he.1], by simp [hp],
    ?_, by simp [hh, detachedHooks, openedHooks], ha ▸ h.once, hcalls⟩
  rw [he.1, he.2, ha]
  simp only [Bool.toNat_false]
  omega

lemma owned_ended (h : Owned s) (hc : Coherent s) (hatt : Attached s) {r : Reason}
    (e : Ended r s t) : Owned t := by
  obtain ⟨cs, hcalls, hcs⟩ := e.calls
  have hok := calls_of_noted h hc hcalls hcs
  rcases e.pcb with ⟨hp, hh, he, hg⟩ | ⟨hp, hh, he, hg⟩
  · exact owned_frame h hh (hp.trans hatt.isSome.symm) ⟨he, hg⟩ e.attaches hok
  · exact owned_released h (by rw [hatt.hooks]; rfl) hp hh ⟨he, hg⟩ e.attaches hok

lemma connExists_tcpFree (s : Sys P) : (tcpFree s).connExists = s.connExists := by
  simp only [tcpFree, tfTcpExtargDestroy, receivedPcbDestroyed, terminateLocked,
    clearCallbackLocked, Sys.postIf, Sys.callLwip]
  split_ifs <;> rfl

section

variable [RawApi P]

lemma owned_accept (h : Owned s) (hf : s.hooks = openedHooks) (hp : s.pcb.isSome = true) :
    Owned (tunforgeAccept s).1 := by
  -- accepting takes the reference once, and gives it back at once if nobody wants the connection
  have hnone : s.extHeld = false := h.ext ▸ by rw [hf]; rfl
  have hzero := h.fresh hf
  have hgiven := h.given
  simp only [hnone, hzero, Bool.toNat_false, Nat.add_zero] at hgiven
  have hcount : s.log.lwip.count .attach = 0 := hzero
  rcases tunforgeAccept_cases hf hp with ⟨-, heq⟩ | ⟨-, -, cs, hcs, heq⟩ | ⟨-, -, heq⟩ <;> rw [heq]
  · refine ⟨hnone.symm, by simp [Sys.callLwip, hnone], by simp,
      ?_, by simp [detachedHooks, openedHooks], ?_, h.calls⟩ <;>
      simp [Sys.callLwip, attaches, hcount, hgiven, hnone]
  · refine ⟨rfl, by simp [orphaned, lwipFreed], by simp [orphaned, lwipFreed],
      ?_, by simp [orphaned, lwipFreed, detachedHooks, openedHooks], ?_, ?_⟩
    · simp [orphaned, lwipFreed, closeConn, Sys.postIf, Sys.callLwip, madeConnection,
        initWithTCPPcb, setupPcb, attaches, hcount, hgiven]
    · simp [orphaned, lwipFreed, closeConn, Sys.postIf, Sys.callLwip, madeConnection,
        initWithTCPPcb, setupPcb, attaches, hcount]
    · intro c hmem
      simp only [orphaned, List.mem_append] at hmem
      rcases hmem with hold | hnew
      · exact h.calls c hold
      · rcases hcs with rfl | rfl <;> simp_all
  · refine ⟨rfl, ?_, fun _ => hgiven,
      ?_, by simp [Sys.post, madeConnection, initWithTCPPcb, setupPcb, attachedHooks, openedHooks],
      ?_, h.calls⟩
    · simpa [Sys.post, madeConnection, initWithTCPPcb, setupPcb, Sys.callLwip] using hp
    · simp [Sys.post, madeConnection, initWithTCPPcb, setupPcb, Sys.callLwip, attaches, hcount,
        hgiven]
    · simp [Sys.post, madeConnection, initWithTCPPcb, setupPcb, Sys.callLwip, attaches, hcount]

lemma owned_markActive (h : Owned s) (ha : Attached s) (hn : s.conn.state = .new) :
    Owned (markActive s) := by
  have hcall : Owned (Sys.callLwip .backlogAccepted RawApi.backlogAccepted
      ({ s with conn := { s.conn with state := .active } } : Sys P)) :=
    owned_frame h rfl (by simp [Sys.callLwip]) ⟨rfl, rfl⟩ (by simp [attaches, Sys.callLwip]) h.calls
  rw [markActive_eq ha hn]
  unfold notifyActiveOnceLocked
  split_ifs
  · exact hcall
  · exact owned_frame hcall rfl rfl ⟨rfl, rfl⟩ rfl hcall.calls

lemma owned_preserved : Preserved (P := P) LateErrOwned Coherent Owned where
  ordinary hc h o := owned_ordinary h hc o
  recv p hc h _ := owned_ordinary h hc (ordinary_eventRecv p)
  dropped p _ hc h _ := owned_ordinary h hc (ordinary_freeIfSome p)
  peerFIN _ h _ := by
    unfold handlePeerFINLocked
    split_ifs
    · exact h
    · exact owned_frame h rfl rfl ⟨rfl, rfl⟩ rfl h.calls
  activate _ h ha hn _ := owned_markActive h ha hn
  ended _ hc h ha e := owned_ended h hc ha e
  deferred _ _ h ha _ _ := owned_frame h rfl ha.isSome.symm ⟨rfl, rfl⟩
    (by simp [attaches, closingState, Sys.callLwip]) h.calls
  freed _ h _ hext := owned_released h hext rfl rfl ⟨rfl, rfl⟩ rfl h.calls
  bare _ h hext := by
    have hheld : _ = false := h.ext.symm.trans hext
    exact ⟨hheld.symm, by simp [hheld], by simp, h.given, by simp [detachedHooks, openedHooks],
      h.once, h.calls⟩
  lateErr gap _ _ hfree hok hh := by
    obtain ⟨hex, rfl⟩ := hok (by rw [hh]; rfl)
    refine owned_frame hfree rfl rfl ⟨rfl, rfl⟩ rfl fun c hmem => ?_
    simp only [noteCall, if_true, List.mem_append, List.mem_singleton] at hmem
    rcases hmem with hold | rfl
    · exact hfree.calls c hold
    · simp [Sys.owners, afterFree, connExists_tcpFree, hex]
  released _ h _ _ := owned_frame h rfl rfl ⟨rfl, rfl⟩ rfl h.calls
  accept _ h hf hp := owned_accept h hf hp
  ranBlock b rest _ h hq := by
    rw [runConnectionsBlock_eq hq]
    exact owned_frame h rfl rfl ⟨rfl, rfl⟩ rfl h.calls
  ranRelease _ _ _ h _ := owned_frame h rfl rfl ⟨rfl, rfl⟩ rfl h.calls
  ranDecision _ _ _ h _ := owned_frame h rfl rfl ⟨rfl, rfl⟩ rfl h.calls
  completed p o _ h _ := by
    unfold callCompletion packetsPerformAsync
    split_ifs
    all_goals exact owned_frame h rfl rfl ⟨rfl, rfl⟩ rfl h.calls
  answered _ _ h _ := ⟨owned_frame h rfl rfl ⟨rfl, rfl⟩ rfl h.calls,
    owned_frame h rfl rfl ⟨rfl, rfl⟩ rfl h.calls⟩
  env _ _ h := owned_frame h rfl rfl ⟨rfl, rfl⟩ rfl h.calls

end

/-! ### The running stack -/

section

variable {o : Platform}

/-- When lwIP is about to free a pcb and then to report the abort through a callback that is still
installed, the connection object exists and its owner does not let go of it in between. -/
def lateErrOwned (s : State o) (e : Event) : Prop :=
  mayAbandon s e = true → s.hooks.errf = true → s.connExists = true ∧ s.env.releaseInGap = false

instance (s : State o) (e : Event) : Decidable (lateErrOwned s e) :=
  inferInstanceAs (Decidable (_ → _ → _))

lemma lateErrOwned_admits : Admits (o := o) LateErrOwned where
  mild _ a ha := by
    cases a with
    | freeThenErr gap => exact absurd rfl (ha gap)
    | _ => trivial
  frame s t gap hh he h := by
    simp only [LateErrOwned] at h ⊢
    rwa [hh, he]
  silent s gap hs := by simp [LateErrOwned, hs]

lemma owned_step {s : State o} (hw : Wf s) (h : Owned s) {e : Event} (he : lateErrOwned s e) :
    Owned (step s e) := by
  obtain ⟨as, has, heq⟩ := refines_boundary lateErrOwned_admits hw e he
  rw [← heq]
  exact invariant_run owned_preserved hw.coherent h has

lemma owned_opened (pcb : Pcb o) (tf : TfEnv) : Owned (opened pcb tf) :=
  ⟨rfl, by simp [opened], fun _ => rfl, rfl,
    fun _ => rfl, by simp [opened, attaches, emptyLog], by simp [opened, emptyLog]⟩

/-- Every callback with the bridge object finds an owner, and its ext-arg reference is given back
exactly when the pcb goes. -/
theorem callbacks_owned {s₀ : State o} (h₀ : Initial s₀) {es : List Event}
    (hes : Runs.Along step lateErrOwned s₀ es) :
    (∀ c ∈ (Runs.run step s₀ es).log.calls, 1 ≤ c.2) ∧ attaches (Runs.run step s₀ es) ≤ 1 ∧
    (Runs.run step s₀ es).extGiven =
      if (Runs.run step s₀ es).pcb.isSome then 0 else attaches (Runs.run step s₀ es) := by
  have hrun : Wf (Runs.run step s₀ es) ∧ Owned (Runs.run step s₀ es) := by
    refine Runs.invariant step (fun s => Wf s ∧ Owned s) (fun s e hs he => ?_)
      ⟨wf_initial h₀, ?_⟩ hes
    · exact ⟨wf_step hs.1 e, owned_step hs.1 hs.2 he⟩
    · obtain ⟨-, -, -, -, tf, pcb, -, -, rfl⟩ := h₀
      exact owned_opened pcb tf
  have h := hrun.2
  refine ⟨h.calls, h.once, ?_⟩
  split_ifs with hp
  · exact h.kept hp
  · have hnone : (Runs.run step s₀ es).extHeld = false := by
      by_contra hheld
      exact hp (h.present (by simpa using hheld))
    simpa [hnone] using h.given

/-- The owner keeps the object until the late err callback has been made. -/
theorem callbacks_owned_until_removed :
    Runs.Along step lateErrOwned (listening .ios)
      (handshake ++ [.app (.api .gracefulClose), .env { calmEnv with exhausted := true },
        .slowtmr]) ∧
    ∀ c ∈ (Runs.run step (listening .ios)
      (handshake ++ [.app (.api .gracefulClose), .env { calmEnv with exhausted := true },
        .slowtmr])).log.calls, 1 ≤ c.2 := by
  have hes : Runs.Along step lateErrOwned (listening .ios)
      (handshake ++ [.app (.api .gracefulClose), .env { calmEnv with exhausted := true },
        .slowtmr]) := by decide
  exact ⟨hes, (callbacks_owned (listening_initial .ios) hes).1⟩

/-- A closed connection is released; then lwIP gives up on the pcb and calls back without an
owner. -/
theorem late_err_without_owner : Initial (listening .ios) ∧
    (Runs.run step (listening .ios) (handshake ++
      [.app (.api .gracefulClose), .app .release, .env { calmEnv with exhausted := true },
        .slowtmr])).log.calls =
      [(.err, 0)] := by
  exact ⟨listening_initial .ios, by decide⟩

end

end TunForge.Ownership
