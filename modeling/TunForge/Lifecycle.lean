import TunForge.BoundaryRule

/-! The life of a connection object: its fields stay coherent through every
interaction, whatever lwIP does within the raw API contract. -/
namespace TunForge.Lifecycle
open PbufChain LwipTypes Tcp Connection Callbacks Boundary Termination OrdinarySteps BoundaryRule

variable {P : Type} {s t : Sys P}

/-! ### The primitive steps keep a connection coherent -/

lemma countP_posts {k : Scope} {bs : List CBlock} (h : ∀ b ∈ bs, k.posts b = true) :
    bs.countP isTermination = 0 := by
  refine List.countP_eq_zero.2 fun b hb => ?_
  have := h b hb
  cases k <;> cases b <;> simp_all [isTermination, Scope.posts, isHint, isReadable]

lemma accepted_mem_of_ordinary {k : Scope} (o : Ordinary k s t)
    (h : CBlock.accepted ∈ t.connectionsQueue) :
    CBlock.accepted ∈ s.connectionsQueue := by
  obtain ⟨bs, hq, -, hb⟩ := o.posts
  rw [hq] at h
  rcases List.mem_append.1 h with hm | hm
  · exact hm
  · have := (hb _ hm).1
    cases k <;> simp [Scope.posts, isHint, isReadable] at this

lemma coherent_ordinary {k : Scope} (h : Coherent s) (o : Ordinary k s t) : Coherent t := by
  obtain ⟨bs, -, hp, hb⟩ := o.posts
  obtain ⟨h1, h2, h3, h4, h5, h6, h7, h8, h9⟩ := h
  have hterm : terminations t = terminations s := by
    simp [terminations, hp, countP_posts fun b hm => (hb b hm).1]
  refine ⟨by rw [o.pcb, o.alive, h1], by rw [o.alive, o.state, h2], by rw [o.notified, o.alive, h3],
    by rw [o.pending, o.state]; exact h4, ?_, by rw [hterm, o.alive]; exact h6,
    by rw [o.hooks, o.exist, o.alive, hterm]; exact h7, by rw [o.hooks, o.isSome]; exact h8, ?_⟩
  · rw [o.exist, o.alive, o.hooks, o.ref, o.isSome]
    exact h5
  · intro hret
    rw [o.exist]
    refine h9 ?_
    rw [Retained, o.accept, o.packets.1] at hret
    exact hret.imp_left (accepted_mem_of_ordinary o)

/-- Changes that leave the connection, the pcb and the posted blocks alone keep the invariant,
as long as nothing new retains the object. -/
lemma coherent_queues (h : Coherent s) (hconn : t.conn = s.conn) (hpcb : t.pcb = s.pcb)
    (hhooks : t.hooks = s.hooks) (href : t.ref = s.ref) (hex : t.connExists = s.connExists)
    (hposted : t.log.posted = s.log.posted) (hret : Retained t → Retained s) : Coherent t := by
  obtain ⟨h1, h2, h3, h4, h5, h6, h7, h8, h9⟩ := h
  have hterm : terminations t = terminations s := by simp [terminations, hposted]
  exact ⟨by rw [hconn]; exact h1, by rw [hconn]; exact h2, by rw [hconn]; exact h3, by
    rw [hconn]; exact h4, by rw [hconn, hex, hpcb, hhooks, href]; exact h5, by
      rw [hconn, hterm]; exact h6,
    by rw [hhooks, hex, hconn, hterm]; exact h7, by rw [hhooks, hpcb]; exact h8, by
      rw [hex]; exact fun hr => h9 (hret hr)⟩

lemma coherent_popped {b : PBlock} {rest : List PBlock} (h : Coherent s)
    (hq : s.packetsQueue = b :: rest) :
    Coherent { s with packetsQueue := rest } := by
  refine coherent_queues h rfl rfl rfl rfl rfl rfl fun hr => ?_
  rcases hr with hr | hr | ⟨d, hd⟩
  · exact .inl hr
  · exact .inr (.inl hr)
  · exact .inr (.inr ⟨d, hq ▸ List.mem_cons_of_mem b hd⟩)

lemma coherent_postIf (set : Bool) {b : CBlock} (h : Coherent s) (ha : Attached s)
    (hb : isTermination b = false) : Coherent (s.postIf set b) := by
  obtain ⟨h1, h2, h3, h4, h5, h6, h7, h8, h9⟩ := h
  have hterm : terminations (s.postIf set b) = terminations s := by
    simp only [terminations, Sys.postIf, List.countP_append]
    split_ifs <;> simp [hb]
  exact ⟨h1, h2, h3, h4, h5, by rw [hterm]; exact h6, by rw [hterm]; exact h7, h8, fun _ => ha.held⟩

lemma coherent_peerFIN (h : Coherent s) (ha : Attached s) : Coherent (handlePeerFINLocked s) := by
  unfold handlePeerFINLocked
  split_ifs
  · exact h
  · obtain ⟨h1, h2, h3, h4, h5, h6, h7, h8, h9⟩ := h
    have hflag : Coherent { s with conn := { s.conn with readEOF := true } } :=
      ⟨h1, h2, h3, h4, h5, h6, h7, h8, h9⟩
    exact coherent_postIf _ hflag ⟨ha.held, ha.alive, ha.pcb, ha.notified, ha.state, ha.isSome,
      ha.hooks, ha.ref⟩ rfl

lemma markActive_eq [RawApi P] (ha : Attached s) (hn : s.conn.state = .new) :
    markActive s = notifyActiveOnceLocked
      (Sys.callLwip .backlogAccepted RawApi.backlogAccepted { s with
        conn := { s.conn with state := .active } }) := by
  simp [markActive, ha.alive, ha.pcb, hn]

lemma coherent_markActive [RawApi P] (h : Coherent s) (ha : Attached s) (hn : s.conn.state = .new) :
    Coherent (markActive s) := by
  have hact : Coherent { s with conn := { s.conn with state := .active } } := by
    obtain ⟨h1, -, h3, h4, h5, h6, h7, h8, h9⟩ := h
    refine ⟨h1, by simp [ha.alive], h3, fun hp => ?_, h5, h6, h7, h8, h9⟩
    rw [h4 hp] at hn
    cases hn
  have hcall := coherent_ordinary hact
    (ordinary_callLwip (k := .hints) (c := .backlogAccepted) RawApi.backlogAccepted (by simp))
  rw [markActive_eq ha hn]
  unfold notifyActiveOnceLocked
  split_ifs
  · exact hcall
  · obtain ⟨h1, h2, h3, h4, h5, h6, h7, h8, h9⟩ := hcall
    refine coherent_postIf _ ⟨h1, h2, h3, h4, h5, h6, h7, h8, h9⟩ ?_ rfl
    refine ⟨ha.held, ha.alive, ha.pcb, ha.notified, ?_, ?_, ha.hooks, ha.ref⟩
    · simp [Sys.callLwip]
    · simpa [Sys.callLwip] using ha.isSome

lemma coherent_ended {r : Reason} (h : Coherent s) (ha : Attached s) (e : Ended r s t) :
    Coherent t := by
  have hzero : terminations s = 0 := by simpa [ha.alive] using h.once
  have hone : terminations t ≤ 1 := by
    have ht : terminations t = terminations s +
        List.countP isTermination (if s.conn.handlers.onTerminated then [CBlock.terminated r]
          else []) := by
      simp [terminations, e.posted, closeConn, Sys.postIf]
    rw [ht, hzero]
    split_ifs <;> simp [isTermination]
  have hhooks : t.hooks = attachedHooks ∨
      (t.hooks = detachedHooks false ∧ t.pcb.isSome = false) := by
    rcases e.pcb with ⟨-, hh, -⟩ | ⟨hp, hh, -⟩
    · exact .inl (hh.trans ha.hooks)
    · exact .inr ⟨hh, by rw [hp]; rfl⟩
  have hne : t.hooks ≠ openedHooks := by
    rcases hhooks with hh | ⟨hh, -⟩ <;> simp [hh, attachedHooks, detachedHooks, openedHooks]
  have hconn := e.conn
  refine ⟨?_, ?_, ?_, ?_, ?_, ?_, fun hs => absurd hs hne, .inr hhooks,
    fun _ => e.exist.trans ha.held⟩ <;>
    simp_all [closeConn, Sys.postIf]

lemma coherent_freed (h : Coherent s) (hu : Unattended s) : Coherent (lwipFreed s) := by
  obtain ⟨h1, h2, h3, h4, -, h6, -, -, h9⟩ := h
  refine ⟨h1, h2, h3, h4, fun he ha => ?_, h6, fun hf => ?_, .inr (.inr ⟨rfl, rfl⟩), h9⟩
  · rcases hu with hu | hu
    · simp [lwipFreed, hu] at he
    · simp [lwipFreed, hu] at ha
  · simp [lwipFreed, detachedHooks, openedHooks] at hf

lemma coherent_bare (h : Coherent s) (hext : s.hooks.ext = false) :
    Coherent ({ s with pcb := none, hooks := detachedHooks false } : Sys P) := by
  obtain ⟨h1, h2, h3, h4, h5, h6, -, -, h9⟩ := h
  refine ⟨h1, h2, h3, h4, fun he ha => ?_, h6, fun hf => ?_, .inr (.inr ⟨rfl, rfl⟩), h9⟩
  · simp [(h5 he ha).2.1, attachedHooks] at hext
  · simp [detachedHooks, openedHooks] at hf

lemma coherent_deferred (h : Coherent s) (ha : Attached s) (pcb : P) :
    Coherent { closingState s with
      pcb := some pcb, conn := { (closingState s).conn with pendingClose := true } } := by
  have hc := closingState_attached ha
  obtain ⟨h1, h2, h3, h4, h5, h6, h7, h8, h9⟩ := h
  refine ⟨h1, ?_, h3, fun _ => rfl, fun _ _ => ⟨rfl, hc.hooks, hc.ref⟩, h6, h7,
    .inr (.inl hc.hooks), h9⟩
  simp [closingState, Sys.callLwip, ha.alive]

lemma coherent_released (h : Coherent s) (hcq : CBlock.accepted ∉ s.connectionsQueue)
    (hpq : ∀ b, PBlock.decision b ∉ s.packetsQueue) :
    Coherent { s with connExists := false, acceptPending := false } := by
  obtain ⟨h1, h2, h3, h4, -, h6, h7, h8, -⟩ := h
  refine ⟨h1, h2, h3, h4, fun he => by simp at he, h6, fun hf => ⟨rfl, (h7 hf).2⟩, h8, ?_⟩
  rintro (hr | hr | ⟨b, hr⟩)
  · exact absurd hr hcq
  · simp at hr
  · exact absurd hr (hpq b)

lemma coherent_ranBlock {b : CBlock} {rest : List CBlock} (h : Coherent s)
    (hq : s.connectionsQueue = b :: rest) :
    Coherent (runConnectionsBlock s) := by
  -- running a block leaves the connection alone, and retains the object only if the block did
  have hmem : CBlock.accepted ∈ rest → CBlock.accepted ∈ s.connectionsQueue := by
    intro hm
    rw [hq]
    exact List.mem_cons_of_mem _ hm
  rw [runConnectionsBlock_eq hq]
  refine coherent_queues h rfl rfl rfl rfl rfl rfl ?_
  rintro (hr | hr | ⟨a, hr⟩)
  · exact .inl (hmem hr)
  · simp only [Bool.or_eq_true, decide_eq_true_eq] at hr
    rcases hr with hr | rfl
    · exact .inr (.inl hr)
    · exact .inl (by simp [hq])
  · refine .inr (.inr ⟨a, ?_⟩)
    rcases List.mem_append.1 hr with hm | hm
    · exact hm
    · exact absurd hm (decision_notMem_sentBack _ _ _)

lemma coherent_completed [RawApi P] (h : Coherent s) (p : Pbuf) (onPackets : Bool) :
    Coherent (callCompletion p onPackets s) := by
  unfold callCompletion packetsPerformAsync
  split_ifs
  · exact coherent_queues h rfl rfl rfl rfl rfl rfl id
  · refine coherent_queues h rfl rfl rfl rfl rfl rfl ?_
    rintro (hr | hr | ⟨b, hr⟩)
    · exact .inl hr
    · exact .inr (.inl hr)
    · exact .inr (.inr ⟨b, by simpa using hr⟩)
  · exact h

/-! ### Accepting -/

section

variable [RawApi P]

lemma coherent_madeConnection (h : Coherent s) (hf : s.hooks = openedHooks)
    (hp : s.pcb.isSome = true) :
    Coherent (madeConnection s) := by
  have ha : Attached (madeConnection s) :=
    attached_initWithTCPPcb (by simpa [Sys.callLwip] using hp)
  have hzero : terminations (madeConnection s) = 0 := (h.fresh hf).2.2
  refine ⟨rfl, by simp [ha.alive, ha.state], rfl, fun hc => ?_,
    fun _ _ => ⟨ha.isSome, ha.hooks, ha.ref⟩, by
      simp [hzero], fun ho => ?_, .inr (.inl ha.hooks), fun _ => ha.held⟩
  · simp [madeConnection, initWithTCPPcb, setupPcb, newConn, Sys.callLwip] at hc
  · simp [ha.hooks, attachedHooks, openedHooks] at ho

omit [RawApi P] in
lemma not_retained_of_fresh (h : Coherent s) (hf : s.hooks = openedHooks) : ¬ Retained s := by
  intro hr
  simpa [(h.fresh hf).1] using h.retained hr

lemma coherent_orphaned (h : Coherent s) (hf : s.hooks = openedHooks)
    (cs : List (Callback × ℕ)) : Coherent (orphaned cs s) := by
  have hnr := not_retained_of_fresh h hf
  have hzero : terminations (orphaned cs s) = 0 := by
    have hs := (h.fresh hf).2.2
    simpa [terminations, orphaned, lwipFreed, closeConn, Sys.postIf, madeConnection, initWithTCPPcb,
      setupPcb, newConn, noHandlers, Sys.callLwip] using hs
  refine ⟨rfl, by simp [orphaned, lwipFreed, closeConn, Sys.postIf], rfl, fun hc => ?_,
    fun he => ?_, by simp [hzero], fun ho => ?_, .inr (.inr ⟨rfl, rfl⟩), fun hr => ?_⟩
  · simp [orphaned, lwipFreed, closeConn, Sys.postIf] at hc
  · simp [orphaned] at he
  · simp [orphaned, lwipFreed, detachedHooks, openedHooks] at ho
  · refine absurd ?_ hnr
    simpa [Retained, orphaned, lwipFreed, closeConn, Sys.postIf, madeConnection, initWithTCPPcb,
      setupPcb, newConn, noHandlers, Sys.callLwip] using hr

lemma coherent_accept (h : Coherent s) (hf : s.hooks = openedHooks) (hp : s.pcb.isSome = true) :
    Coherent (tunforgeAccept s).1 := by
  rcases tunforgeAccept_cases hf hp with ⟨-, heq⟩ | ⟨-, -, cs, -, heq⟩ | ⟨-, -, heq⟩
  · rw [heq]
    refine coherent_bare (coherent_ordinary (k := .hints) h ?_) ?_
    · exact (ordinary_callLwip _ (by simp)).trans (ordinary_callLwip _ (by simp))
    · simp [Sys.callLwip, hf, openedHooks]
  · rw [heq]
    exact coherent_orphaned h hf _
  · rw [heq]
    have ha : Attached (madeConnection s) :=
      attached_initWithTCPPcb (by simpa [Sys.callLwip] using hp)
    exact coherent_postIf true (coherent_madeConnection h hf hp) ha rfl

/-- Every primitive step keeps a connection coherent, without any condition. -/
theorem coherent_preserved (ok : Sys P → Action P → Prop) :
    Preserved ok (fun _ => True) Coherent where
  ordinary _ h o := coherent_ordinary h o
  recv _ _ h _ := coherent_ordinary h (ordinary_eventRecv _)
  dropped _ _ _ h _ := coherent_ordinary h (ordinary_freeIfSome _)
  peerFIN _ h ha := coherent_peerFIN h ha
  activate _ h ha hn _ := coherent_markActive h ha hn
  ended _ _ h ha e := coherent_ended h ha e
  deferred _ _ h ha _ _ := coherent_deferred h ha _
  freed _ h hu _ := coherent_freed h hu
  bare _ h he := coherent_bare h he
  lateErr _ _ _ h _ _ := coherent_queues h rfl rfl rfl rfl rfl rfl id
  released _ h hc hp := coherent_released h hc hp
  accept _ h hf hp := coherent_accept h hf hp
  ranBlock _ _ _ h hq := coherent_ranBlock h hq
  ranRelease _ _ _ h hq := by
    refine coherent_queues h rfl rfl rfl rfl rfl rfl ?_
    simp [Retained, performPackets, Sys.free, hq]
  ranDecision _ _ _ h hq := coherent_popped h hq
  completed p o _ h _ := coherent_completed h p o
  answered _ _ h hp := by
    have hr : Retained _ := .inr (.inl hp)
    exact ⟨coherent_queues h rfl rfl rfl rfl rfl rfl fun _ => hr,
      coherent_queues h rfl rfl rfl rfl rfl rfl fun _ => hr⟩
  env _ _ h := coherent_queues h rfl rfl rfl rfl rfl rfl id

omit [RawApi P] in
lemma coherent_opened (pcb : P) (env : TfEnv) : Coherent (opened pcb env) := by
  constructor <;> simp [opened, noConn, newConn, terminations, emptyLog, Retained]

lemma coherent_act (h : Coherent s) (a : Action P) : Coherent (act s a) :=
  keeps_act (coherent_preserved fun _ _ => True) (fun _ h => h) h trivial

lemma coherent_run (h : Coherent s) (as : List (Action P)) : Coherent (Runs.run act s as) :=
  Runs.invariant_all act Coherent (fun _ a h => coherent_act h a) h as

/-- What coherent primitive steps keep holds along every admitted run. -/
theorem invariant_run {ok : Sys P → Action P → Prop} {I : Sys P → Prop}
    (hI : Preserved ok Coherent I) (h : Coherent s) (hs : I s) {as : List (Action P)}
    (hok : Runs.Along act ok s as) : I (Runs.run act s as) :=
  (keeps_run ((coherent_preserved ok).and hI) (fun _ h => h.1) ⟨h, hs⟩ hok).2

/-! ### Whole lives -/

/-- The connection has left its pcb's fresh state, and its own state is not below `k`. -/
def PastRank (k : ℕ) (s : Sys P) : Prop := s.hooks ≠ openedHooks ∧ k ≤ s.conn.state.rank

omit [RawApi P] in
lemma pastRank_closed {k : ℕ} (hk : k ≤ 3) (hh : t.hooks ≠ openedHooks)
    (hc : t.conn.state = .closed) : PastRank k t := by
  refine ⟨hh, ?_⟩
  rw [hc]
  exact hk

omit [RawApi P] in
lemma pastRank_ordinary {k : Scope} {n : ℕ} (h : PastRank n s) (o : Ordinary k s t) :
    PastRank n t :=
  ⟨by rw [o.hooks]; exact h.1, by rw [o.state]; exact h.2⟩

lemma pastRank_preserved (ok : Sys P → Action P → Prop) (k : ℕ) (hk : k ≤ 3) :
    Preserved ok Coherent (PastRank k) where
  ordinary _ h o := pastRank_ordinary h o
  recv p _ h _ := pastRank_ordinary h (ordinary_eventRecv p)
  dropped p _ _ h _ := pastRank_ordinary h (ordinary_freeIfSome p)
  peerFIN _ h _ := by
    unfold handlePeerFINLocked
    split_ifs
    · exact h
    · exact h
  activate _ h ha hn _ := by
    rw [markActive_eq ha hn]
    have hk0 : k ≤ 0 := by simpa [hn, ConnState.rank] using h.2
    refine ⟨?_, by omega⟩
    unfold notifyActiveOnceLocked
    split_ifs
    · exact h.1
    · exact h.1
  ended r _ h ha e := by
    refine pastRank_closed hk ?_ (by rw [e.conn]; rfl)
    rcases e.pcb with ⟨-, hh, -⟩ | ⟨-, hh, -⟩
    · rw [hh]; exact h.1
    · simp [hh, detachedHooks, openedHooks]
  deferred _ _ h ha _ _ := by
    refine ⟨h.1, ?_⟩
    have h2 := h.2
    have hst := ha.state
    revert hst h2
    cases hs : (_ : Sys P).conn.state <;> simp [closingState, Sys.callLwip, ConnState.rank]
      <;> omega
  freed _ h _ _ := ⟨by simp [lwipFreed, detachedHooks, openedHooks], h.2⟩
  bare _ h _ := ⟨by simp [detachedHooks, openedHooks], h.2⟩
  lateErr _ _ _ h _ _ := h
  released _ h _ _ := h
  accept _ h hf _ := absurd hf h.1
  ranBlock b rest _ h hq := by
    rw [runConnectionsBlock_eq hq]
    exact h
  ranRelease _ _ _ h _ := h
  ranDecision _ _ _ h _ := h
  completed p o _ h _ := by
    unfold callCompletion packetsPerformAsync
    split_ifs
    all_goals exact h
  answered _ _ h _ := ⟨h, h⟩
  env _ _ h := h

lemma rank_le_run (h : Coherent s) (hh : s.hooks ≠ openedHooks) (as : List (Action P)) :
    s.conn.state.rank ≤ (Runs.run act s as).conn.state.rank := by
  have hk : s.conn.state.rank ≤ 3 := by cases s.conn.state <;> decide
  have hrun := invariant_run (pastRank_preserved (fun _ _ => True) s.conn.state.rank hk) h
    ⟨hh, le_rfl⟩
    (Runs.along_of_forall act (fun _ _ => trivial) s as)
  exact hrun.2

/-- A terminated connection answers every method call by doing nothing, except that it remembers
the delivery gate. -/
lemma apiCall_of_dead (ha : s.conn.alive = false) (c : ApiCall) :
    ∃ b, apiCall s c = { s with conn := { s.conn with recvEnabled := b } } := by
  have hself : s = { s with conn := { s.conn with recvEnabled := s.conn.recvEnabled } } := rfl
  have hwrite : ∀ bytes, (writeBytes bytes s).1 = s := by
    intro bytes
    have hg : (!s.conn.alive || !s.conn.pcb || decide (s.conn.state ≠ .active) || s.conn.writeFIN) =
        true := by
      simp [ha]
    unfold writeBytes
    rw [if_pos hg]
    split_ifs <;> rfl
  cases c with
  | setInboundDeliveryEnabled b => exact ⟨b, rfl⟩
  | writeBytes bytes => exact ⟨_, (hwrite bytes).trans hself⟩
  | writeData data =>
    refine ⟨_, Eq.trans ?_ hself⟩
    simp only [apiCall, writeData]
    split_ifs
    · rfl
    · exact hwrite data
  | _ =>
    refine ⟨_, Eq.trans ?_ hself⟩
    simp [apiCall, markActive, acknowledgeDeliveredBytes, shutdownWrite, gracefulClose,
      Connection.abort, abortLocked, ha]

lemma accepted_hooks (pcb : P) (env : TfEnv) :
    (tunforgeAccept (opened pcb env)).1.hooks ≠ openedHooks := by
  rcases tunforgeAccept_cases (s := opened pcb env) rfl rfl with
    ⟨-, heq⟩ | ⟨-, -, cs, -, heq⟩ | ⟨-, -, heq⟩ <;>
    rw [heq]
  · simp [detachedHooks, openedHooks]
  · simp [orphaned, lwipFreed, detachedHooks, openedHooks]
  · simp [madeConnection, Sys.post, initWithTCPPcb, setupPcb, attachedHooks, openedHooks]

/-- The life cycle of a connection, from its acceptance on, in any run of lwIP callbacks, method
calls, queue steps and releases, with any results of the raw API: the four signs of life agree;
a living connection's pcb exists and carries its bridge object; its state only moves forward;
at most one termination is posted; and a terminated connection does nothing any more. -/
theorem lifecycle_invariant (pcb : P) (env : TfEnv) (as : List (Action P)) :
    let s := Runs.run act (tunforgeAccept (opened pcb env)).1 as
    ((s.conn.alive = true ↔ s.conn.pcb = true) ∧ (s.conn.alive = true ↔ s.conn.state ≠ .closed) ∧
      (s.conn.alive = true ↔ s.conn.didNotifyTerminated = false)) ∧
    (s.connExists = true → s.conn.alive = true →
      s.pcb.isSome = true ∧ s.hooks.ext = true ∧ s.hooks.arg = .conn ∧ s.ref = ⟨true, true⟩) ∧
    ((∀ later, s.conn.state.rank ≤ (Runs.run act s later).conn.state.rank) ∧
      (s.conn.pendingClose = true → s.conn.state = .closing)) ∧
    terminations s ≤ 1 ∧
    (s.conn.alive = false →
      ∀ c, ∃ b, apiCall s c = { s with conn := { s.conn with recvEnabled := b } }) := by
  intro s
  have hstart : Coherent (tunforgeAccept (opened pcb env)).1 :=
    coherent_accept (coherent_opened pcb env) rfl rfl
  have hs : Coherent s := coherent_run hstart as
  have hhooks : s.hooks ≠ openedHooks := by
    have hrun := invariant_run (pastRank_preserved (fun _ _ => True) 0 (Nat.zero_le 3)) hstart
      ⟨accepted_hooks pcb env, Nat.zero_le _⟩ (Runs.along_of_forall act (fun _ _ => trivial) _ as)
    exact hrun.1
  refine ⟨⟨?_, ?_, ?_⟩, ?_, ⟨fun later => rank_le_run hs hhooks later, hs.pending⟩, ?_,
    fun ha => apiCall_of_dead ha⟩
  · rw [hs.pcb_eq]
  · rw [ne_eq, hs.closed_iff, Bool.not_eq_false]
  · rw [hs.notified_eq]
    simp
  · intro he ha
    obtain ⟨hp, hh, hr⟩ := hs.attached he ha
    refine ⟨hp, ?_, ?_, hr⟩
    · rw [hh]; rfl
    · rw [hh]; rfl
  · refine hs.once.trans ?_
    split_ifs <;> simp

end

end TunForge.Lifecycle
