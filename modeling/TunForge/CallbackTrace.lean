import TunForge.StackRuns

/-! The order in which one connection calls its user. Blocks run in the order in
which they were posted, and the guards under which they are posted and run leave
a well-formed sequence of callbacks. -/
namespace TunForge.CallbackTrace
open PbufChain LwipTypes Tcp Connection Callbacks Boundary Termination OrdinarySteps BoundaryRule
  Lifecycle

variable {P : Type} {s t : Sys P}

/-- The user callbacks made so far, in order. -/
def callbacks (s : Sys P) : List CBlock := (s.log.trace.filter fun x => x.2 = .called).map Prod.fst

/-- `b` may come after `a`: nothing follows a termination, no data the end of the data, and the
activation follows no data. -/
def InOrder (a b : CBlock) : Prop :=
  isTermination a = false ∧ (a = .readEOF → isReadable b = false) ∧
    (b = .activated → isReadable a = false)

/-- What has been posted, against the connection's flags. -/
structure Posted (s : Sys P) : Prop where
  fresh : s.hooks = openedHooks → s.log.posted = []
  begun : s.conn.alive = true → s.log.posted ≠ []
  first : s.log.posted = [] ∨ ∃ bs, s.log.posted = .accepted :: bs ∧ .accepted ∉ bs
  new : s.conn.alive = true → s.conn.state = .new →
    s.conn.didNotifyActive = false ∧ ∀ b ∈ s.log.posted, isReadable b = false ∧ b ≠ .activated
  activated : s.log.posted.count .activated ≤ 1
  eof : s.log.posted.count .readEOF ≤ s.conn.readEOF.toNat
  order : s.log.posted.Pairwise InOrder

/-- What has been run, against what was posted: blocks run in order, and one that needs a living
connection and did not find it was followed by no other that did. -/
structure Queued (s : Sys P) : Prop where
  fifo : s.log.trace.map Prod.fst ++ s.connectionsQueue = s.log.posted
  shown : ∀ x ∈ s.log.trace, x.1 = .accepted → x.2 = .called
  missed : ∀ x ∈ s.log.trace, needsAlive x.1 = true → x.2 ≠ .called → Unattended s
  served : s.log.trace.Pairwise fun x y =>
    needsAlive x.1 = true → needsAlive y.1 = true → y.2 = .called → x.2 = .called

structure Traced (s : Sys P) : Prop where
  posted : Posted s
  queued : Queued s

/-- lwIP announces the end of the data only after it has got rid of all data. -/
def EofLast [RawApi P] (s : Sys P) : Action P → Prop
  | .recv _ => s.conn.readEOF = false
  | _ => True

lemma not_termination_of_alive (hc : Coherent s) (ha : s.conn.alive = true) :
    ∀ b ∈ s.log.posted, isTermination b = false := by
  have hzero : terminations s = 0 := by simpa [ha] using hc.once
  simpa [terminations] using hzero

lemma readEOF_of_posted (h : Posted s) (hm : CBlock.readEOF ∈ s.log.posted) :
    s.conn.readEOF = true := by
  have hpos : 0 < s.log.posted.count .readEOF := List.count_pos_iff.2 hm
  have hle := h.eof
  cases hr : s.conn.readEOF with
  | true => rfl
  | false =>
    rw [hr, Bool.toNat_false] at hle
    omega

lemma queued_posts (h : Queued s) {l : List CBlock}
    (hq : t.connectionsQueue = s.connectionsQueue ++ l) (hp : t.log.posted = s.log.posted ++ l)
    (htr : t.log.trace = s.log.trace) (hu : Unattended s → Unattended t) :
    Queued t := by
  refine ⟨?_, by rw [htr]; exact h.shown, fun x hx hn hc => ?_, by rw [htr]; exact h.served⟩
  · rw [htr, hq, hp, ← h.fifo, List.append_assoc]
  · rw [htr] at hx
    exact hu (h.missed x hx hn hc)

lemma first_append {l bs : List CBlock} (h : l = [] ∨ ∃ cs, l = .accepted :: cs ∧ .accepted ∉ cs)
    (hne : l ≠ []) (hbs : .accepted ∉ bs) :
    l ++ bs = [] ∨ ∃ cs, l ++ bs = .accepted :: cs ∧ .accepted ∉ cs := by
  rcases h with rfl | ⟨cs, rfl, hcs⟩
  · exact absurd rfl hne
  · refine .inr ⟨cs ++ bs, rfl, ?_⟩
    simp [hcs, hbs]

lemma order_append (hc : Coherent s) (ha : s.conn.alive = true) (h : s.log.posted.Pairwise InOrder)
    {bs : List CBlock} (hin : bs.Pairwise InOrder)
    (hbs : ∀ b ∈ bs, (isReadable b = true → CBlock.readEOF ∉ s.log.posted) ∧
      (b = .activated → ∀ a ∈ s.log.posted, isReadable a = false)) :
    (s.log.posted ++ bs).Pairwise InOrder := by
  refine List.pairwise_append.2
    ⟨h, hin, fun a hma b hmb => ⟨not_termination_of_alive hc ha a hma, ?_, ?_⟩⟩
  · rintro rfl
    by_contra hr
    exact (hbs b hmb).1 (by simpa using hr) hma
  · intro hb
    exact (hbs b hmb).2 hb a hma

lemma posted_frame (h : Posted s) (hh : t.hooks = s.hooks) (ha : t.conn.alive = s.conn.alive)
    (hst : t.conn.state = s.conn.state) (hn : t.conn.didNotifyActive = s.conn.didNotifyActive)
    (he : t.conn.readEOF = s.conn.readEOF) (hp : t.log.posted = s.log.posted) : Posted t := by
  obtain ⟨h1, h2, h3, h4, h5, h6, h7⟩ := h
  rw [← hp] at h3 h5 h7
  rw [← hp, ← he] at h6
  rw [← hh, ← hp] at h1
  rw [← ha, ← hp] at h2
  rw [← ha, ← hst, ← hn, ← hp] at h4
  exact ⟨h1, h2, h3, h4, h5, h6, h7⟩

lemma plain_of_ordinary {b : CBlock} (h : isHint b = true ∨ isReadable b = true) :
    b ≠ .accepted ∧ b ≠ .activated ∧ b ≠ .readEOF ∧ isTermination b = false := by
  cases b with
  | writableChanged | sentBytes | readableBytes | readable => simp [isTermination]
  | _ => rcases h with h | h <;> cases h

lemma posted_ordinary {k : Scope} (hc : Coherent s) (h : Posted s) (o : Ordinary k s t)
    (hr : k = .hints ∨ (s.conn.readEOF = false ∧ s.conn.state = .active)) : Posted t := by
  -- hints and deliveries: data is only delivered to an active connection, before the end of data
  obtain ⟨bs, -, hp, hb⟩ := o.posts
  by_cases hnil : bs = []
  · rw [hnil, List.append_nil] at hp
    exact posted_frame h o.hooks o.alive o.state o.announced o.readEOF hp
  have ha : s.conn.alive = true := by
    obtain ⟨b, hm⟩ := List.exists_mem_of_ne_nil bs hnil
    exact (hb b hm).2
  have hkind : ∀ b ∈ bs, isHint b = true ∨
      (isReadable b = true ∧ s.conn.readEOF = false ∧ s.conn.state = .active) := by
    intro b hm
    have hpost := (hb b hm).1
    cases k with
    | hints => exact .inl hpost
    | delivery =>
      simp only [Scope.posts, Bool.or_eq_true] at hpost
      exact hpost.imp_right fun hread => ⟨hread, hr.resolve_left (by simp)⟩
  have hplain : ∀ b ∈ bs, b ≠ .accepted ∧ b ≠ .activated ∧ b ≠ .readEOF ∧ isTermination b = false :=
    fun b hm => plain_of_ordinary ((hkind b hm).imp_right And.left)
  have hactivated : bs.count .activated = 0 := List.count_eq_zero.2 fun hm => (hplain _ hm).2.1 rfl
  have heof : bs.count .readEOF = 0 := List.count_eq_zero.2 fun hm => (hplain _ hm).2.2.1 rfl
  refine ⟨fun hf => ?_, fun _ => ?_, ?_, fun _ hn => ?_, ?_, ?_, ?_⟩
  · have hdead := (hc.fresh (o.hooks ▸ hf)).2.1
    rw [ha] at hdead
    cases hdead
  · simp [hp, h.begun ha]
  · rw [hp]
    exact first_append h.first (h.begun ha) fun hm => (hplain _ hm).1 rfl
  · rw [o.state] at hn
    obtain ⟨hann, hold⟩ := h.new ha hn
    refine ⟨o.announced.trans hann, fun b hm => ?_⟩
    rw [hp, List.mem_append] at hm
    rcases hm with hm | hm
    · exact hold b hm
    · refine ⟨?_, (hplain b hm).2.1⟩
      rcases hkind b hm with hh | ⟨-, -, hact⟩
      · exact isReadable_of_hint hh
      · rw [hact] at hn
        cases hn
  · rw [hp, List.count_append, hactivated]
    exact h.activated
  · rw [hp, List.count_append, heof, o.readEOF]
    exact h.eof
  · rw [hp]
    refine order_append hc ha h.order ?_ fun b hm =>
      ⟨fun hread heofm => ?_, fun hb => absurd hb (hplain b hm).2.1⟩
    · refine List.pairwise_of_forall_mem_list fun a hma b hmb => ?_
      obtain ⟨-, -, ha', hterm⟩ := hplain a hma
      exact ⟨hterm, fun he => absurd he ha', fun he => absurd he (hplain b hmb).2.1⟩
    · rcases hkind b hm with hh | ⟨-, he, -⟩
      · rw [isReadable_of_hint hh] at hread
        cases hread
      · rw [readEOF_of_posted h heofm] at he
        cases he

lemma posted_single {b : CBlock} {set : Bool} (hc : Coherent s) (h : Posted s)
    (ha : s.conn.alive = true) (hh : t.hooks = s.hooks ∨ t.hooks ≠ openedHooks)
    (hp : t.log.posted = s.log.posted ++ if set then [b] else [])
    (hb : b ≠ .accepted ∧ isReadable b = false) (hnew : t.conn.alive = true → t.conn.state = .new →
      t.conn.didNotifyActive = s.conn.didNotifyActive ∧ s.conn.state = .new ∧ b ≠ .activated)
    (hact : b = .activated → ∀ a ∈ s.log.posted, isReadable a = false ∧ a ≠ .activated)
    (heof : s.conn.readEOF.toNat + (if b = .readEOF then 1 else 0) ≤ t.conn.readEOF.toNat) :
    Posted t := by
  -- a living connection posts the end of the data, its activation or its termination
  have hopen : t.hooks ≠ openedHooks := by
    rcases hh with hh | hh
    · intro hf
      have hdead := (hc.fresh (hh ▸ hf)).2.1
      rw [ha] at hdead
      cases hdead
    · exact hh
  have hmem : ∀ x ∈ (if set then [b] else []), x = b := by
    intro x hx
    split_ifs at hx
    · simpa using hx
    · simp at hx
  refine ⟨fun hf => absurd hf hopen, fun _ => by simp [hp, h.begun ha], ?_, fun hal hn => ?_, ?_,
    ?_, ?_⟩
  · rw [hp]
    exact first_append h.first (h.begun ha) fun hm => hb.1 (hmem _ hm).symm
  · obtain ⟨hann, hsn, hne⟩ := hnew hal hn
    obtain ⟨h1, h2⟩ := h.new ha hsn
    refine ⟨hann.trans h1, fun x hx => ?_⟩
    rw [hp, List.mem_append] at hx
    rcases hx with hx | hx
    · exact h2 x hx
    · rw [hmem x hx]
      exact ⟨hb.2, hne⟩
  · rw [hp, List.count_append]
    by_cases hba : b = .activated
    · have hzero : s.log.posted.count .activated = 0 :=
        List.count_eq_zero.2 fun hm => (hact hba _ hm).2 rfl
      rw [hzero]
      split_ifs <;> simp [hba]
    · have hzero : (if set then [b] else []).count .activated = 0 :=
        List.count_eq_zero.2 fun hm => hba (hmem _ hm).symm
      rw [hzero]
      exact h.activated
  · rw [hp, List.count_append]
    have hle : (if set then [b] else []).count .readEOF ≤ if b = .readEOF then 1 else 0 := by
      split_ifs with h1 h2
      · simp [h2]
      · simp [h2]
      · simp
      · simp
    have := h.eof
    omega
  · rw [hp]
    refine order_append hc ha h.order ?_ fun x hx => ?_
    · split_ifs <;> simp
    · rw [hmem x hx]
      refine ⟨fun hr => ?_, fun hba a hma => (hact hba a hma).1⟩
      rw [hb.2] at hr
      cases hr

lemma queued_ordinary {k : Scope} (h : Queued s) (o : Ordinary k s t) : Queued t := by
  obtain ⟨bs, hq, hp, -⟩ := o.posts
  refine queued_posts h hq hp o.trace fun hu => ?_
  unfold Unattended at hu ⊢
  rwa [o.exist, o.alive]

lemma traced_ended {r : Reason} (hc : Coherent s) (h : Traced s) (ha : Attached s)
    (e : Ended r s t) : Traced t := by
  have hconn := e.conn
  refine ⟨posted_single hc h.posted ha.alive ?_ e.posted ⟨by simp, rfl⟩ ?_ (by simp) ?_, ?_⟩
  · rcases e.pcb with ⟨-, hh, -⟩ | ⟨-, hh, -⟩
    · exact .inl hh
    · exact .inr (by simp [hh, detachedHooks, openedHooks])
  · simp [hconn, closeConn, Sys.postIf]
  · simp [hconn, closeConn, Sys.postIf]
  · refine queued_posts h.queued e.queue e.posted e.trace fun _ => .inr ?_
    rw [hconn]
    rfl

lemma traced_frame (h : Traced s) (hh : t.hooks = s.hooks ∨ t.hooks ≠ openedHooks)
    (hconn : t.conn = s.conn) (hq : t.connectionsQueue = s.connectionsQueue)
    (hlog : t.log.posted = s.log.posted ∧ t.log.trace = s.log.trace)
    (hu : Unattended s → Unattended t) : Traced t := by
  refine ⟨?_, queued_posts (l := []) h.queued (by simpa using hq) (by simpa using hlog.1) hlog.2 hu⟩
  obtain ⟨h1, h2, h3, h4, h5, h6, h7⟩ := h.posted
  rw [← hconn] at h2 h4 h6
  rw [← hlog.1] at h1 h2 h3 h4 h5 h6 h7
  refine ⟨fun hf => ?_, h2, h3, h4, h5, h6, h7⟩
  rcases hh with hh | hh
  · exact h1 (hh ▸ hf)
  · exact absurd hf hh

lemma queued_ranBlock {b : CBlock} {rest : List CBlock} (h : Queued s)
    (hq : s.connectionsQueue = b :: rest) :
    Queued (runConnectionsBlock s) := by
  have hu : Unattended (runConnectionsBlock s) ↔ Unattended s := by
    rw [runConnectionsBlock_eq hq]
    rfl
  have htr : (runConnectionsBlock s).log.trace = s.log.trace ++ [(b, blockOutcome b s)] := by
    rw [runConnectionsBlock_eq hq]
  -- a block that needs a living connection is called exactly if it finds one
  have hout : needsAlive b = true → (blockOutcome b s = .called ↔ ¬ Unattended s) := by
    intro hn
    have hne : b ≠ .accepted := by
      rintro rfl
      cases hn
    unfold blockOutcome Unattended
    rw [if_neg hne, hn]
    cases s.connExists <;> cases s.conn.alive <;> simp
  refine ⟨?_, fun x hx hacc => ?_, fun x hx hn hc => ?_, ?_⟩
  · rw [htr, runConnectionsBlock_eq hq, ← h.fifo, hq]
    simp
  · rw [htr, List.mem_append, List.mem_singleton] at hx
    rcases hx with hx | rfl
    · exact h.shown x hx hacc
    · simp [blockOutcome, show b = .accepted from hacc]
  · rw [htr, List.mem_append, List.mem_singleton] at hx
    rw [hu]
    rcases hx with hx | rfl
    · exact h.missed x hx hn hc
    · by_contra hatt
      exact hc ((hout hn).2 hatt)
  · rw [htr]
    refine List.pairwise_append.2 ⟨h.served, by simp, fun x hx y hy hnx hny hcy => ?_⟩
    rw [List.mem_singleton] at hy
    subst hy
    by_contra hcx
    exact (hout hny).1 hcy (h.missed x hx hnx hcx)

section

variable [RawApi P]

lemma posted_eventRecv_of_inactive (p : Pbuf) (h : s.conn.state ≠ .active) :
    (eventRecv p s).1.log.posted = s.log.posted := by
  have hnote : ∀ arg, (noteCall .recv arg s).log.posted = s.log.posted := by
    intro arg
    unfold noteCall
    split_ifs <;> rfl
  have hallow : shouldAllowRecv (noteCall .recv s.hooks.arg s) = false := by
    simp [shouldAllowRecv, noteCall_conn, h]
  unfold eventRecv
  split
  · unfold tfTcpRecv
    dsimp only
    split_ifs
    · exact hnote _
    · exact absurd rfl ‹Err.ok ≠ Err.ok›
    · exact hnote _
    · exact hnote _
    · simp [hallow] at *
  · rfl

lemma posted_eventRecv (hc : Coherent s) (h : Posted s) (p : Pbuf) (heof : s.conn.readEOF = false) :
    Posted (eventRecv p s).1 := by
  have o : Ordinary .delivery s (eventRecv p s).1 := ordinary_eventRecv p
  by_cases hact : s.conn.state = .active
  · exact posted_ordinary hc h o (.inr ⟨heof, hact⟩)
  · exact posted_frame h o.hooks o.alive o.state o.announced o.readEOF
      (posted_eventRecv_of_inactive p hact)

omit [RawApi P] in
lemma traced_peerFIN (hc : Coherent s) (h : Traced s) (ha : Attached s) :
    Traced (handlePeerFINLocked s) := by
  unfold handlePeerFINLocked
  split_ifs with he
  · exact h
  · refine ⟨posted_single hc h.posted ha.alive (.inl rfl) rfl ⟨by simp, rfl⟩ ?_ (by simp) ?_, ?_⟩
    · exact fun _ hn => ⟨rfl, hn, by simp⟩
    · simp [Sys.postIf, he]
    · exact queued_posts h.queued rfl rfl rfl id

lemma traced_markActive (hc : Coherent s) (h : Traced s) (ha : Attached s)
    (hn : s.conn.state = .new) :
    Traced (markActive s) := by
  obtain ⟨hann, hold⟩ := h.posted.new ha.alive hn
  rw [markActive_eq ha hn]
  simp only [notifyActiveOnceLocked, Sys.callLwip, hann, Bool.false_eq_true, if_false]
  refine ⟨posted_single hc h.posted ha.alive (.inl rfl) rfl ⟨by simp, rfl⟩ ?_ (fun _ => hold) ?_,
    ?_⟩
  · simp [Sys.postIf]
  · simp [Sys.postIf]
  · exact queued_posts h.queued rfl rfl rfl id

lemma traced_accept (h : Traced s) (hf : s.hooks = openedHooks) (hp : s.pcb.isSome = true) :
    Traced (tunforgeAccept s).1 := by
  have hnil := h.posted.fresh hf
  have hfifo := h.queued.fifo
  rw [hnil, List.append_eq_nil_iff, List.map_eq_nil_iff] at hfifo
  obtain ⟨htr, hq⟩ := hfifo
  have hqueued : ∀ t : Sys P, t.log.trace = [] → t.connectionsQueue = t.log.posted → Queued t := by
    intro t h1 h2
    refine ⟨by simp [h1, h2], ?_, ?_, ?_⟩ <;> simp [h1]
  rcases tunforgeAccept_cases hf hp with ⟨-, heq⟩ | ⟨-, -, cs, -, heq⟩ | ⟨-, -, heq⟩ <;> rw [heq]
  · exact traced_frame h (.inr (by simp [detachedHooks, openedHooks])) rfl rfl ⟨rfl, rfl⟩ id
  · refine ⟨⟨?_, ?_, ?_, ?_, ?_, ?_, ?_⟩, hqueued _ ?_ ?_⟩ <;>
      simp [orphaned, lwipFreed, closeConn, Sys.postIf, Sys.callLwip, madeConnection,
        initWithTCPPcb, setupPcb, newConn, noHandlers, hnil, htr, hq]
  · refine ⟨⟨?_, ?_, ?_, ?_, ?_, ?_, ?_⟩, hqueued _ ?_ ?_⟩ <;>
      simp [Sys.post, Sys.callLwip, madeConnection, initWithTCPPcb, setupPcb, newConn,
        attachedHooks, openedHooks, isReadable, hnil, htr, hq]

lemma traced_preserved : Preserved (P := P) EofLast Coherent Traced where
  ordinary hc h o := ⟨posted_ordinary hc h.posted o (.inl rfl), queued_ordinary h.queued o⟩
  recv p hc h hok := ⟨posted_eventRecv hc h.posted p hok,
    queued_ordinary h.queued (ordinary_eventRecv p)⟩
  dropped p _ _ h _ := by
    cases p <;> exact traced_frame h (.inl rfl) rfl rfl ⟨rfl, rfl⟩ id
  peerFIN hc h ha := traced_peerFIN hc h ha
  activate hc h ha hn _ := traced_markActive hc h ha hn
  ended _ hc h ha e := traced_ended hc h ha e
  deferred _ hc h ha _ _ := by
    refine ⟨?_, queued_posts (l := []) h.queued (by simp [closingState, Sys.callLwip])
      (by simp [closingState, Sys.callLwip]) rfl id⟩
    obtain ⟨h1, h2, h3, h4, h5, h6, h7⟩ := h.posted
    exact ⟨h1, h2, h3, by simp [closingState, Sys.callLwip], h5, h6, h7⟩
  freed _ h _ _ := traced_frame h (.inr (by simp [lwipFreed, detachedHooks, openedHooks])) rfl rfl
    ⟨rfl, rfl⟩ id
  bare _ h _ := traced_frame h (.inr (by simp [detachedHooks, openedHooks])) rfl rfl ⟨rfl, rfl⟩ id
  lateErr _ _ _ h _ _ := traced_frame h (.inl rfl) rfl rfl ⟨rfl, rfl⟩ id
  released _ h _ _ := traced_frame h (.inl rfl) rfl rfl ⟨rfl, rfl⟩ fun _ => .inl rfl
  accept _ h hf hp := traced_accept h hf hp
  ranBlock b rest _ h hq := by
    refine ⟨?_, queued_ranBlock h.queued hq⟩
    rw [runConnectionsBlock_eq hq]
    exact posted_frame h.posted rfl rfl rfl rfl rfl rfl
  ranRelease _ _ _ h _ := traced_frame h (.inl rfl) rfl rfl ⟨rfl, rfl⟩ id
  ranDecision _ _ _ h _ := traced_frame h (.inl rfl) rfl rfl ⟨rfl, rfl⟩ id
  completed p o _ h _ := by
    unfold callCompletion packetsPerformAsync
    split_ifs
    all_goals exact traced_frame h (.inl rfl) rfl rfl ⟨rfl, rfl⟩ id
  answered _ _ h _ := ⟨traced_frame h (.inl rfl) rfl rfl ⟨rfl, rfl⟩ id,
    traced_frame h (.inl rfl) rfl rfl ⟨rfl, rfl⟩ id⟩
  env _ _ h := traced_frame h (.inl rfl) rfl rfl ⟨rfl, rfl⟩ id

omit [RawApi P] in
lemma traced_opened (pcb : P) (env : TfEnv) : Traced (opened pcb env) := by
  refine ⟨⟨?_, ?_, ?_, ?_, ?_, ?_, ?_⟩, ?_, ?_, ?_, ?_⟩ <;> simp [opened, emptyLog, noConn, newConn]

end

/-! ### Activation before data -/

structure Announced (s : Sys P) : Prop where
  silent : s.conn.alive = true → s.conn.state = .new → s.conn.didNotifyActive = false
  active : s.conn.alive = true → s.conn.state = .active → .activated ∈ s.log.posted
  data : ∀ b ∈ s.log.posted, isReadable b = true → .activated ∈ s.log.posted

/-- The activation handler is installed when the connection is marked active. -/
def InstalledFirst [RawApi P] (s : Sys P) : Action P → Prop
  | .app (.api .markActive) => s.conn.handlers.onActivated = true
  | _ => True

lemma announced_posts (h : Announced s) {l : List CBlock} (hp : t.log.posted = s.log.posted ++ l)
    (hbs : ∀ b ∈ l, isReadable b = true → .activated ∈ t.log.posted)
    (hsilent : t.conn.alive = true → t.conn.state = .new → t.conn.didNotifyActive = false)
    (hactive : t.conn.alive = true → t.conn.state = .active → .activated ∈ t.log.posted) :
    Announced t := by
  refine ⟨hsilent, hactive, fun b hm hr => ?_⟩
  rw [hp, List.mem_append] at hm
  rcases hm with hm | hm
  · rw [hp]
    exact List.mem_append_left _ (h.data b hm hr)
  · exact hbs b hm hr

lemma announced_frame (h : Announced s) {l : List CBlock} (hp : t.log.posted = s.log.posted ++ l)
    (hbs : ∀ b ∈ l, isReadable b = true → .activated ∈ t.log.posted)
    (ha : t.conn.alive = s.conn.alive) (hst : t.conn.state = s.conn.state)
    (hn : t.conn.didNotifyActive = s.conn.didNotifyActive) : Announced t := by
  refine announced_posts h hp hbs ?_ ?_
  · rw [ha, hst, hn]
    exact h.silent
  · rw [ha, hst, hp]
    exact fun h1 h2 => List.mem_append_left _ (h.active h1 h2)

lemma announced_same (h : Announced s) (hconn : t.conn = s.conn)
    (hp : t.log.posted = s.log.posted) : Announced t :=
  announced_frame (l := []) h (by simpa using hp) (by simp) (by rw [hconn]) (by rw [hconn])
    (by rw [hconn])

lemma not_mem_postIf {set : Bool} {b : CBlock} (hb : isReadable b = false) {Q : Prop} :
    ∀ x ∈ (if set then [b] else []), isReadable x = true → Q := by
  intro x hx hr
  split_ifs at hx
  · rw [List.mem_singleton] at hx
    simp [hx, hb] at hr
  · simp at hx

section

variable [RawApi P]

lemma announced_eventRecv (h : Announced s) (p : Pbuf) : Announced (eventRecv p s).1 := by
  have o : Ordinary .delivery s (eventRecv p s).1 := ordinary_eventRecv p
  obtain ⟨bs, -, hp, hb⟩ := o.posts
  refine announced_frame h hp (fun b hm _ => ?_) o.alive o.state o.announced
  by_cases hact : s.conn.state = .active
  · rw [hp]
    exact List.mem_append_left _ (h.active (hb b hm).2 hact)
  · have hnil : bs = [] := by simpa [posted_eventRecv_of_inactive p hact] using hp
    simp [hnil] at hm

lemma announced_markActive (h : Announced s) (ha : Attached s) (hn : s.conn.state = .new)
    (hset : s.conn.handlers.onActivated = true) : Announced (markActive s) := by
  rw [markActive_eq ha hn]
  simp only [notifyActiveOnceLocked, Sys.callLwip, h.silent ha.alive hn, Bool.false_eq_true,
    if_false]
  refine announced_posts h rfl (fun b hm hr => ?_) (by simp [Sys.postIf]) fun _ _ => ?_
  · exact not_mem_postIf rfl b hm hr
  · simp [Sys.postIf, hset]

lemma announced_preserved : Preserved (P := P) InstalledFirst Coherent Announced where
  ordinary _ h o := by
    obtain ⟨bs, -, hp, hb⟩ := o.posts
    refine announced_frame h hp (fun b hm hr => ?_) o.alive o.state o.announced
    rw [isReadable_of_hint (hb b hm).1] at hr
    cases hr
  recv p _ h _ := announced_eventRecv h p
  dropped p _ _ h _ := by
    cases p <;> exact announced_same h rfl rfl
  peerFIN _ h _ := by
    unfold handlePeerFINLocked
    split_ifs
    · exact h
    · exact announced_frame h rfl (not_mem_postIf rfl) rfl rfl rfl
  activate _ h ha hn hok := announced_markActive h ha hn hok
  ended _ _ h _ e := by
    refine announced_posts h e.posted (not_mem_postIf rfl) ?_ ?_
      <;> simp [e.conn, closeConn, Sys.postIf]
  deferred _ _ h _ _ _ := by
    refine announced_posts (l := []) h ?_ ?_ ?_ ?_ <;> simp [closingState, Sys.callLwip]
  freed _ h _ _ := announced_same h rfl rfl
  bare _ h _ := announced_same h rfl rfl
  lateErr _ _ _ h _ _ := announced_same h rfl rfl
  released _ h _ _ := announced_same h rfl rfl
  accept _ h hf hp := by
    rcases tunforgeAccept_cases hf hp with ⟨-, heq⟩ | ⟨-, -, cs, -, heq⟩ | ⟨-, -, heq⟩ <;> rw [heq]
    · exact announced_same h rfl rfl
    · refine announced_posts (l := []) h ?_ ?_ ?_ ?_ <;>
        simp [orphaned, lwipFreed, closeConn, Sys.postIf, Sys.callLwip, madeConnection,
          initWithTCPPcb, setupPcb, newConn, noHandlers]
    · refine announced_posts (l := [.accepted]) h ?_ ?_ ?_ ?_ <;>
        simp [Sys.post, Sys.callLwip, madeConnection, initWithTCPPcb, setupPcb, newConn, isReadable]
  ranBlock b rest _ h hq := by
    rw [runConnectionsBlock_eq hq]
    exact announced_same h rfl rfl
  ranRelease _ _ _ h _ := announced_same h rfl rfl
  ranDecision _ _ _ h _ := announced_same h rfl rfl
  completed p o _ h _ := by
    unfold callCompletion packetsPerformAsync
    split_ifs
    all_goals exact announced_same h rfl rfl
  answered _ _ h _ := ⟨announced_same h rfl rfl, announced_same h rfl rfl⟩
  env _ _ h := announced_same h rfl rfl

end

/-! ### The callbacks -/

lemma callbacks_sublist (h : Traced s) : (callbacks s).Sublist s.log.posted := by
  rw [← h.queued.fifo]
  exact (List.filter_sublist.map Prod.fst).trans (List.sublist_append_left _ _)

lemma callbacks_first (h : Traced s) :
    callbacks s = [] ∨ ∃ cs, callbacks s = .accepted :: cs ∧ .accepted ∉ cs := by
  rcases h.posted.first with hnil | ⟨bs, hbs, hnot⟩
  · have hsub := callbacks_sublist h
    rw [hnil, List.sublist_nil] at hsub
    exact .inl hsub
  · cases htr : s.log.trace with
    | nil => exact .inl (by simp [callbacks, htr])
    | cons x rest =>
      have hfifo := h.queued.fifo
      rw [htr, hbs, List.map_cons, List.cons_append, List.cons.injEq] at hfifo
      have hcalled := h.queued.shown x (by simp [htr]) hfifo.1
      refine .inr ⟨(rest.filter fun x => x.2 = .called).map Prod.fst, ?_, fun hm => hnot ?_⟩
      · simp [callbacks, htr, hcalled, hfifo.1]
      · rw [← hfifo.2]
        exact ((List.filter_sublist.map Prod.fst).trans (List.sublist_append_left _ _)).mem hm

lemma activated_called (h : Traced s) (ha : Announced s) {b : CBlock} (hb : b ∈ callbacks s)
    (hr : isReadable b = true) :
    .activated ∈ callbacks s := by
  -- a delivered payload was preceded by the activation, if that was posted
  simp only [callbacks, List.mem_map, List.mem_filter, decide_eq_true_eq] at hb ⊢
  obtain ⟨y, ⟨hy, hyc⟩, rfl⟩ := hb
  obtain ⟨l, r, hlr⟩ := List.append_of_mem hy
  have hposted : s.log.posted = l.map Prod.fst ++ y.1 ::
      (r.map Prod.fst ++ s.connectionsQueue) := by
    rw [← h.queued.fifo, hlr]
    simp
  have hact := ha.data y.1 (by simp [hposted]) hr
  have hneeds : needsAlive y.1 = true := by
    revert hr
    cases y.1 <;> simp [isReadable, needsAlive]
  -- no activation comes behind the payload, so it is among the blocks that ran before it
  have horder := h.posted.order
  rw [hposted, List.pairwise_append, List.pairwise_cons] at horder
  rw [hposted, List.mem_append, List.mem_cons] at hact
  rcases hact with hact | hact | hact
  · obtain ⟨x, hx, hxa⟩ := List.mem_map.1 hact
    refine ⟨x, ⟨by simp [hlr, hx], ?_⟩, hxa⟩
    have hserved := h.queued.served
    rw [hlr, List.pairwise_append] at hserved
    exact hserved.2.2 x hx y List.mem_cons_self (by rw [hxa]; rfl) hneeds hyc
  · rw [← hact] at hr
    cases hr
  · have := (horder.2.1.1 _ hact).2.2 rfl
    rw [hr] at this
    cases this

/-- The callbacks of a connection come in order: it is shown once and first; it is activated at
most once and never after data; the end of the data comes at most once with no data behind it;
its termination comes at most once with nothing behind it. If the activation handler is in place
when the connection is marked active, no data comes without the activation. -/
theorem callbacks_in_order [RawApi P] (pcb : P) (env : TfEnv) (as : List (Action P))
    (heof : Runs.Along act EofLast (opened pcb env) as) :
    let cs := callbacks (Runs.run act (opened pcb env) as)
    (cs = [] ∨ ∃ rest, cs = .accepted :: rest ∧ .accepted ∉ rest) ∧
    cs.count .activated ≤ 1 ∧ cs.count .readEOF ≤ 1 ∧ cs.countP isTermination ≤ 1 ∧
      cs.Pairwise InOrder ∧
    (Runs.Along act InstalledFirst (opened pcb env) as → (∃ b ∈ cs, isReadable b = true) →
      .activated ∈ cs) := by
  intro cs
  have hco := coherent_opened pcb env
  have htr : Traced (Runs.run act (opened pcb env) as) :=
    invariant_run traced_preserved hco (traced_opened pcb env) heof
  have hsub := callbacks_sublist htr
  refine ⟨callbacks_first htr, (hsub.count_le _).trans htr.posted.activated,
    (hsub.count_le _).trans ?_, hsub.countP_le.trans ?_, htr.posted.order.sublist hsub, ?_⟩
  · exact htr.posted.eof.trans (Bool.toNat_le _)
  · have honce := (coherent_run hco as).once
    refine honce.trans ?_
    split_ifs <;> simp
  · rintro hinst ⟨b, hb, hr⟩
    have hann : Announced (Runs.run act (opened pcb env) as) := by
      refine invariant_run announced_preserved hco ⟨?_, ?_, ?_⟩ hinst
        <;> simp [opened, noConn, newConn, emptyLog]
    exact activated_called htr hann hb hr

instance [RawApi P] (s : Sys P) : ∀ a : Action P, Decidable (EofLast s a)
  | .recv _ => inferInstanceAs (Decidable (_ = _))
  | .lwip _ | .accept | .closed | .recvErr _ _ | .sent _ | .poll | .err _ | .free | .freeThenErr _
  | .app _ => .isTrue trivial

/-- A connection is shown, activated, given a byte and told the end of the data. -/
def shortLife : List (Action (Pcb .ios)) :=
  [.accept, .app .runConnectionsBlock,
    .app (.setHandlers ⟨true, false, true, false, false, true, true⟩), .app (.api .markActive),
    .app (.api (.setInboundDeliveryEnabled true)), .recv ⟨[⟨1, [7]⟩]⟩, .closed,
    .app .runConnectionsBlock, .app .runConnectionsBlock, .app .runConnectionsBlock]

theorem callbacks_in_order_shortLife :
    Runs.Along act EofLast (StackRuns.listening .ios) shortLife ∧
    callbacks (Runs.run act (StackRuns.listening .ios) shortLife) =
      [.accepted, .activated, .readableBytes ⟨[⟨1, [7]⟩]⟩ [[7]] 1, .readEOF] ∧
    (callbacks (Runs.run act (StackRuns.listening .ios) shortLife)).Pairwise InOrder := by
  have heof : Runs.Along act EofLast (StackRuns.listening .ios) shortLife := by decide
  exact ⟨heof, by decide, (callbacks_in_order _ StackRuns.calmTf shortLife heof).2.2.2.2.1⟩

end TunForge.CallbackTrace
