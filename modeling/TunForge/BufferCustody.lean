import TunForge.StackRuns

/-! What becomes of a received chain. TunForge frees what it has taken exactly
once, whichever of the blocks and completions that pass it on gets to run. -/
namespace TunForge.BufferCustody
open PbufChain LwipTypes Tcp Connection Callbacks Boundary Termination OrdinarySteps BoundaryRule
  Lifecycle

variable {P : Type} {s t : Sys P} {p q : Pbuf} {n m k : ℕ}

def holds (p : Pbuf) : CBlock → Bool
  | .readableBytes q _ _ => decide (q = p)
  | _ => false

/-- How often TunForge has `p` in hand: in a delivery block that has not run, with a handler that
has not called its completion, or in a block that will free it. -/
def held (p : Pbuf) (s : Sys P) : ℕ :=
  s.connectionsQueue.countP (holds p) + s.completions.count p + s.packetsQueue.count (.release p)

/-- `p` has been freed or is in hand `n` times in all, and its slices `m` times, of which `k` were
freed at some earlier point. -/
structure Custody (p : Pbuf) (n m k : ℕ) (s : Sys P) : Prop where
  chain : s.log.freed.count (.pbuf p) + held p s = n
  slices : s.log.freed.count (.slices p) + held p s = m
  earlier : k ≤ s.log.freed.count (.slices p)

/-- lwIP does not pass `p` in. -/
def NotAgain [RawApi P] (p : Pbuf) (_ : Sys P) : Action P → Prop
  | .recv q => q ≠ p
  | .recvErr q _ => q ≠ some p
  | _ => True

lemma custody_frame (h : Custody p n m k s) (hf : t.log.freed = s.log.freed)
    (hh : held p t = held p s) :
    Custody p n m k t := by
  obtain ⟨h1, h2, h3⟩ := h
  rw [← hf] at h1 h2 h3
  rw [← hh] at h1 h2
  exact ⟨h1, h2, h3⟩

lemma held_posts {l : List CBlock} (hq : t.connectionsQueue = s.connectionsQueue ++ l)
    (hbs : ∀ b ∈ l, holds p b = false)
    (hp : t.packetsQueue = s.packetsQueue ∧ t.completions = s.completions) :
    held p t = held p s := by
  have hzero : l.countP (holds p) = 0 := by
    rw [List.countP_eq_zero]
    intro b hm
    simp [hbs b hm]
  simp only [held, hq, hp.1, hp.2, List.countP_append, hzero, Nat.add_zero]

lemma holds_of_hint {b : CBlock} (hb : isHint b = true) : holds p b = false := by
  cases b <;> simp_all [isHint, holds]

lemma held_of_hints (o : Ordinary .hints s t) : held p t = held p s := by
  obtain ⟨bs, hq, -, hb⟩ := o.posts
  exact held_posts hq (fun b hm => holds_of_hint (hb b hm).1) o.packets

lemma held_postIf {set : Bool} {b : CBlock} (hb : holds p b = false)
    (hq : t.connectionsQueue = s.connectionsQueue ++ if set then [b] else [])
    (hp : t.packetsQueue = s.packetsQueue ∧ t.completions = s.completions) :
    held p t = held p s := by
  refine held_posts hq (fun x hx => ?_) hp
  split_ifs at hx
  · rw [List.mem_singleton] at hx
    rw [hx, hb]
  · simp at hx

lemma held_ended {r : Reason} (e : Ended r s t) : held p t = held p s :=
  held_postIf rfl e.queue e.packets

lemma custody_other_freed (h : Custody p n m k s) (hne : q ≠ p)
    (hf : t.log.freed = s.log.freed ++ [.pbuf q]) (hh : held p t = held p s) :
    Custody p n m k t := by
  obtain ⟨h1, h2, h3⟩ := h
  refine ⟨?_, ?_, ?_⟩
  · rw [hf, hh, List.count_append]
    simpa [hne] using h1
  · rw [hf, hh, List.count_append]
    simpa using h2
  · rw [hf, List.count_append]
    omega

/-! ### One call of the receive callback -/

section

variable [RawApi P]

/-- `tf_tcp_recv` for a payload allocates the slice array and posts it with the chain. -/
def slicesAllocated (arg : CallbackArg) (p : Pbuf) (err : Err) (s : Sys P) : Bool :=
  tfConnFromArg arg s && s.conn.alive && s.conn.pcb && decide (err = .ok) &&
    decide (p.totLen ≠ 0) &&
    shouldAllowRecv s && s.conn.handlers.onReadableBytes && s.env.malloc

/-- The chain is refused and left alone, freed at once, or posted with its slices. -/
inductive Received (p : Pbuf) (s : Sys P) : Bool → Sys P × Err → Prop
  | refused {t : Sys P} (hf : t.log.freed = s.log.freed)
      (hq : t.connectionsQueue = s.connectionsQueue)
      (hp : t.packetsQueue = s.packetsQueue ∧ t.completions = s.completions) :
      Received p s false (t, .mem)
  | freed {t : Sys P} (hf : t.log.freed = s.log.freed ++ [.pbuf p])
      (hh : ∀ q, held q t = held q s) :
      Received p s false (t, .ok)
  | posted {t : Sys P} (hf : t.log.freed = s.log.freed)
      (hq : t.connectionsQueue = s.connectionsQueue ++ [.readableBytes p p.payloads p.totLen])
      (hp : t.packetsQueue = s.packetsQueue ∧ t.completions = s.completions) :
      Received p s true (t, .ok)

lemma received_deliver (p : Pbuf) (s : Sys P) :
    Received p s (s.conn.handlers.onReadableBytes && s.env.malloc) (deliver p s, .ok) := by
  simp only [deliver]
  have hhandlers : (updateInflightAckBytes p.totLen s).conn.handlers = s.conn.handlers := rfl
  have henv : (updateInflightAckBytes p.totLen s).env = s.env := rfl
  rw [hhandlers, henv]
  split_ifs with hb hm hr hm'
  · rw [hb, hm]
    exact .posted rfl rfl ⟨rfl, rfl⟩
  · rw [Bool.eq_false_iff.2 hm, Bool.and_false]
    exact .freed rfl fun _ => rfl
  · rw [Bool.eq_false_iff.2 hb, Bool.false_and]
    have o : Ordinary .hints ((updateInflightAckBytes p.totLen s).free (.pbuf p))
        (acknowledgeDeliveredBytes p.totLen ((updateInflightAckBytes p.totLen s).free (.pbuf p))) :=
          ordinary_acknowledge _
    refine .freed (o.freed rfl) fun q => ?_
    have hh := held_of_hints (p := q) o
    rw [show held q s = held q ((updateInflightAckBytes p.totLen s).free (.pbuf p)) from rfl, ← hh]
    exact held_posts (l := [.readable (p.copyPartial p.totLen 0)]) rfl (by simp [holds]) ⟨rfl, rfl⟩
  · rw [Bool.eq_false_iff.2 hb, Bool.false_and]
    exact .freed rfl fun _ => rfl
  · rw [Bool.eq_false_iff.2 hb, Bool.false_and]
    exact .freed rfl fun _ => rfl

lemma received_tfTcpRecv (hc : Coherent s) (arg : CallbackArg) (p : Pbuf) (err : Err) :
    Received p s (slicesAllocated arg p err s) (tfTcpRecv arg (some p) err s) := by
  unfold tfTcpRecv
  dsimp only
  split_ifs with hg herr hlen hallow
  · have hno : slicesAllocated arg p err s = false := by
      simp only [Bool.or_eq_true, Bool.not_eq_true'] at hg
      rcases hg with (hg | hg) | hg <;> simp [slicesAllocated, hg]
    rw [hno]
    exact .freed rfl fun _ => rfl
  · have hno : slicesAllocated arg p err s = false := by simp [slicesAllocated, herr]
    rw [hno]
    have ha := attached_of_guard (fun _ h => h) hc hg
    have ha' : Attached (freeIfSome (some p) s) :=
      ⟨ha.held, ha.alive, ha.pcb, ha.notified, ha.state, ha.isSome, ha.hooks, ha.ref⟩
    have e := ended_abortLocked ha' .abort
    exact .freed e.freed fun q => (held_ended e).trans rfl
  · have hno : slicesAllocated arg p err s = false := by simp [slicesAllocated, hlen]
    rw [hno]
    exact .freed rfl fun _ => rfl
  · have hno : slicesAllocated arg p err s = false := by
      simp [slicesAllocated, show shouldAllowRecv s = false by simpa using hallow]
    rw [hno]
    exact .refused rfl rfl ⟨rfl, rfl⟩
  · have hyes : slicesAllocated arg p err s =
        (s.conn.handlers.onReadableBytes && s.env.malloc) := by
      simp only [Bool.or_eq_true, Bool.not_eq_true', not_or, Bool.not_eq_false, ne_eq,
        not_not] at hg herr hallow
      simp [slicesAllocated, hg, herr, hlen, hallow]
    rw [hyes]
    exact received_deliver p s

lemma custody_eventRecv (hc : Coherent s) (h : Custody p n m k s) (hne : q ≠ p) :
    Custody p n m k (eventRecv q s).1 := by
  unfold eventRecv
  split
  · have o : Ordinary .hints s (noteCall .recv s.hooks.arg s) := ordinary_noteCall .recv
    have hn : Custody p n m k (noteCall .recv s.hooks.arg s) :=
      custody_frame h (o.freed rfl) (held_of_hints o)
    have hr := received_tfTcpRecv (coherent_ordinary hc o) s.hooks.arg q .ok
    revert hr
    generalize tfTcpRecv s.hooks.arg (some q) .ok (noteCall .recv s.hooks.arg s) = res
    generalize slicesAllocated s.hooks.arg q .ok (noteCall .recv s.hooks.arg s) = b
    intro hr
    cases hr with
    | refused hf hq hp =>
      exact custody_frame hn hf (held_posts (l := []) (by simpa using hq) (by simp) hp)
    | freed hf hh => exact custody_other_freed hn hne hf (hh p)
    | posted hf hq hp => exact custody_frame hn hf (held_posts hq (by simp [holds, hne]) hp)
  · exact custody_frame h rfl rfl

omit [RawApi P] in
lemma held_ranBlock {b : CBlock} {rest : List CBlock} (hq : s.connectionsQueue = b :: rest) :
    held p (runConnectionsBlock s) = held p s := by
  rw [runConnectionsBlock_eq hq]
  simp only [held, hq, List.countP_cons, List.count_append]
  cases b with
  | readableBytes q slices tot =>
    cases blockOutcome (.readableBytes q slices tot) s <;> by_cases hqp : q =
      p <;> simp [passedOn, sentBack, holds, hqp] <;> omega
  | _ => simp [passedOn, sentBack, holds]

omit [RawApi P] in
lemma custody_release (h : Custody p n m k s)
    (hf : t.log.freed = s.log.freed ++ [.slices q, .pbuf q])
    (hh : held p t + (if q = p then 1 else 0) = held p s) : Custody p n m k t := by
  obtain ⟨h1, h2, h3⟩ := h
  have hchain : t.log.freed.count (.pbuf p) = s.log.freed.count (.pbuf p) + if q = p then 1
      else 0 := by
    by_cases hqp : q = p <;> simp [hf, hqp]
  have hslices : t.log.freed.count (.slices p) = s.log.freed.count (.slices p) + if q = p then 1
      else 0 := by
    by_cases hqp : q = p <;> simp [hf, hqp]
  refine ⟨?_, ?_, ?_⟩ <;> omega

lemma custody_completed (h : Custody p n m k s) (hm : q ∈ s.completions) (onPackets : Bool) :
    Custody p n m k (callCompletion q onPackets s) := by
  have herase : (s.completions.erase q).count p + (if q = p then 1 else 0) =
      s.completions.count p := by
    by_cases hqp : q = p
    · subst hqp
      have hpos : 0 < s.completions.count q := List.count_pos_iff.2 hm
      rw [List.count_erase_self, if_pos rfl]
      omega
    · rw [List.count_erase_of_ne (Ne.symm hqp), if_neg hqp, Nat.add_zero]
  unfold callCompletion packetsPerformAsync
  rw [if_pos hm]
  split_ifs
  · refine custody_release h (q := q) (by simp [performPackets, Sys.free]) ?_
    simp only [held, performPackets, Sys.free]
    omega
  · refine custody_frame h rfl ?_
    by_cases hqp : q = p <;> simp [held, hqp] at herase ⊢ <;> omega

lemma custody_preserved (p : Pbuf) (n m k : ℕ) :
    Preserved (P := P) (NotAgain p) Coherent (Custody p n m k) where
  ordinary _ h o := custody_frame h (o.freed rfl) (held_of_hints o)
  recv _ hc h hok := custody_eventRecv hc h hok
  dropped q _ _ h hok := by
    cases q with
    | none => exact h
    | some q => exact custody_other_freed h (fun hqp => hok (by rw [hqp])) rfl rfl
  peerFIN _ h _ := by
    unfold handlePeerFINLocked
    split_ifs
    · exact h
    · exact custody_frame h rfl (held_postIf rfl rfl ⟨rfl, rfl⟩)
  activate _ h ha hn _ := by
    rw [markActive_eq ha hn]
    unfold notifyActiveOnceLocked
    split_ifs
    · exact custody_frame h rfl rfl
    · exact custody_frame h rfl (held_postIf (b := .activated) rfl rfl ⟨rfl, rfl⟩)
  ended _ _ h _ e := custody_frame h e.freed (held_ended e)
  deferred _ _ h _ _ _ := custody_frame h rfl rfl
  freed _ h _ _ := custody_frame h rfl rfl
  bare _ h _ := custody_frame h rfl rfl
  lateErr _ _ _ h _ _ := custody_frame h rfl rfl
  released _ h _ _ := custody_frame h rfl rfl
  accept _ h hf hp := by
    rcases tunforgeAccept_cases hf hp with ⟨-, heq⟩ | ⟨-, -, cs, -, heq⟩ | ⟨-, -, heq⟩ <;> rw [heq]
    · exact custody_frame h rfl rfl
    · exact custody_frame h rfl
        (held_posts (l := []) (by simp [orphaned, lwipFreed, closeConn, Sys.postIf, madeConnection,
        initWithTCPPcb, setupPcb, Sys.callLwip, newConn, noHandlers]) (by simp) ⟨rfl, rfl⟩)
    · exact custody_frame h rfl (held_posts (l := [.accepted]) rfl (by simp [holds]) ⟨rfl, rfl⟩)
  ranBlock b rest _ h hq := by
    refine custody_frame h ?_ (held_ranBlock hq)
    rw [runConnectionsBlock_eq hq]
  ranRelease q rest _ h hq := by
    refine custody_release h (q := q) (by simp [performPackets, Sys.free]) ?_
    by_cases hqp : q = p <;> simp [held, performPackets, Sys.free, hq, hqp]
    omega
  ranDecision b rest _ h hq := by
    refine custody_frame h rfl ?_
    simp [held, hq]
  completed q o _ h hm := custody_completed h hm o
  answered _ _ h _ := ⟨custody_frame h rfl rfl, custody_frame h rfl (by simp [held])⟩
  env _ _ h := custody_frame h rfl rfl

end

section

variable [RawApi P]

lemma coherent_tfTcpRecv (hc : Coherent s) (arg : CallbackArg) (p : Pbuf) (err : Err) :
    Coherent (tfTcpRecv arg (some p) err s).1 := by
  by_cases herr : err = .ok
  · subst herr
    exact coherent_ordinary hc (ordinary_tfTcpRecv arg p)
  · have hfree : Coherent (freeIfSome (some p) s) := coherent_ordinary hc (ordinary_freeIfSome _)
    unfold tfTcpRecv
    split_ifs with hg
    · exact hfree
    · refine keeps_abortLocked (coherent_preserved fun _ _ => True) (fun _ h => h) hfree ?_ .abort
      exact (attached_of_guard (fun _ h => h) hc hg).held

omit [RawApi P] in
lemma custody_received {b : Bool} {r : Sys P × Err} (h : Received p s b r) (hh : held p s = 0) :
    Custody p (s.log.freed.count (.pbuf p) + if r.2 = .ok then 1 else 0)
      (s.log.freed.count (.slices p) + b.toNat) (s.log.freed.count (.slices p)) r.1 ∧
      (r.2 = .ok ∨ (r.2 = .mem ∧ b = false)) := by
  cases h with
  | refused hf hq hp =>
    have hsame := (held_posts (p := p) (l := []) (by simpa using hq) (by simp) hp).trans hh
    exact ⟨⟨by simp [hf, hsame], by simp [hf, hsame], by simp [hf]⟩, .inr ⟨rfl, rfl⟩⟩
  | freed hf hheld =>
    have hsame := (hheld p).trans hh
    exact ⟨⟨by simp [hf, hsame], by simp [hf, hsame], by simp [hf]⟩, .inl rfl⟩
  | @posted t hf hq hp =>
    have hone : held p t = held p s + 1 := by
      simp only [held, hq, hp.1, hp.2, List.countP_append]
      simp [holds]
      omega
    exact ⟨⟨by simp [hf, hone, hh], by simp [hf, hone, hh], by simp [hf]⟩, .inl rfl⟩

/-- One call of `tf_tcp_recv` with a chain TunForge does not have in hand, in any connection state,
and whatever happens afterwards while lwIP does not pass that chain in again: a refused chain is
neither freed nor kept; one that was taken, and its slices if they were allocated, have been freed
exactly once when TunForge has it in hand no more, and not before. -/
theorem chain_freed_once (pcb : P) (env : TfEnv) (before later : List (Action P))
    (arg : CallbackArg) (p : Pbuf) (err : Err)
    (hnone : held p (Runs.run act (opened pcb env) before) = 0)
    (hlater : Runs.Along act (NotAgain p)
      (tfTcpRecv arg (some p) err (Runs.run act (opened pcb env) before)).1 later) :
    let s := Runs.run act (opened pcb env) before
    let r := tfTcpRecv arg (some p) err s
    let t := Runs.run act r.1 later
    (r.2 = .mem → held p t = 0 ∧ t.log.freed.count (.pbuf p) = s.log.freed.count (.pbuf p) ∧
      t.log.freed.count (.slices p) = s.log.freed.count (.slices p)) ∧
    (r.2 ≠ .mem → r.2 = .ok ∧ held p t ≤ (slicesAllocated arg p err s).toNat ∧
      t.log.freed.count (.pbuf p) + held p t = s.log.freed.count (.pbuf p) + 1 ∧
      t.log.freed.count (.slices p) + held p t =
        s.log.freed.count (.slices p) + (slicesAllocated arg p err s).toNat) := by
  intro s r t
  have hc : Coherent s := coherent_run (coherent_opened pcb env) before
  obtain ⟨hcust, hout⟩ := custody_received (received_tfTcpRecv hc arg p err) hnone
  have hfinal : Custody p _ _ _ t :=
    invariant_run (custody_preserved p _ _ _) (coherent_tfTcpRecv hc arg p err) hcust hlater
  obtain ⟨h1, h2, h3⟩ := hfinal
  refine ⟨fun hmem => ?_, fun hne => ?_⟩
  · rcases hout with hok | ⟨-, hb⟩
    · rw [show r.2 = .ok from hok] at hmem
      cases hmem
    · have hno : ¬(tfTcpRecv arg (some p) err s).2 = .ok := by
        rw [show (tfTcpRecv arg (some p) err s).2 = .mem from hmem]
        simp
      rw [if_neg hno] at h1
      rw [show slicesAllocated arg p err s = false from hb, Bool.toNat_false] at h2
      exact ⟨by omega, by omega, by omega⟩
  · rcases hout with hok | ⟨hmem, -⟩
    · rw [if_pos hok] at h1
      exact ⟨hok, by omega, h1, h2⟩
    · exact absurd hmem hne

end

/-- An active connection with a zero-copy handler. -/
def delivering : List (Action (Pcb .ios)) :=
  [.accept, .app .runConnectionsBlock,
    .app (.setHandlers ⟨false, false, true, false, false, false, false⟩), .app (.api .markActive),
    .app (.api (.setInboundDeliveryEnabled true))]

/-- The handler is called, its completion runs on another queue, and the chain is freed. -/
theorem chain_freed_once_after_completion :
    let p : Pbuf := ⟨[⟨1, [7]⟩]⟩
    let s := Runs.run act (StackRuns.listening .ios) delivering
    let r := tfTcpRecv .conn (some p) .ok s
    let t := Runs.run act r.1 [.app .runConnectionsBlock, .app (.callCompletion p false),
      .app .runPacketsBlock]
    held p s = 0 ∧ r.2 = .ok ∧ held p r.1 = 1 ∧ r.1.log.freed = [] ∧ held p t = 0 ∧
      t.log.freed.count (.pbuf p) + held p t = s.log.freed.count (.pbuf p) + 1 := by
  have hnone : held ⟨[⟨1, [7]⟩]⟩ (Runs.run act (StackRuns.listening .ios) delivering) = 0 := by
    decide
  have honce := chain_freed_once _ StackRuns.calmTf delivering
    [.app .runConnectionsBlock, .app (.callCompletion ⟨[⟨1, [7]⟩]⟩ false),
      .app .runPacketsBlock] .conn ⟨[⟨1, [7]⟩]⟩ .ok hnone
    ⟨trivial, trivial, trivial, trivial⟩
  exact ⟨hnone, by decide, by decide, by decide, by decide, (honce.2 (by decide)).2.2.1⟩

end TunForge.BufferCustody
