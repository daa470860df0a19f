import TunForge.SendCalls

/-! The timers of lwIP for the running stack and for the send engine. -/
namespace TunForge.SendTicks
open SerialNumber PbufChain LwipTypes TcpOut TcpIn Tcp Connection Callbacks Stack
open OrdinarySteps PcbFrames InputCases InflowEvents SendAgreement SendOutputs SendSegments
  SendCalls
open SendEngine (Sender)

variable {o : Platform} {x y : State o}

section Timers

variable {p : Pcb o} {s : Sender o}

lemma agree_tcpFasttmr (hw : Wf y) (hp : y.pcb = some p) (hfree : p.rx.refusedData = none)
    (h : Prepared s (fasttmrOutputs s) p s.pcb) :
    Agree (tcpFasttmr y).pcb (SendEngine.step (some s) .fasttmr) := by
  have hsame : s.pcb.inputPcb = false ∧ s.pcb.list = p.list := by
    have hin := (hw.pcb p hp).input
    obtain ⟨env, ⟨⟨t, b, heq⟩, -, -⟩, -⟩ := h
    rw [heq] at hin ⊢
    exact ⟨hin, rfl⟩
  change Agree (tcpFasttmr y).pcb (some (SendEngine.whenActive SendEngine.tcpFasttmr s))
  unfold tcpFasttmr SendEngine.whenActive
  rw [hp, hsame.2]
  dsimp only
  split_ifs
  · rw [← List.append_nil (fasttmrOutputs s)] at h
    have hsend := h.fasttmr hsame.1
    have hpcb : (modPcb fasttmrSend y).pcb = some (fasttmrSend p) := by simp [modPcb, hp]
    have hnone : refused (modPcb fasttmrSend y) = none := by
      have hkeep : (fasttmrSend p).rx.refusedData = none :=
        (congrArg Inbox.refusedData (inbox_fasttmrSend p)).trans hfree
      simp [refused, hpcb, hkeep]
    unfold tcpProcessRefusedData
    rw [hnone]
    dsimp only
    rw [hpcb]
    exact agree_of_prepared hsend
  · exact agree_unmoved hp h

/-- The sender once the slow timer has advanced the clock. -/
def ticked (s : Sender o) : Sender o := s.mapPcb Refinement.tick

/-- What the stack is told of the retransmission and the persist timer. -/
def toldTimers (keep : ℕ) (s : Sender o) : List Event :=
  if 0 < s.persist.backoff then
    if persistDue s then [.env (surroundings s (persistOutputs keep (persistWait s))),
      .persist keep] else []
  else if rexmitDue s then [.env (surroundings s [rexmitOutput (rexmitWait s)]), .rexmitRto]
  else []

lemma tick_tcpOutput (p : Pcb o) :
    Refinement.tick (tcpOutput p) = tcpOutput (Refinement.tick p) := by
  unfold tcpOutput outputNow tcpSendEmptyAck Refinement.tick
  dsimp only
  split_ifs <;> rfl

lemma polltmr_tcpOutput (p : Pcb o) : (tcpOutput p).polltmr = p.polltmr := by
  unfold tcpOutput outputNow tcpSendEmptyAck
  split_ifs <;> rfl

lemma tick_tcpZeroWindowProbe (p : Pcb o) :
    Refinement.tick (tcpZeroWindowProbe p).1 = (tcpZeroWindowProbe (Refinement.tick p)).1 := by
  unfold tcpZeroWindowProbe Refinement.tick
  dsimp only
  cases p.tx.unsent with
  | nil => rfl
  | cons seg rest =>
    dsimp only
    cases p.env.mem <;> rfl

lemma polltmr_tcpZeroWindowProbe (p : Pcb o) : (tcpZeroWindowProbe p).1.polltmr = p.polltmr := by
  unfold tcpZeroWindowProbe
  cases p.tx.unsent with
  | nil => rfl
  | cons seg rest =>
    dsimp only
    cases p.env.mem <;> rfl

lemma tick_tcpSplitUnsentSeg (keep n : ℕ) (p : Pcb o) :
    tcpSplitUnsentSeg keep n (Refinement.tick p) =
      (Refinement.tick (tcpSplitUnsentSeg keep n p).1, (tcpSplitUnsentSeg keep n p).2) := by
  unfold tcpSplitUnsentSeg Refinement.tick
  dsimp only
  cases p.tx.unsent with
  | nil => rfl
  | cons useg rest =>
    dsimp only
    split_ifs <;> rfl

lemma polltmr_tcpSplitUnsentSeg (keep n : ℕ) (p : Pcb o) :
    (tcpSplitUnsentSeg keep n p).1.polltmr = p.polltmr := by
  unfold tcpSplitUnsentSeg
  cases p.tx.unsent with
  | nil => rfl
  | cons useg rest =>
    dsimp only
    split_ifs <;> rfl

lemma tick_persistFire (keep : ℕ) (p : Pcb o) :
    Refinement.tick (persistFire keep p) = persistFire keep (Refinement.tick p) := by
  have hwnd : (Refinement.tick p).tx.sndWnd = p.tx.sndWnd := rfl
  unfold persistFire
  rw [hwnd, tick_tcpSplitUnsentSeg]
  generalize tcpSplitUnsentSeg keep (p.tx.sndWnd % 2 ^ 16) p = r
  obtain ⟨q, err⟩ := r
  split_ifs
  · exact tick_tcpZeroWindowProbe p
  · cases err with
    | ok => exact tick_tcpOutput q
    | _ => rfl

lemma polltmr_persistFire (keep : ℕ) (p : Pcb o) : (persistFire keep p).polltmr = p.polltmr := by
  have hsplit := polltmr_tcpSplitUnsentSeg keep (p.tx.sndWnd % 2 ^ 16) p
  unfold persistFire
  generalize tcpSplitUnsentSeg keep (p.tx.sndWnd % 2 ^ 16) p = r at hsplit
  obtain ⟨q, err⟩ := r
  split_ifs
  · exact polltmr_tcpZeroWindowProbe p
  · cases err with
    | ok => exact (polltmr_tcpOutput q).trans hsplit
    | _ => exact hsplit

lemma modPcb_some {f : Pcb o → Pcb o} (hp : x.pcb = some p) :
    modPcb f x = { x with pcb := some (f p) } := by
  simp [modPcb, hp]

lemma set_pcb (hp : x.pcb = some p) : ({ x with pcb := some p } : State o) = x := by
  obtain ⟨_, _⟩ := x
  simp_all

lemma prepared_told {env : Env} (h : Shows env p s.pcb) (s₀ : Sender o) (outputs : List (Sender o))
    (hm : s₀.pcb.env = s.pcb.env) :
    Prepared s₀ outputs { p with env := surroundings s₀ outputs } s.pcb := by
  obtain ⟨t, b, rfl⟩ := h
  refine ⟨surroundings s₀ outputs, ⟨⟨t, b, rfl⟩, ?_, ?_⟩, fun _ => rfl⟩
  · change s₀.pcb.env.mem = s.pcb.env.mem
    rw [hm]
  · change s₀.pcb.env.route = s.pcb.env.route
    rw [hm]

lemma onActive_told (hp : x.pcb = some p) (hl : p.list = .active) (e : Env) (f : Pcb o → Pcb o) :
    onActive f (step x (.env e)) = { x with pcb := some (f { p with env := e }) } := by
  unfold onActive
  rw [show step x (.env e) = _ from modPcb_some hp, modPcb_some rfl, if_pos hl]

lemma agree_persist (keep : ℕ) {env : Env} (hp : x.pcb = some p) (hl : p.list = .active)
    (hidle : s.pcb.inputPcb = false) (h : Shows env (Refinement.tick p) (ticked s).pcb) :
    ∃ p₁ env₁, Runs.run step x (if persistDue (ticked s) then
        [.env (surroundings (ticked s) (persistOutputs keep (persistWait (ticked s)))),
          .persist keep] else []) = { x with pcb := some p₁ } ∧
      p₁.polltmr = p.polltmr ∧ core p₁ = core p ∧
      Shows env₁ (Refinement.tick p₁) (SendEngine.persistTick keep (ticked s)).pcb := by
  have hwait := persistWait_pcb (ticked s)
  rw [persistTick_eq]
  split_ifs with hdue
  · have hprep := prepared_told (hwait ▸ h) (ticked s)
      (persistOutputs keep (persistWait (ticked s))) (congrArg Pcb.env hwait.symm)
    rw [← List.append_nil (persistOutputs keep (persistWait (ticked s)))] at hprep
    obtain ⟨env₁, hfire, -⟩ := hprep.persistFire keep (hwait ▸ hidle)
    rw [List.append_nil] at hfire
    refine ⟨_, env₁, onActive_told hp hl _ (persistFire keep), ?_, ?_, ?_⟩
    · exact polltmr_persistFire keep _
    · exact (same_persistFire keep _).1
    · rw [tick_persistFire]
      exact hfire.shows
  · rw [hwait]
    exact ⟨p, env, (set_pcb hp).symm, rfl, rfl, h⟩

lemma queued_of_rexmitDue (hdue : rexmitDue s = true) :
    ¬((rexmitWait s).tx.unacked = [] ∧ (rexmitWait s).tx.unsent = []) := by
  rintro ⟨hunacked, hunsent⟩
  unfold rexmitDue at hdue
  rw [show s.tx.unacked = [] from hunacked, show s.tx.unsent = [] from hunsent] at hdue
  simp at hdue

lemma agree_rexmit {env : Env} (hp : x.pcb = some p) (hl : p.list = .active)
    (hidle : s.pcb.inputPcb = false) (h : Shows env (Refinement.tick p) (ticked s).pcb) :
    ∃ p₁ env₁, Runs.run step x (if rexmitDue (ticked s) then
        [.env (surroundings (ticked s) [rexmitOutput (rexmitWait (ticked s))]), .rexmitRto]
        else []) = { x with pcb := some p₁ } ∧
      p₁.polltmr = p.polltmr ∧ core p₁ = core p ∧
      Shows env₁ (Refinement.tick p₁) (SendEngine.rexmitTick (ticked s)).pcb := by
  rw [rexmitTick_eq]
  split_ifs with hdue
  · have hprep := prepared_told (s := rexmitWait (ticked s)) h (ticked s)
      [rexmitOutput (rexmitWait (ticked s))] rfl
    obtain ⟨env₁, hfire, -⟩ := hprep.rexmitFire (queued_of_rexmitDue hdue) hidle
    refine ⟨_, env₁, onActive_told hp hl _
      (fun pcb => tcpOutput { pcb with tx := tcpRexmitRtoPrepare pcb.tx }), ?_, ?_, ?_⟩
    · exact polltmr_tcpOutput _
    · exact (same_tcpOutput _).1
    · rw [tick_tcpOutput]
      exact hfire.shows
  · exact ⟨p, env, (set_pcb hp).symm, rfl, rfl, h⟩

lemma agree_timers (keep : ℕ) {env : Env} (hp : x.pcb = some p) (hl : p.list = .active)
    (hidle : p.inputPcb = false) (h : Shows env p s.pcb) :
    ∃ p₁ env₁, Runs.run step x (toldTimers keep (ticked s)) = { x with pcb := some p₁ } ∧
      p₁.polltmr = p.polltmr ∧ core p₁ = core p ∧
      Shows env₁ (Refinement.tick p₁) (SendEngine.sendTick keep (ticked s)).pcb := by
  -- the timers leave the two models in agreement, once the clock has been advanced
  have hticked : Shows env (Refinement.tick p) (ticked s).pcb := by
    obtain ⟨t, b, rfl⟩ := h
    exact ⟨t, b, rfl⟩
  have hsidle : s.pcb.inputPcb = false := by
    obtain ⟨t, b, rfl⟩ := h
    exact hidle
  unfold toldTimers SendEngine.sendTick
  by_cases hpersist : 0 < (ticked s).persist.backoff
  · rw [if_pos hpersist, if_pos hpersist]
    exact agree_persist keep hp hl hsidle hticked
  · rw [if_neg hpersist, if_neg hpersist]
    exact agree_rexmit hp hl hsidle hticked

/-- The sender has been retransmitted, or probed with, as often as it may be. -/
def exhausted (s : Sender o) : Bool :=
  decide (SendEngine.tcpMaxrtx o ≤ s.rexmit.nrtx) ||
    (decide (0 < s.persist.backoff) && decide (SendEngine.tcpMaxrtx o ≤ s.persist.probe))

/-- The next slow timer polls the connection. -/
def polls (x : State o) : Bool :=
  x.pcb.any fun pcb =>
    decide (pcb.list = .active) && decide (x.hooks.pollInterval ≤ pcb.polltmr + 1)

/-- What the send engine hears of the poll: the `tcp_output` behind it. -/
def heardPoll (x : State o) : List SendEngine.Event := if polls x then [.output] else []

/-- What the stack is told when the slow timer fires. -/
def toldSlowtmr (x : State o) (keep : ℕ) (s : Sender o) : List Event :=
  if s.pcb.list ≠ .active then [.slowtmr]
  else if exhausted s then [.env { surroundings s [] with exhausted := true }, .slowtmr]
  else
    toldTimers keep (ticked s) ++
      [.env (surroundings (SendEngine.sendTick keep (ticked s))
        (outputsAlong (SendEngine.step (some s) (.slowtmr keep)) (heardPoll x))), .slowtmr]

lemma run_none (es : List SendEngine.Event) : Runs.run (SendEngine.step (o := o)) none es = none :=
  Runs.invariant_all _ (· = none) (fun t e h => by subst h; rfl) rfl es

lemma eventPoll_pcb (hi : y.conn.pendingClose = false) (ht : newStateTimedOut y = false) :
    (eventPoll y).pcb = y.pcb := by
  -- the poll callback of a connection that is neither left in `New` for too long nor being closed
  have htn : newStateTimedOut (noteCall .poll y.hooks.arg y) = newStateTimedOut y := by
    unfold noteCall
    split_ifs <;> rfl
  unfold eventPoll
  split_ifs
  · unfold tfTcpPoll
    rw [htn, ht]
    dsimp only
    rw [updateWritableLocked_pendingClose, noteCall_conn, hi]
    simp only [Bool.false_eq_true, if_false]
    split_ifs
    · exact noteCall_pcb _ _ y
    · rw [updateWritableLocked_pcb]
      exact noteCall_pcb _ _ y
  · rfl

/-- The sender as the removal test of `tcp_slowtmr` finds it. -/
def tested (s : Sender o) : Sender o :=
  s.mapPcb fun pcb => { pcb with
    env := { pcb.env with rto := s.trip.rto.toNat, exhausted := false } }

lemma slowtmrActive_eq (keep : ℕ) {s : Sender o} (h : exhausted s = false) :
    SendEngine.slowtmrActive keep s =
      if slowtmrRemoves (tested (SendEngine.sendTick keep s)).pcb then none
      else some ((tested (SendEngine.sendTick keep s)).mapPcb dropStaleOoseq) := by
  unfold exhausted at h
  simp only [Bool.or_eq_false_iff, decide_eq_false_iff_not, Bool.and_eq_false_imp,
    decide_eq_true_eq] at h
  unfold SendEngine.slowtmrActive
  rw [if_neg h.1, if_neg fun hp => h.2 hp.1 hp.2]
  rfl

lemma slowtmrActive_exhausted (keep : ℕ) {s : Sender o} (h : exhausted s = true) :
    SendEngine.slowtmrActive keep s = none := by
  unfold exhausted at h
  simp only [Bool.or_eq_true, decide_eq_true_eq, Bool.and_eq_true] at h
  unfold SendEngine.slowtmrActive
  rcases h with hnrtx | hprobe
  · rw [if_pos hnrtx]
  · rw [if_pos hprobe, ite_self]

lemma agree_poll {env : Env} {s' : Sender o} (hi : y.conn.pendingClose = false)
    (ht : newStateTimedOut y = false) (hl : p.list = .active) (hidle : p.inputPcb = false)
    (hs : Shows env p s.pcb) (henv : env = surroundings s' (outputsAlong (some s)
      (if y.hooks.pollInterval ≤ p.polltmr + 1 then [.output] else [])))
    (hm : s'.pcb.env.mem = s.pcb.env.mem) (hr : s'.pcb.env.route = s.pcb.env.route) :
    Agree (pollPcb p y).pcb (Runs.run SendEngine.step (some s)
      (if y.hooks.pollInterval ≤ p.polltmr + 1 then [.output] else [])) := by
  -- the poll of an active pcb and the `tcp_output` behind it
  unfold pollPcb
  dsimp only
  split_ifs at henv ⊢ with hdue
  · have hpoll : (eventPoll ({ y with pcb := some { p with polltmr := 0 } } : State o)).pcb =
        some { p with polltmr := 0 } := eventPoll_pcb hi ht
    have hidle' : s.pcb.inputPcb = false := by
      obtain ⟨t, b, rfl⟩ := hs
      exact hidle
    have hprep : Prepared s' [s] { p with polltmr := 0 } s.pcb := by
      obtain ⟨t, b, rfl⟩ := hs
      subst henv
      exact ⟨_, ⟨⟨0, b, rfl⟩, hm, hr⟩, fun _ => rfl⟩
    rw [modPcb_some hpoll, if_pos hl]
    exact agree_of_prepared (hprep.output hidle')
  · obtain ⟨t, b, rfl⟩ := hs
    exact ⟨env, _, b, rfl⟩

lemma list_of_shows {env : Env} {q : Pcb o} (h : Shows env p q) : p.list = q.list := by
  obtain ⟨t, b, rfl⟩ := h
  rfl

lemma tcpSlowtmr_eq (hp : x.pcb = some p) : tcpSlowtmr x =
    match p.list with
    | .active =>
      if slowtmrRemoves (Refinement.tick p) then
        freeThenErr x.env.releaseInGap ({ x with pcb := some (Refinement.tick p) } : State o)
      else pollPcb (dropStaleOoseq (Refinement.tick p)) { x with pcb := some (Refinement.tick p) }
    | .timeWait =>
      if timeWaitExpired (Refinement.tick p) then
        tcpFree ({ x with pcb := some (Refinement.tick p) } : State o)
      else { x with pcb := some (Refinement.tick p) }
    | .unlisted => { x with pcb := some (Refinement.tick p) } := by
  unfold tcpSlowtmr
  rw [modPcb_some hp]
  rfl

lemma engine_tcpSlowtmr_eq (keep : ℕ) (s : Sender o) : SendEngine.tcpSlowtmr keep s =
    match s.pcb.list with
    | .active => SendEngine.slowtmrActive keep (ticked s)
    | .timeWait => if timeWaitExpired (ticked s).pcb then none else some (ticked s)
    | .unlisted => some (ticked s) := rfl

lemma agree_slowtmr_timeWait (keep : ℕ) {env : Env} (hp : x.pcb = some p) (hl : p.list = .timeWait)
    (h : Shows env p s.pcb) :
    Agree (tcpSlowtmr x).pcb (SendEngine.tcpSlowtmr keep s) := by
  have hexp : timeWaitExpired (Refinement.tick p) = timeWaitExpired (ticked s).pcb := by
    obtain ⟨t, b, rfl⟩ := h
    rfl
  rw [tcpSlowtmr_eq hp, engine_tcpSlowtmr_eq, ← list_of_shows h, hl]
  dsimp only
  rw [hexp]
  split_ifs
  · trivial
  · obtain ⟨t, b, rfl⟩ := h
    exact ⟨env, t, b, rfl⟩

lemma slowtmr_exhausted (hp : x.pcb = some p) (hl : p.list = .active)
    (hex : p.env.exhausted = true) :
    (tcpSlowtmr x).pcb = none := by
  have hremoves : slowtmrRemoves (Refinement.tick p) = true := by
    unfold slowtmrRemoves
    rw [show (Refinement.tick p).env.exhausted = true from hex, Bool.true_or, Bool.true_or,
      Bool.true_or]
  rw [tcpSlowtmr_eq hp, hl]
  dsimp only
  rw [if_pos hremoves]
  exact freeThenErr_pcb _ _

lemma shows_dropStaleOoseq {env : Env} {q : Pcb o} (h : Shows env p q)
    (hrto : env.rto = q.env.rto) :
    Shows env (dropStaleOoseq p) (dropStaleOoseq q) := by
  obtain ⟨t, b, rfl⟩ := h
  have hidle : idle ({ q with env := env, polltmr := t, backlogPend := b, closed := false } : Pcb o)
    = idle q :=
    rfl
  unfold dropStaleOoseq
  rw [hidle]
  dsimp only
  rw [hrto]
  split_ifs
  · exact ⟨t, b, rfl⟩
  · exact ⟨t, b, rfl⟩

lemma polltmr_dropStaleOoseq (p : Pcb o) : (dropStaleOoseq p).polltmr = p.polltmr := by
  unfold dropStaleOoseq
  split_ifs <;> rfl

lemma agree_slowtmr_test {env : Env} {s₁ : Sender o} (hi : x.conn.pendingClose = false)
    (ht : newStateTimedOut x = false) (hp : x.pcb = some p) (hl : p.list = .active)
    (hidle : p.inputPcb = false) (h : Shows env (Refinement.tick p) (tested s₁).pcb)
    {out : Option (Sender o)} (hout : out = if slowtmrRemoves (tested s₁).pcb then none
      else some ((tested s₁).mapPcb dropStaleOoseq))
    (henv : env = surroundings s₁ (outputsAlong out
      (if x.hooks.pollInterval ≤ p.polltmr + 1 then [.output] else []))) :
    Agree (tcpSlowtmr x).pcb (Runs.run SendEngine.step out
      (if x.hooks.pollInterval ≤ p.polltmr + 1 then [.output] else [])) := by
  -- the test and the poll of an active pcb, behind the timers
  have hremoves : slowtmrRemoves (Refinement.tick p) = slowtmrRemoves (tested s₁).pcb := by
    obtain ⟨t, b, heq⟩ := h
    rw [heq, henv]
    rfl
  rw [tcpSlowtmr_eq hp, hl]
  dsimp only
  rw [hremoves]
  by_cases hgone : slowtmrRemoves (tested s₁).pcb = true
  · rw [if_pos hgone] at hout ⊢
    rw [hout, run_none, freeThenErr_pcb]
    trivial
  · rw [if_neg hgone] at hout ⊢
    subst hout
    have hcore := core_dropStaleOoseq (Refinement.tick p)
    have hstale := shows_dropStaleOoseq h (by rw [henv]; rfl)
    have htmr : (dropStaleOoseq (Refinement.tick p)).polltmr = p.polltmr :=
      polltmr_dropStaleOoseq (Refinement.tick p)
    have hkept : ((tested s₁).mapPcb dropStaleOoseq).pcb.env = (tested s₁).pcb.env := by
      change (dropStaleOoseq (tested s₁).pcb).env = _
      unfold dropStaleOoseq
      split_ifs <;> rfl
    rw [← htmr] at henv ⊢
    refine agree_poll (y := ({ x with pcb := some (Refinement.tick p) } : State o))
      (s := (tested s₁).mapPcb dropStaleOoseq) hi ht ?_ ?_ hstale henv ?_ ?_
    · exact (list_of_core hcore).trans hl
    · exact (inputPcb_of_core hcore).trans hidle
    · rw [hkept]
      rfl
    · rw [hkept]
      rfl

lemma agree_tcpSlowtmr (hw : Sound x) (keep : ℕ) {env : Env} (hp : x.pcb = some p)
    (ht : newStateTimedOut x = false) (h : Shows env p s.pcb) :
    Agree (Runs.run step x (toldSlowtmr x keep s)).pcb
      (Runs.run SendEngine.step (some s) (.slowtmr keep :: heardPoll x)) := by
  -- `tcp_slowtmr`, if it finds no connection left in `New` for too long
  have hok := hw.wf.pcb p hp
  have hstep : SendEngine.step (some s) (.slowtmr keep) = SendEngine.tcpSlowtmr keep s := rfl
  rw [Runs.run_cons, hstep]
  unfold toldSlowtmr
  rw [hstep, ← list_of_shows h]
  rcases hok.listed with ⟨hl, -⟩ | ⟨hl, -⟩
  · have hengine : SendEngine.tcpSlowtmr keep s = SendEngine.slowtmrActive keep (ticked s) := by
      rw [engine_tcpSlowtmr_eq, ← list_of_shows h, hl]
    have hheard : heardPoll x = if x.hooks.pollInterval ≤ p.polltmr + 1 then [.output] else [] := by
      unfold heardPoll polls
      simp [hp, hl]
    rw [if_neg (by simp [hl]), hengine]
    by_cases hex : exhausted s = true
    · have hgone := slowtmrActive_exhausted keep (s := ticked s) hex
      have hnone : (Runs.run step x [.env { surroundings s [] with exhausted := true },
        .slowtmr]).pcb = none := by
        refine slowtmr_exhausted
          (p := { p with env := { surroundings s [] with exhausted := true } }) ?_ hl rfl
        rw [show step x (.env _) = _ from modPcb_some hp]
      rw [if_pos hex, hnone, hgone, run_none]
      trivial
    · rw [if_neg hex, Runs.run_append]
      obtain ⟨p₁, env₁, hrun, hpoll, hcore, hshows⟩ := agree_timers keep hp hl hok.input h
      rw [hrun, hheard, ← hpoll]
      generalize hs₁ : SendEngine.sendTick keep (ticked s) = s₁ at hshows
      generalize henv : surroundings s₁ _ = e
      have htold : Shows e (Refinement.tick { p₁ with env := e }) (tested s₁).pcb := by
        obtain ⟨t, b, heq⟩ := hshows
        have hset : Refinement.tick { p₁ with env := e } =
            ({ Refinement.tick p₁ with env := e } : Pcb o) := rfl
        rw [hset, heq]
        exact ⟨t, b, rfl⟩
      refine agree_slowtmr_test (x := ({ x with pcb := some { p₁ with env := e } } : State o))
        hw.idle ht rfl ((list_of_core hcore).trans hl)
          ((inputPcb_of_core hcore).trans hok.input) htold ?_ henv.symm
      have hgo : exhausted (ticked s) = false := Bool.eq_false_of_not_eq_true hex
      rw [slowtmrActive_eq keep hgo, hs₁]
  · have hquiet : heardPoll x = [] := by
      unfold heardPoll polls
      simp [hp, hl]
    rw [if_pos (by simp [hl]), hquiet]
    exact agree_slowtmr_timeWait keep hp hl h

end Timers

end TunForge.SendTicks
