import TunForge.InboundRule

/-! Why a connection ended: the reason it records against what really happened. -/
namespace TunForge.TerminationReason
open SerialNumber PbufChain LwipTypes TcpOut TcpIn Tcp Connection Callbacks Stack StackRuns
open Boundary Termination OrdinarySteps BoundaryRule PcbFrames CalmSteps InputCases Refinement
  WellFormed
open ReceiveSteps Inflow InflowSteps InflowEvents InflowRuns InflowCalls InboundRule

variable {o : Platform} {s s₀ : State o} {e : Event}

/-- What has happened to a connection that ends in the event `e`. A segment ends it as a reset, as
the last acknowledgement of an orderly FIN exchange, or because nobody accepts it; a pcb in
`TIME_WAIT` has been through such an exchange, and any other that lwIP drops is aborted. -/
def happened (s : State o) : Event → Reason
  | .segment seg =>
    if seg.rst then .reset
    else if s.pcb.any fun pcb => pcb.state = .synRcvd then .abort
    else .close
  | .slowtmr => if s.pcb.any fun pcb => pcb.list = .timeWait then .close else .abort
  | .killTimewait | .app (.api .gracefulClose) => .close
  | .killState | .netifIpAddrChanged | .app _ => .abort
  | _ => .destroyed

/-- The events that end a connection of which another reason is recorded. -/
def misreported (s : State o) : Event → Bool
  | .segment seg => s.pcb.any fun pcb =>
      (decide (pcb.state = .synRcvd) && !s.env.delegate) ||
      (living s && decide (pcb.list = .active) && decide (pcb.state = .lastAck) && !seg.rst &&
        (acksAllSent pcb seg || pcb.rx.refusedData.isSome))
  | .slowtmr => living s && s.pcb.any fun pcb =>
      (decide (pcb.list = .active) && slowtmrRemoves (tick pcb)) ||
      (decide (pcb.list = .timeWait) && timeWaitExpired (tick pcb))
  | .killTimewait => living s && s.pcb.any fun pcb => decide (pcb.list = .timeWait)
  | .killState => living s && s.pcb.any fun pcb =>
      decide (pcb.list = .active) && decide (pcb.state = .lastAck ∨ pcb.state = .closing)
  | .netifIpAddrChanged => living s && s.pcb.any fun pcb => decide (pcb.list = .active)
  | .app (.api .gracefulClose) => living s && s.pcb.any unreadData
  | _ => false

def Faithful (s : State o) (e : Event) : Prop := misreported s e = false

instance (s : State o) (e : Event) : Decidable (Faithful s e) := inferInstanceAs (Decidable (_ = _))

lemma happened_ne_none (s : State o) (e : Event) : happened s e ≠ .none := by
  unfold happened
  repeat' split
  all_goals simp

/-- No reason is recorded while the connection lives, and every posted termination carries the
one that is. -/
structure Recorded (v : View o) : Prop where
  unset : v.living = true ∨ Fresh v → v.reason = .none
  posted : ∀ r, CBlock.terminated r ∈ v.trace.map Prod.fst ++ v.queue → r = v.reason ∧ r ≠ .none

/-- The reason is the one found before the event, or there was none and it is the right one. -/
def Named (s : State o) (e : Event) (v : View o) : Prop :=
  v.reason = s.conn.terminationReason ∨ (s.conn.terminationReason = .none ∧ v.reason = happened s e)

/-- A removal under way will be recorded for what it is. -/
def Doomed (s : State o) (e : Event) (ph : Phase) (v : View o) : Prop :=
  ∀ r, ph = .ending r → v.living = true → r = happened s e

lemma happened_of_doom {v : View o} {r : Reason} (hok : Faithful s e) (hw : Within s e (start e) v)
    (hd : Doom s v e r) (hv : v.living = true) : r = happened s e := by
  -- a doomed pcb of a living connection has met the fate that will be recorded
  -- outside of a segment the connection has been alive since the event came
  have hold : start e = .rest → living s = true := by
    intro hst
    by_contra hn
    have hborn := (hw.born (by simpa using hn) hv).1
    rw [hst] at hborn
    cases hborn
  cases hd with
  | reset _ _ hrst => simp [happened, hrst]
  | @finalAck seg p hp hl hs hrst hack =>
    exfalso
    obtain ⟨p₀, hp₀, hlater⟩ := (hw.since rfl).2.pcb p hp
    have hs₀ : p₀.state = .lastAck := by
      rcases hlater.state with h | ⟨-, h⟩
      · exact h ▸ hs
      · rw [hs] at h
        cases h
    have hlive : living s = true := by
      by_contra hn
      obtain ⟨-, p₁, hp₁, hs₁⟩ := hw.born (by simpa using hn) hv
      cases hp₀.symm.trans hp₁
      rw [hs₀] at hs₁
      cases hs₁
    have hbad : (acksAllSent p₀ seg || p₀.rx.refusedData.isSome) = true := by
      cases hr : p₀.rx.refusedData with
      | some r => simp
      | none =>
        have hu : Untouched s := .inl (by simp [Stack.refused, hp₀, hr])
        rcases hlater.held hu with rfl | ⟨hdead, -⟩
        · simp [hack]
        · rw [hlive] at hdead
          cases hdead
    have hl₀ : p₀.list = .active := hlater.list ▸ hl
    simp [Faithful, misreported, hp₀, hlive, hl₀, hs₀, hrst, hbad] at hok
  | unattended h =>
    rw [hv] at h
    cases h
  | removal hp hl h => simp [Faithful, misreported, hp, hl, h, hold rfl] at hok
  | expiry hp hl h => simp [Faithful, misreported, hp, hl, h, hold rfl] at hok
  | timeout hp hl => simp [happened, hp, hl]
  | killTimewait hp hl => simp [Faithful, misreported, hp, hl, hold rfl] at hok
  | killState hp hl hs =>
    simp only [Faithful, misreported, hp, hl, hold rfl, hs, Option.any_some, decide_true,
      Bool.and_self] at hok
    cases hok
  | netif hp hl => simp [Faithful, misreported, hp, hl, hold rfl] at hok

lemma ending_flow {ph : Phase} {v w : View o} {r : Reason} (hf : Flow s e (ph, v) (.ending r, w)) :
    (ph = .ending r ∧ w.living = v.living) ∨
    (w = v ∧ (ph = start e ∨ v.living = false) ∧ Doom s v e r) := by
  cases hf with
  | worked => exact .inl ⟨rfl, rfl⟩
  | hinted => exact .inl ⟨rfl, rfl⟩
  | refusedAgain hph => cases e <;> cases hph
  | retaken hph => cases e <;> cases hph
  | doomed hph hd => exact .inr ⟨rfl, hph, hd⟩

lemma not_terminated {b : CBlock} (h : isHint b = true ∨ isDelivery b = true) (r : Reason) :
    b ≠ .terminated r := by
  rintro rfl
  simp [isHint, isDelivery, isReadable] at h

/-- The blocks posted so far, run or still waiting. -/
def blocks (v : View o) : List CBlock := v.trace.map Prod.fst ++ v.queue

lemma recorded_same {v w : View o} {l : List CBlock} (h : Recorded v ∧ Named s e v)
    (hr : w.reason = v.reason) (hl : w.living = true ∨ Fresh w → v.living = true ∨ Fresh v)
    (hb : blocks w = blocks v ++ l) (hbs : ∀ b ∈ l, ∀ r, b ≠ .terminated r) :
    Recorded w ∧ Named s e w := by
  obtain ⟨hrec, hnamed⟩ := h
  unfold blocks at hb
  unfold Named at hnamed ⊢
  rw [hr]
  refine ⟨⟨fun hw => ?_, fun r hm => ?_⟩, hnamed⟩
  · rw [hr]
    exact hrec.unset (hl hw)
  · rw [hr]
    rw [hb] at hm
    rcases List.mem_append.1 hm with hm | hm
    · exact hrec.posted r hm
    · exact absurd rfl (hbs _ hm r)

lemma recorded_ended {v : View o} {r : Reason} {q : Option (Pcb o)} (h : Recorded v ∧ Named s e v)
    (hr : v.living = true → r = happened s e) (hq : ∀ p, q = some p → p.state ≠ .synRcvd) :
    Recorded { v.ended r with pcb := q } ∧ Named s e { v.ended r with pcb := q } := by
  obtain ⟨hrec, hnamed⟩ := h
  cases hl : v.living with
  | false =>
    rw [ended_of_over r hl]
    refine recorded_same (l := []) ⟨hrec, hnamed⟩ rfl (fun hw => hw.imp id ?_) (by simp [blocks])
      (by simp)
    rintro ⟨p, hp, hs⟩
    exact absurd hs (hq p hp)
  | true =>
    have hnone : v.reason = .none := hrec.unset (.inl hl)
    have hs : s.conn.terminationReason = .none := by
      rcases hnamed with h | ⟨h, -⟩
      · exact h.symm.trans hnone
      · exact h
    simp only [View.ended, hl, if_true]
    refine ⟨⟨fun hw => ?_, fun r' hm => ?_⟩, .inr ⟨hs, hr hl⟩⟩
    · rcases hw with hw | ⟨p, hp, hst⟩
      · cases hw
      · exact absurd hst (hq p hp)
    · rw [← List.append_assoc] at hm
      rcases List.mem_append.1 hm with hold | hnew
      · have := hrec.posted r' hold
        rw [hnone] at this
        exact absurd this.1 this.2
      · split_ifs at hnew
        · have hrr : r' = r := by simpa using hnew
          exact ⟨hrr, hrr ▸ hr hl ▸ happened_ne_none s e⟩
        · simp at hnew

lemma recorded_flow {ph ph' : Phase} {v w : View o} (hok : Faithful s e) (hwi : Within s e ph v)
    (h : (Recorded v ∧ Named s e v) ∧ Doomed s e ph v) (hf : Flow s e (ph, v) (ph', w)) :
    (Recorded w ∧ Named s e w) ∧ Doomed s e ph' w := by
  obtain ⟨hrec, hdoomed⟩ := h
  have hend : Doomed s e ph' w := by
    rintro r rfl hl
    rcases ending_flow hf with ⟨hph, hsame⟩ | ⟨rfl, hph, hd⟩
    · exact hdoomed r hph (hsame ▸ hl)
    · rcases hph with rfl | hdead
      · exact happened_of_doom hok hwi hd hl
      · rw [hl] at hdead
        cases hdead
  refine ⟨?_, hend⟩
  rcases flow_life hf with
    ⟨hsame, bs, hq, hbs⟩ | ⟨-, hfresh, -, q, rfl⟩ | ⟨rfl, hfresh, -, hdel, -⟩ | ⟨r, rfl, hl, rfl⟩
  · have htrace : w.trace = v.trace := congrArg Life.trace hsame
    have hliving : w.living = v.living := congrArg Life.living hsame
    refine recorded_same (l := bs) hrec (congrArg Life.reason hsame) (fun hw => ?_) ?_ fun b hm r =>
      ?_
    · exact hw.imp (fun h => hliving ▸ h) (flow_fresh hf)
    · simp [blocks, htrace, hq]
    · exact not_terminated ((hbs b hm).imp_right And.right) r
  · -- a connection is made: nothing has been recorded yet
    have hnone : v.reason = .none := hrec.1.unset (.inr hfresh)
    refine recorded_same (l := [.accepted]) hrec hnone.symm (fun _ => .inr hfresh)
      (by simp [blocks, View.begun]) ?_
    simp
  · -- nobody is there to be shown the connection
    exfalso
    obtain ⟨p₀, hp₀, hs₀⟩ := hwi.fresh hfresh
    have hseg : ∃ seg, e = .segment seg := by
      have := (hwi.since rfl).1
      cases e <;> simp_all [start]
    obtain ⟨seg, rfl⟩ := hseg
    simp [Faithful, misreported, hp₀, hs₀, hdel] at hok
  · exact recorded_ended hrec (hdoomed r rfl) (by simp)

lemma recorded_app {a : AppEvent} {w : View o} (hok : Faithful s (.app a)) (h : Recorded (view s))
    (hf : AppFlow s a w) :
    Recorded w ∧ Named s (.app a) w := by
  have hs : Recorded (view s) ∧ Named s (.app a) (view s) := ⟨h, .inl rfl⟩
  have hfresh := appFlow_fresh hf
  cases hf with
  | idle => exact hs
  | @worked c _ p q bs _ _ _ _ hb =>
    refine recorded_same (l := bs) hs rfl (fun hw => hw.imp id hfresh) (by simp [blocks, view]) ?_
    exact fun b hm => not_terminated (.inl (hb b hm))
  | @activated p q bs _ _ _ _ hb =>
    refine recorded_same (l := bs) hs rfl (fun hw => hw.imp id hfresh) (by simp [blocks, view]) ?_
    intro b hm
    simp [hb b hm]
  | enabled => exact recorded_same (l := []) hs rfl id (by simp [blocks]) (by simp)
  | acknowledged =>
    exact recorded_same (l := []) hs rfl (fun hw => hw.imp id hfresh) (by simp [blocks]) (by simp)
  | @closed p q hp _ _ _ hst =>
    refine recorded_ended hs (fun _ => rfl) fun p' hp' => ?_
    cases hp'
    exact hst
  | @discarded p hp hu =>
    refine recorded_ended hs (fun hl => ?_) (by simp)
    have hl' : living s = true := hl
    simp [Faithful, misreported, hl', hp, hu] at hok
  | aborted ha =>
    refine recorded_ended hs (fun _ => ?_) (by simp)
    unfold happened
    split <;> simp_all [aborts]
  | handlers => exact recorded_same (l := []) hs rfl id (by simp [blocks]) (by simp)
  | ran hq => exact recorded_same (l := []) hs rfl id (by simp [blocks, view, hq]) (by simp)
  | released =>
    exact recorded_same (l := []) hs rfl (fun hw => hw.imp (by simp) id) (by simp [blocks])
      (by simp)
  | env => exact recorded_same (l := []) hs rfl id (by simp [blocks]) (by simp)

lemma recorded_step (hs : Sound s) (hok : Faithful s e) (h : Recorded (view s)) :
    Recorded (view (step s e)) ∧ Named s e (view (step s e)) := by
  by_cases happ : ∃ a, e = .app a
  · obtain ⟨a, rfl⟩ := happ
    exact recorded_app hok h (flow_appStep hs.wf a)
  · have he : ∀ a, e ≠ .app a := fun a h => happ ⟨a, h⟩
    have hstart : Doomed s e (start e) (view s) := by
      intro r hr
      cases e <;> cases hr
    exact (keeps_event hs he ⟨⟨h, .inl rfl⟩, hstart⟩ fun hwi h hf => recorded_flow hok hwi h hf).1

lemma recorded_initial (h : Initial s) : Recorded (view s) := by
  obtain ⟨syn, iss, env, ticks, tf, pcb, -, -, rfl⟩ := h
  exact ⟨fun _ => rfl, by simp [view, opened, emptyLog]⟩

/-- The reason a connection records, and every termination it posts, names what ended it. -/
theorem reason_names_what_happened {s₀ : State o} (h₀ : Initial s₀) {before after : List Event}
    {e : Event} (hes : Runs.Along step Faithful s₀ (before ++ e :: after))
    (hopen : (Runs.run step s₀ before).conn.terminationReason = .none)
    (hend : (step (Runs.run step s₀ before) e).conn.terminationReason ≠ .none) :
    (Runs.run step s₀ (before ++ e :: after)).conn.terminationReason =
      happened (Runs.run step s₀ before) e ∧
    ∀ r, CBlock.terminated r ∈ (Runs.run step s₀ (before ++ e :: after)).log.trace.map Prod.fst ++
      (Runs.run step s₀ (before ++ e :: after)).connectionsQueue →
      r = happened (Runs.run step s₀ before) e := by
  obtain ⟨hbefore, hok, hafter⟩ := (Runs.along_append step).1 hes
  have hpre : Sound (Runs.run step s₀ before) ∧ Recorded (view (Runs.run step s₀ before)) := by
    refine Runs.invariant step (fun s => Sound s ∧ Recorded (view s)) (fun s e h he => ?_)
      ⟨sound_initial h₀, recorded_initial h₀⟩ hbefore
    exact ⟨sound_step h.1 e, (recorded_step h.1 he h.2).1⟩
  rw [Runs.run_append, Runs.run_cons]
  generalize Runs.run step s₀ before = s at hpre hopen hend hok hafter ⊢
  obtain ⟨hrec, hnamed⟩ := recorded_step hpre.1 hok hpre.2
  have hnow : (step s e).conn.terminationReason = happened s e := by
    rcases hnamed with h | ⟨-, h⟩
    · exact absurd (h.trans hopen) hend
    · exact h
  -- once recorded the reason never changes
  have hpost := Runs.invariant step
    (fun t => Sound t ∧ Recorded (view t) ∧ t.conn.terminationReason = happened s e)
      (fun t e' h he => ?_)
    ⟨sound_step hpre.1 e, hrec, hnow⟩ hafter
  · exact ⟨hpost.2.2, fun r hr => (hpost.2.1.posted r hr).1.trans hpost.2.2⟩
  · obtain ⟨hrec', hnamed'⟩ := recorded_step h.1 he h.2.1
    refine ⟨sound_step h.1 e', hrec', ?_⟩
    rcases hnamed' with h' | ⟨h', -⟩
    · exact h'.trans h.2.2
    · exact absurd (h.2.2.symm.trans h') (happened_ne_none s e)

/-- A connection without unread data is closed; lwIP's later events change nothing about the
reason. -/
theorem reason_names_what_happened_closed :
    Runs.Along step Faithful (listening .ios)
      (handshake ++ .app (.api .gracefulClose) :: [.slowtmr]) ∧
    (Runs.run step (listening .ios)
      (handshake ++ .app (.api .gracefulClose) :: [.slowtmr])).conn.terminationReason =
      .close := by
  have hes : Runs.Along step Faithful (listening .ios)
      (handshake ++ .app (.api .gracefulClose) :: [.slowtmr]) := by decide
  exact ⟨hes, (reason_names_what_happened (listening_initial .ios) hes (by decide) (by decide)).1⟩

/-- The peer's FIN, ours, and the peer's acknowledgement of it. -/
def orderlyExchange : List Event :=
  [.segment { ackSegment 101 6511 with fin := true }, .app (.api .shutdownWrite),
    .segment (ackSegment 102 6512)]

/-- A byte that the peer never acknowledges, until the retransmissions are used up. -/
def unanswered : List Event :=
  [.app (.api .markActive), .app (.api (.writeBytes [1])), .rexmitRto,
    .env { calmEnv with exhausted := true }]

/-- An orderly FIN exchange is reported as an abort, and a pcb that lwIP gives up on as
destroyed. -/
theorem reasons_misreported :
    let s := Runs.run step (listening .ios) (handshake ++ orderlyExchange.dropLast)
    let t := Runs.run step (listening .ios) (handshake ++ unanswered)
    Initial (listening .ios) ∧ happened s (.segment (ackSegment 102 6512)) = .close ∧
      (Runs.run step (listening .ios) (handshake ++ orderlyExchange)).conn.terminationReason =
        .abort ∧
      (t.pcb.map fun pcb => pcb.tx.unacked.map TxSeg.data) = some [[1]] ∧
      happened t .slowtmr = .abort ∧ (step t .slowtmr).conn.terminationReason = .destroyed :=
  ⟨listening_initial .ios, by decide, by decide, by decide, by decide, by decide⟩

end TunForge.TerminationReason
