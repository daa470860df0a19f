import TunForge.TerminationReason

/-! Deliveries across the end of a connection: blocks that wait on connectionsQueue
when the connection ends are lost, and only those. -/
namespace TunForge.OrderlyClose
open SerialNumber PbufChain LwipTypes TcpOut TcpIn Tcp Connection Callbacks Stack StackRuns
open Boundary Termination OrdinarySteps BoundaryRule PcbFrames CalmSteps InputCases Refinement
  WellFormed
open ReceiveSteps Inflow InflowSteps InflowEvents InflowRuns InflowCalls InboundRule
  TerminationReason

variable {o : Platform} {s s₀ : State o} {e : Event}

/-- The events that can end a connection, orderly or not. -/
def mayEnd (s : State o) : Event → Bool
  | .segment seg => s.pcb.any fun pcb => decide (pcb.list = .active) &&
      ((seg.rst && decide (seg.seqno = pcb.rx.rcvNxt)) ||
        (!seg.rst && decide (pcb.state = .lastAck) &&
          (acksAllSent pcb seg || !decide (Untouched s))))
  | .slowtmr => newStateTimedOut s || s.pcb.any fun pcb =>
      (decide (pcb.list = .active) && slowtmrRemoves (tick pcb)) ||
      (decide (pcb.list = .timeWait) && timeWaitExpired (tick pcb))
  | .killTimewait => s.pcb.any fun pcb => decide (pcb.list = .timeWait)
  | .killState => s.pcb.any fun pcb =>
      decide (pcb.list = .active) && decide (pcb.state = .lastAck ∨ pcb.state = .closing)
  | .netifIpAddrChanged => s.pcb.any fun pcb => decide (pcb.list = .active)
  | .app (.api .gracefulClose) | .app .release => true
  | .app a => aborts s a
  | _ => false

/-- No delivery is waiting on connectionsQueue when the connection may end, nor would one be
posted in the same event. -/
def Drained (s : State o) (e : Event) : Prop :=
  mayEnd s e = true → (∀ b ∈ s.connectionsQueue, isDelivery b = false) ∧
    (living s = true → Untouched s)

instance (s : State o) (e : Event) : Decidable (Drained s e) := inferInstanceAs (Decidable (_ → _))

/-- Every delivery that ran reached its handler, and none is left behind by a connection that is
over. -/
structure Delivered (v : View o) : Prop where
  ran : ∀ x ∈ v.trace, isDelivery x.1 = true → x.2 = .called
  left : v.living = false → ∀ b ∈ v.queue, isDelivery b = false

/-- A connection about to be removed leaves no delivery behind. -/
def Emptied (ph : Phase) (v : View o) : Prop :=
  ∀ r, ph = .ending r → v.living = true → ∀ b ∈ v.queue, isDelivery b = false

/-- Until a segment is looked at, and in an event of a slow timer, no delivery is posted if none
that is held back would be taken. -/
def Unposted (s : State o) (e : Event) (ph : Phase) (v : View o) : Prop :=
  ph = start e → e ≠ .fasttmr → Untouched s → v.living = true → ∀ b ∈ v.queue, isDelivery b = true →
    b ∈ s.connectionsQueue

lemma mayEnd_of_doom {v : View o} {r : Reason} (hw : Within s e (start e) v) (hd : Doom s v e r)
    (hv : v.living = true) :
    mayEnd s e = true := by
  -- a connection can only be doomed by an event that may end it
  cases hd with
  | @reset seg p hp hl hrst hseq =>
    obtain ⟨p₀, hp₀, hlater⟩ := (hw.since rfl).2.pcb p hp
    have hl₀ : p₀.list = .active := hlater.list ▸ hl
    have hseq₀ : seg.seqno = p₀.rx.rcvNxt := hseq.trans hlater.nxt
    unfold mayEnd
    simp [hp₀, hl₀, hrst, hseq₀]
  | @finalAck seg p hp hl hs hrst hack =>
    obtain ⟨p₀, hp₀, hlater⟩ := (hw.since rfl).2.pcb p hp
    have hl₀ : p₀.list = .active := hlater.list ▸ hl
    have hs₀ : p₀.state = .lastAck := by
      rcases hlater.state with h | ⟨-, h⟩
      · exact h ▸ hs
      · rw [hs] at h
        cases h
    have hor : (acksAllSent p₀ seg || !decide (Untouched s)) = true := by
      by_cases hu : Untouched s
      · rcases hlater.held hu with rfl | ⟨hdead, -⟩
        · simp [hack]
        · obtain ⟨-, p₁, hp₁, hs₁⟩ := hw.born hdead hv
          cases hp₀.symm.trans hp₁
          rw [hs₀] at hs₁
          cases hs₁
      · simp [hu]
    unfold mayEnd
    simp [hp₀, hl₀, hs₀, hrst, hor]
  | unattended h =>
    rw [hv] at h
    cases h
  | removal hp hl h =>
    unfold mayEnd
    simp [hp, hl, h]
  | expiry hp hl h =>
    unfold mayEnd
    simp [hp, hl, h]
  | timeout hp hl h =>
    unfold mayEnd
    simp [h]
  | killTimewait hp hl =>
    unfold mayEnd
    simp [hp, hl]
  | killState hp hl hs =>
    unfold mayEnd
    simp [hp, hl, hs]
  | netif hp hl =>
    unfold mayEnd
    simp [hp, hl]

lemma mayEnd_of_aborts {a : AppEvent} (ha : aborts s a = true) : mayEnd s (.app a) = true := by
  cases a with
  | api c =>
    cases c with
    | gracefulClose => rfl
    | _ => exact ha
  | release => rfl
  | _ => exact ha

lemma isDelivery_of_hint {b : CBlock} (h : isHint b = true) : isDelivery b = false := by
  cases b with
  | writableChanged | sentBytes => rfl
  | _ => cases h

lemma needsAlive_of_delivery {b : CBlock} (h : isDelivery b = true) : needsAlive b = true := by
  cases b with
  | readableBytes | readable | readEOF => rfl
  | _ => cases h

lemma unposted_flow {ph ph' : Phase} {v w : View o} (hwi : Within s e ph v) (hdel : Delivered v)
    (h : Unposted s e ph v) (hf : Flow s e (ph, v) (ph', w)) : Unposted s e ph' w := by
  intro hph he hu hl b hb hd
  have hkeep : ph = start e → v.living = true → b ∈ v.queue → b ∈ s.connectionsQueue :=
    fun hph hl hm => h hph he hu hl b hm hd
  -- data is handed on only after a segment has been looked at
  have hhand : ∀ data fin, ph = .hand data fin → Phase.rest ≠ start e := by
    intro data fin hp hr
    rw [hwi.hand data fin hp] at hr
    cases hr
  have hlook : ph = .arriving → Phase.rest ≠ start e := by
    intro hp hr
    rw [(hwi.since hp).1] at hr
    cases hr
  cases hf with
  | worked => exact hkeep hph hl hb
  | hinted hhint =>
    rcases List.mem_append.1 hb with hb | hb
    · exact hkeep hph hl hb
    · rw [List.mem_singleton.1 hb, isDelivery_of_hint hhint] at hd
      cases hd
  | refusedAgain => exact hkeep hph hl hb
  | @retaken _ _ w p r _ hre hp _ hr ht =>
    cases e with
    | segment seg =>
      subst hph
      exact absurd hu (touched_of_retaken hwi.framed (hwi.since rfl).2 hp hr ht)
    | fasttmr => exact absurd rfl he
    | _ => cases hre
  | ignored => exact absurd hph (hlook rfl)
  | received _ _ _ _ _ _ _ => cases e <;> cases hph
  | queued => exact absurd hph (hlook rfl)
  | purged => exact absurd hph (hlook rfl)
  | made hp hf hs₀ =>
    have hborn : b ∈ v.queue ∨ b = .accepted := by simpa [View.begun] using hb
    rcases hborn with hm | rfl
    · cases hv : v.living with
      | true => exact hkeep hph hv hm
      | false =>
        rw [hdel.left hv b hm] at hd
        cases hd
    · cases hd
  | orphaned => exact absurd hph (hlook rfl)
  | reopened => exact absurd hph (hlook rfl)
  | taken => cases e <;> cases hph
  | refused => cases e <;> cases hph
  | finMarked => exact absurd hph (hhand _ _ rfl)
  | finTold => exact absurd hph (hhand _ _ rfl)
  | settled => exact absurd hph (hhand _ _ rfl)
  | staleDropped => exact hkeep hph hl hb
  | doomed => cases e <;> cases hph
  | @removed _ r =>
    cases hv : v.living with
    | false => simp [View.ended, hv] at hl
    | true => simp [View.ended, hv] at hl

lemma emptied_flow {ph ph' : Phase} {v w : View o} (hs : Sound s) (hok : Drained s e)
    (hwi : Within s e ph v) (h : Emptied ph v) (hun : Unposted s e ph v)
    (hf : Flow s e (ph, v) (ph', w)) : Emptied ph' w := by
  rintro r rfl hl b hb
  rcases ending_flow hf with ⟨rfl, hsame⟩ | ⟨rfl, hph, hd⟩
  · -- while the removal is under way only hints are posted
    rw [hsame] at hl
    cases hf with
    | worked => exact h r rfl hl b hb
    | hinted hhint =>
      rcases List.mem_append.1 hb with hb | hb
      · exact h r rfl hl b hb
      · rw [List.mem_singleton.1 hb]
        exact isDelivery_of_hint hhint
    | refusedAgain hph => cases e <;> cases hph
    | retaken hph => cases e <;> cases hph
    | doomed hph =>
      rcases hph with hph | hdead
      · cases e <;> cases hph
      · rw [hl] at hdead
        cases hdead
  · rcases hph with rfl | hdead
    · obtain ⟨hempty, hheld⟩ := hok (mayEnd_of_doom hwi hd hl)
      have hu : Untouched s := by
        cases hls : living s with
        | true => exact hheld hls
        | false =>
          obtain ⟨-, p₀, hp₀, hs₀⟩ := hwi.born hls hl
          refine .inl ?_
          simp [Stack.refused, hp₀, ((hs.wf.pcb p₀ hp₀).unread hs₀).2.1]
      have hfast : e ≠ .fasttmr := by
        rintro rfl
        cases hd with
        | unattended hdead =>
          rw [hl] at hdead
          cases hdead
      by_contra hn
      have hd' : isDelivery b = true := by simpa using hn
      rw [hempty b (hun rfl hfast hu hl b hb hd')] at hd'
      cases hd'
    · rw [hl] at hdead
      cases hdead

lemma delivered_flow {ph ph' : Phase} {v w : View o} (h : Delivered v) (he : Emptied ph v)
    (hf : Flow s e (ph, v) (ph', w)) :
    Delivered w := by
  rcases flow_life hf with
    ⟨hsame, bs, hq, hbs⟩ | ⟨-, -, -, q, rfl⟩ | ⟨-, -, hv, -, rfl⟩ | ⟨r, rfl, hl, rfl⟩
  · have htrace : w.trace = v.trace := congrArg Life.trace hsame
    have hliving : w.living = v.living := congrArg Life.living hsame
    refine ⟨htrace ▸ h.ran, fun hw b hb => ?_⟩
    have hv : v.living = false := hliving ▸ hw
    rw [hq] at hb
    rcases List.mem_append.1 hb with hb | hb
    · exact h.left hv b hb
    · rcases hbs b hb with hhint | ⟨hl, -⟩
      · exact isDelivery_of_hint hhint
      · rw [hv] at hl
        cases hl
  · exact ⟨h.ran, fun hw => by cases hw⟩
  · exact ⟨h.ran, fun _ => h.left hv⟩
  · simp only [View.ended, hl, if_true]
    refine ⟨h.ran, fun _ b hb => ?_⟩
    rcases List.mem_append.1 hb with hb | hb
    · exact he r rfl hl b hb
    · split_ifs at hb
      · rw [List.mem_singleton.1 hb]
        rfl
      · simp at hb

lemma delivered_ended {r : Reason} {q : Option (Pcb o)} (h : Delivered (view s))
    (hempty : ∀ b ∈ s.connectionsQueue, isDelivery b = false) :
    Delivered { (view s).ended r with pcb := q } := by
  cases hl : (view s).living with
  | false =>
    rw [ended_of_over r hl]
    exact ⟨h.ran, h.left⟩
  | true =>
    simp only [View.ended, hl, if_true]
    refine ⟨h.ran, fun _ b hb => ?_⟩
    rcases List.mem_append.1 hb with hb | hb
    · exact hempty b hb
    · split_ifs at hb
      · rw [List.mem_singleton.1 hb]
        rfl
      · simp at hb

lemma delivered_app {a : AppEvent} {w : View o} (hok : Drained s (.app a)) (h : Delivered (view s))
    (hf : AppFlow s a w) :
    Delivered w := by
  have hpost : ∀ {bs : List CBlock}, (∀ b ∈ bs, isDelivery b = false) → living s = false →
      ∀ b ∈ s.connectionsQueue ++ bs, isDelivery b = false := by
    intro bs hbs hl b hb
    rcases List.mem_append.1 hb with hb | hb
    · exact h.left hl b hb
    · exact hbs b hb
  cases hf with
  | idle => exact h
  | worked _ _ _ _ hb => exact ⟨h.ran, hpost fun b hm => isDelivery_of_hint (hb b hm)⟩
  | activated _ _ _ _ hb =>
    refine ⟨h.ran, hpost fun b hm => ?_⟩
    rw [hb b hm]
    rfl
  | enabled => exact ⟨h.ran, h.left⟩
  | acknowledged => exact ⟨h.ran, h.left⟩
  | closed => exact delivered_ended h (hok rfl).1
  | discarded => exact delivered_ended h (hok rfl).1
  | aborted ha => exact delivered_ended h (hok (mayEnd_of_aborts ha)).1
  | handlers => exact ⟨h.ran, h.left⟩
  | @ran b rest out hq hout =>
    have hmem : b ∈ s.connectionsQueue := by simp [hq]
    refine ⟨fun x hx hd => ?_, fun hl c hc => ?_⟩
    · rcases List.mem_append.1 hx with hx | hx
      · exact h.ran x hx hd
      · rw [List.mem_singleton.1 hx] at hd ⊢
        refine (hout (needsAlive_of_delivery hd)).2 ?_
        by_contra hn
        rw [h.left (by simpa [view] using hn) b hmem] at hd
        cases hd
    · exact h.left hl c (by simp [view, hq, hc])
  | released => exact ⟨h.ran, fun _ => (hok rfl).1⟩
  | env => exact ⟨h.ran, h.left⟩

lemma delivered_step (hs : Sound s) (hok : Drained s e) (h : Delivered (view s)) :
    Delivered (view (step s e)) := by
  by_cases happ : ∃ a, e = .app a
  · obtain ⟨a, rfl⟩ := happ
    exact delivered_app hok h (flow_appStep hs.wf a)
  · have he : ∀ a, e ≠ .app a := fun a h => happ ⟨a, h⟩
    have hstart : Emptied (start e) (view s) := by
      intro r hr
      cases e <;> cases hr
    have hkept := keeps_event (I := fun ph v => Delivered v ∧ Emptied ph v ∧
      Unposted s e ph v) hs he ⟨h, hstart, fun _ _ _ _ b hb _ => hb⟩
      fun hwi hi hf => ⟨delivered_flow hi.1 hi.2.1 hf, emptied_flow hs hok hwi hi.2.1 hi.2.2 hf,
        unposted_flow hwi hi.1 hi.2.2 hf⟩
    exact hkept.1

/-- Every delivery and every EOF notification reaches its handler when it runs. -/
theorem deliveries_reach_handlers {s₀ : State o} (h₀ : Initial s₀) {es : List Event}
    (hes : Runs.Along step Drained s₀ es) :
    ∀ x ∈ (Runs.run step s₀ es).log.trace, isDelivery x.1 = true → x.2 = .called := by
  have hrun : Sound (Runs.run step s₀ es) ∧ Delivered (view (Runs.run step s₀ es)) := by
    refine Runs.invariant step (fun s => Sound s ∧ Delivered (view s)) (fun s e h he => ?_)
      ⟨sound_initial h₀, ?_⟩ hes
    · exact ⟨sound_step h.1 e, delivered_step h.1 he h.2⟩
    · obtain ⟨-, -, -, -, tf, pcb, -, -, rfl⟩ := h₀
      exact ⟨by simp [view, opened, emptyLog], by simp [view, opened]⟩
  exact hrun.2.ran

/-- The application takes the connection and opens it for data. -/
def readers : Handlers := { noHandlers with onReadableBytes := true, onReadEOF := true }

def opening : List Event :=
  handshake ++ [.app (.setHandlers readers), .app (.api .markActive),
    .app (.api (.setInboundDeliveryEnabled true))]

/-- The peer's last byte with its FIN, our FIN, and the peer's acknowledgement of it. -/
def lastByte : Segment := { ackSegment 101 6511 with
    fin := true, p := ⟨[⟨1, [7]⟩]⟩, fits := by decide }

def fiveBytes : Segment := { ackSegment 101 6511 with
    p := ⟨[⟨5, [1, 2, 3, 4, 5]⟩]⟩, fits := by decide }

/-- The two blocks run before the last acknowledgement comes. -/
theorem deliveries_reach_handlers_in_time :
    Runs.Along step Drained (listening .ios)
      (opening ++ [.segment lastByte, .app (.api .shutdownWrite),
      .app .runConnectionsBlock, .app .runConnectionsBlock, .segment (ackSegment 103 6512)]) ∧
    ∀ x ∈ (Runs.run step (listening .ios)
      (opening ++ [.segment lastByte, .app (.api .shutdownWrite),
      .app .runConnectionsBlock, .app .runConnectionsBlock,
      .segment (ackSegment 103 6512)])).log.trace,
      isDelivery x.1 = true → x.2 = .called := by
  have hes : Runs.Along step Drained (listening .ios)
      (opening ++ [.segment lastByte, .app (.api .shutdownWrite), .app .runConnectionsBlock,
        .app .runConnectionsBlock, .segment (ackSegment 103 6512)]) := by decide +kernel
  exact ⟨hes, deliveries_reach_handlers (listening_initial .ios) hes⟩

/-- An orderly exchange of FINs overtakes the two blocks, and the last byte and the EOF are lost. -/
theorem last_byte_lost : Initial (listening .ios) ∧
    (Runs.run step (listening .ios) (opening ++ [.segment lastByte, .app (.api .shutdownWrite),
      .segment (ackSegment 103 6512), .app .runConnectionsBlock,
      .app .runConnectionsBlock])).log.trace.drop 1 =
      [(.readableBytes lastByte.p [[7]] 1, .dead), (.readEOF, .dead)] := by
  exact ⟨listening_initial .ios, by decide +kernel⟩

end TunForge.OrderlyClose
