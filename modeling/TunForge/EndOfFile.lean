import TunForge.OrderlyClose

/-! The peer's FIN is announced once, if its handler is there when lwIP reports it. -/
namespace TunForge.EndOfFile
open SerialNumber PbufChain LwipTypes TcpOut TcpIn Tcp Connection Callbacks Stack StackRuns
open Boundary Termination OrdinarySteps BoundaryRule PcbFrames CalmSteps InputCases Refinement
  WellFormed
open ReceiveSteps Inflow InflowSteps InflowEvents InflowRuns InflowCalls InboundRule
  TerminationReason OrderlyClose

variable {o : Platform} {s s₀ : State o} {e : Event}

/-- The events in which lwIP may report the peer's FIN: it comes in the segment, from the
reassembly queue, or behind refused data. -/
def mayReportFin (s : State o) : Event → Bool
  | .segment seg => s.pcb.any fun pcb => decide (pcb.list = .active) &&
      (seg.fin || pcb.rx.ooseq.any RxSeg.fin || pcb.rx.refusedData.any Refused.fin)
  | .fasttmr => s.pcb.any fun pcb => pcb.rx.refusedData.any Refused.fin
  | _ => false

/-- A FIN is reported to a connection that knows of it already or has its handler installed, and
never together with the segment that completes the handshake. -/
def Attended (s : State o) (e : Event) : Prop :=
  mayReportFin s e = true →
    (living s = true → s.conn.readEOF = true ∨ s.conn.handlers.onReadEOF = true) ∧
    ∀ pcb ∈ s.pcb, pcb.state ≠ .synRcvd

instance (s : State o) (e : Event) : Decidable (Attended s e) := inferInstanceAs (Decidable (_ → _))

def eofs (v : View o) : ℕ := (blocks v).count .readEOF

/-- A living connection has posted one notification if it knows of the FIN and none before. -/
structure Heard (v : View o) : Prop where
  told : v.living = true → eofs v = if v.readEOF then 1 else 0
  fresh : Fresh v → eofs v = 0

/-- What the connection knew when the event came it still knows. -/
def Remembered (s : State o) (v : View o) : Prop :=
  living s = true → s.conn.readEOF = true → v.readEOF = true

/-- A FIN that is about to be reported was announced by the state in which the event came. -/
def Foreseen (s : State o) (e : Event) (ph : Phase) (v : View o) : Prop :=
  (∀ data, ph = .hand data true → mayReportFin s e = true) ∧
  (ph = start e → retries e = true → ∀ p r, v.pcb = some p → p.list = .active →
    p.rx.refusedData = some r →
    r.fin = true → mayReportFin s e = true)

/-! ### Frames -/

lemma Heard.same {v w : View o} (h : Heard v) (hl : w.living = true → v.living = true)
    (hr : w.readEOF = v.readEOF) (hf : Fresh w → Fresh v) (hb : eofs w = eofs v) : Heard w := by
  refine ⟨fun hw => ?_, fun hw => ?_⟩
  · rw [hb, hr]
    exact h.told (hl hw)
  · rw [hb]
    exact h.fresh (hf hw)

lemma heard_over {w : View o} (hl : w.living = false) (hp : w.pcb = none) : Heard w := by
  refine ⟨fun hw => ?_, fun hw => ?_⟩
  · rw [hl] at hw
    cases hw
  · obtain ⟨p, hp', -⟩ := hw
    rw [hp] at hp'
    cases hp'

lemma eofs_posts {v w : View o} {l : List CBlock} (ht : w.trace = v.trace)
    (hq : w.queue = v.queue ++ l) (hbs : ∀ b ∈ l, b ≠ .readEOF) : eofs w = eofs v := by
  have hnone : l.count .readEOF = 0 := List.count_eq_zero.2 fun hm => hbs _ hm rfl
  simp [eofs, blocks, ht, hq, hnone]

lemma ne_readEOF_of_hint {b : CBlock} (h : isHint b = true) : b ≠ .readEOF := by
  rintro rfl
  cases h

lemma ne_readEOF_of_readable {b : CBlock} (h : isReadable b = true) : b ≠ .readEOF := by
  rintro rfl
  cases h

lemma heard_taking {c : Pbuf} {v w : View o} (h : Heard v) (ht : Taking c v w) : Heard w := by
  obtain ⟨hlife, -, -, heof⟩ := taking_frame ht
  obtain ⟨bs, hq, hbs⟩ := taking_queue ht
  have hliving : w.living = v.living := congrArg Life.living hlife
  refine h.same (fun hw => hliving ▸ hw) heof (fresh_taking ht) ?_
  exact eofs_posts (congrArg Life.trace hlife) hq fun b hb => ne_readEOF_of_readable (hbs b hb).2

lemma heard_finTold {v : View o} (h : Heard v) (hfresh : ¬ Fresh v)
    (hh : v.living = true → v.readEOF = true ∨ v.handlers.onReadEOF = true) : Heard v.finTold := by
  refine ⟨fun hl => ?_, fun hw => absurd (fresh_finTold hw) hfresh⟩
  have hv : v.living = true := hl
  have htold := h.told hv
  have hq : v.finTold.queue = v.queue ++ if v.living && !v.readEOF &&
      v.handlers.onReadEOF then [.readEOF] else [] := rfl
  cases hr : v.readEOF with
  | true =>
    rw [hr] at hq htold
    have hsame : eofs v.finTold = eofs v := eofs_posts (l := []) rfl (by simpa using hq) (by simp)
    have hknown : v.finTold.readEOF = true := by simp [View.finTold, hr]
    rw [hsame, htold, hknown]
  | false =>
    have hset : v.handlers.onReadEOF = true := by simpa [hr] using hh hv
    simp only [hr, hv, hset] at hq
    rw [hr] at htold
    have hone : eofs v.finTold = eofs v + 1 := by
      have htrace : v.finTold.trace = v.trace := rfl
      simp [eofs, blocks, htrace, hq, add_assoc]
    have hknown : v.finTold.readEOF = true := by simp [View.finTold, hv]
    rw [hone, htold, hknown]
    rfl

/-! ### One event -/

lemma Attended.handler {ph : Phase} {v : View o} (hok : Attended s e) (hwi : Within s e ph v)
    (hrem : Remembered s v) (hm : mayReportFin s e = true) :
    ¬ Fresh v ∧ (v.living = true → v.readEOF = true ∨ v.handlers.onReadEOF = true) := by
  obtain ⟨hh, hold⟩ := hok hm
  refine ⟨fun hf => ?_, fun hv => ?_⟩
  · obtain ⟨p₀, hp₀, hs₀⟩ := hwi.fresh hf
    exact hold p₀ hp₀ hs₀
  · cases hl : living s with
    | false =>
      obtain ⟨-, p₀, hp₀, hs₀⟩ := hwi.born hl hv
      exact absurd hs₀ (hold p₀ hp₀)
    | true =>
      rw [(hwi.framed.kept hl).1]
      exact (hh hl).imp (hrem hl) id

lemma remembered_flow {ph ph' : Phase} {v w : View o} (hwi : Within s e ph v) (h : Remembered s v)
    (hf : Flow s e (ph, v) (ph', w)) : Remembered s w := by
  intro hl hr
  have hv := h hl hr
  cases hf with
  | @retaken _ _ w p r _ _ _ _ _ ht =>
    have hw : w.readEOF = true := (taking_frame ht).2.2.2.trans hv
    split_ifs
    · simp [View.finTold, hw]
    · exact hw
  | made _ _ hs₀ =>
    rw [hl] at hs₀
    cases hs₀
  | orphaned _ _ hs₀ =>
    rw [hl] at hs₀
    cases hs₀
  | taken _ ht => exact (taking_frame ht).2.2.2.trans hv
  | finTold => simp [View.finTold, hv]
  | removed =>
    unfold View.ended
    split_ifs <;> exact hv
  | _ => exact hv

lemma heard_flow {ph ph' : Phase} {v w : View o} (hok : Attended s e) (hwi : Within s e ph v)
    (hrem : Remembered s v) (hfor : Foreseen s e ph v) (h : Heard v)
    (hf : Flow s e (ph, v) (ph', w)) : Heard w := by
  have hset : ∀ {p : Option (Pcb o)}, (Fresh ({ v with pcb := p } : View o) → Fresh v) →
    Heard ({ v with pcb := p } : View o) :=
    fun hfr => h.same id rfl hfr rfl
  have hfresh := flow_fresh hf
  cases hf with
  | worked => exact hset hfresh
  | hinted hb => exact h.same id rfl hfresh (eofs_posts rfl rfl (by simp [ne_readEOF_of_hint hb]))
  | refusedAgain => exact h.same id rfl hfresh rfl
  | @retaken _ _ w p r hph hre hp hl hr ht =>
    have hv : Heard w := by
      refine heard_taking (hset fun hw => ?_) ht
      obtain ⟨q, hq, hs⟩ := hw
      cases hq
      exact ⟨p, hp, hs⟩
    have hw : life w = life v := (taking_frame ht).1
    split_ifs with hfin
    · simp only [Bool.and_eq_true] at hfin
      obtain ⟨hn, hh⟩ := hok.handler hwi hrem (hfor.2 hph hre p r hp hl hr hfin.1)
      refine heard_finTold hv (fun hfw => hn ?_) fun hlw => ?_
      · obtain ⟨q, hq, hs⟩ := fresh_taking ht hfw
        cases hq
        exact ⟨p, hp, hs⟩
      · have heof : w.readEOF = v.readEOF := (taking_frame ht).2.2.2
        have hhan : w.handlers = v.handlers := congrArg Life.handlers hw
        rw [heof, hhan]
        exact hh ((congrArg Life.living hw).symm.trans hlw)
    · exact hv
  | ignored => exact h
  | received => exact hset hfresh
  | queued => exact hset hfresh
  | purged => exact hset hfresh
  | @made _ p q hp hf =>
    have hzero := h.fresh ⟨_, hp, hf⟩
    have hsame : eofs (v.begun q) = eofs v := eofs_posts (l := [.accepted]) rfl rfl (by simp)
    exact ⟨fun _ => hsame.trans hzero, fun _ => hsame.trans hzero⟩
  | orphaned _ _ _ hv => exact heard_over hv rfl
  | reopened => exact hset hfresh
  | taken _ ht => exact heard_taking h ht
  | refused => exact h.same id rfl hfresh rfl
  | finMarked => exact hset hfresh
  | finTold =>
    obtain ⟨hn, hh⟩ := hok.handler hwi hrem (hfor.1 none rfl)
    exact heard_finTold h hn hh
  | settled => exact h
  | staleDropped => exact hset hfresh
  | doomed => exact h
  | @removed _ r => exact heard_over (living_ended r v) rfl

lemma mayReportFin_received {v : View o} {p : Pcb o} {seg : Segment} {b : InSeq} (hsi : Since s v)
    (hp : v.pcb = some p) (hl : p.list = .active) (hseq : InSequence o (inbox p) seg b)
    (hfin : b.gotFin = true) :
    mayReportFin s (.segment seg) = true := by
  obtain ⟨p₀, hp₀, hlater⟩ := hsi.pcb p hp
  have hl₀ : p₀.list = .active := hlater.list ▸ hl
  have hor : (seg.fin || p₀.rx.ooseq.any RxSeg.fin) = true := by
    rcases hseq.gotFin hfin with h | h
    · simp [h]
    · have h' : p.rx.ooseq.any RxSeg.fin = true := h
      rw [hlater.ooseq] at h'
      simp [h']
  simp [mayReportFin, hp₀, hl₀, hor]

lemma foreseen_flow {ph ph' : Phase} {v w : View o} (hwi : Within s e ph v) (h : Foreseen s e ph v)
    (hf : Flow s e (ph, v) (ph', w)) : Foreseen s e ph' w := by
  obtain ⟨hhand, hheld⟩ := h
  refine ⟨fun data hph => ?_, fun hph hre p' r' hp' hl' hr' hfin' => ?_⟩
  · subst hph
    generalize hto : Phase.hand data true = ph' at hf
    cases hf with
    | received he hp hl _ hseq =>
      injection hto with _ hfin
      subst he
      exact mayReportFin_received (hwi.since rfl).2 hp hl hseq hfin.symm
    | taken => exact hhand _ (by injection hto with _ h; rw [h])
    | refused => exact hhand _ (by injection hto with _ h; rw [h])
    | worked => exact hhand _ hto.symm
    | hinted => exact hhand _ hto.symm
    | refusedAgain hph =>
      rw [hph] at hto
      cases e <;> cases hto
    | retaken hph =>
      rw [hph] at hto
      cases e <;> cases hto
    | _ => cases hto
  · -- what is held back can only be marked with the FIN it had
    have hmark : ∀ {p : Pcb o}, v.pcb = some p → p'.list = p.list →
        p'.rx.refusedData = p.rx.refusedData → ph = start e →
        mayReportFin s e = true :=
      fun hp hl hr hph => hheld hph hre _ r' hp (hl ▸ hl') (hr ▸ hr') hfin'
    have hrest : ∀ data fin, ph = .hand data fin → Phase.rest ≠ start e := by
      intro data fin hp hr
      rw [hwi.hand data fin hp] at hr
      cases hr
    have hlook : ph = .arriving → Phase.rest ≠ start e := by
      intro hp hr
      rw [(hwi.since hp).1] at hr
      cases hr
    cases hf with
    | worked _ hp hin hl =>
      cases hp'
      exact hmark hp hl (congrArg Inbox.refusedData hin) hph
    | hinted => exact hheld hph hre p' r' hp' hl' hr' hfin'
    | refusedAgain => exact hheld hph hre p' r' hp' hl' hr' hfin'
    | @retaken _ _ w p r _ _ hp hl hr ht =>
      have hfin : r.fin = true := by
        have hleft := refusedData_retaken ht hp'
        rw [hr'] at hleft
        obtain ⟨q, -, hq⟩ := Option.map_eq_some_iff.1 hleft.symm
        rw [← hq] at hfin'
        exact hfin'
      exact hheld hph hre p r hp hl hr hfin
    | ignored => exact absurd hph (hlook rfl)
    | received => cases e <;> cases hph
    | queued => exact absurd hph (hlook rfl)
    | purged => exact absurd hph (hlook rfl)
    | made hp _ _ hin hl =>
      cases hp'
      exact hmark hp hl (congrArg Inbox.refusedData hin) hph
    | orphaned => exact absurd hph (hlook rfl)
    | reopened => exact absurd hph (hlook rfl)
    | taken => cases e <;> cases hph
    | refused => cases e <;> cases hph
    | finMarked => exact absurd hph (hrest _ _ rfl)
    | finTold => exact absurd hph (hrest _ _ rfl)
    | settled => exact absurd hph (hrest _ _ rfl)
    | staleDropped hp hin hl =>
      cases hp'
      exact hmark hp hl (congrArg Inbox.refusedData hin) hph
    | doomed => cases e <;> cases hph
    | removed => cases hp'

lemma heard_app {a : AppEvent} {w : View o} (h : Heard (view s)) (hf : AppFlow s a w) :
    Heard w := by
  have hfresh := appFlow_fresh hf
  cases hf with
  | idle => exact h
  | worked _ _ _ _ hb =>
    exact h.same id rfl hfresh (eofs_posts rfl rfl fun b hm => ne_readEOF_of_hint (hb b hm))
  | activated _ _ _ _ hb =>
    refine h.same id rfl hfresh (eofs_posts rfl rfl fun b hm => ?_)
    simp [hb b hm]
  | enabled => exact h.same id rfl id rfl
  | acknowledged => exact h.same id rfl hfresh rfl
  | @closed p q hp _ _ _ hst =>
    refine ⟨fun hl => ?_, fun hfr => ?_⟩
    · rw [show ({ (view s).ended .close with pcb := some q } : View o).living =
        _ from living_ended .close (view s)] at hl
      cases hl
    · obtain ⟨q', hq', hs'⟩ := hfr
      cases hq'
      exact absurd hs' hst
  | discarded => exact heard_over (living_ended .destroyed (view s)) rfl
  | aborted => exact heard_over (living_ended .abort (view s)) rfl
  | handlers => exact h.same id rfl id rfl
  | ran hq => exact h.same id rfl id (by simp [eofs, blocks, view, hq])
  | released => exact h.same (fun hl => by cases hl) rfl id rfl
  | env => exact h.same id rfl id rfl

lemma heard_step (hs : Sound s) (hok : Attended s e) (h : Heard (view s)) :
    Heard (view (step s e)) := by
  by_cases happ : ∃ a, e = .app a
  · obtain ⟨a, rfl⟩ := happ
    exact heard_app h (flow_appStep hs.wf a)
  · have he : ∀ a, e ≠ .app a := fun a h => happ ⟨a, h⟩
    have hfor : Foreseen s e (start e) (view s) := by
      refine ⟨fun data hph => ?_, fun _ hre p r hp hl hr hfin => ?_⟩
      · cases e <;> cases hph
      · have hp' : s.pcb = some p := hp
        cases e with
        | segment seg => simp [mayReportFin, hp', hl, hr, hfin]
        | fasttmr => simp [mayReportFin, hp', hr, hfin]
        | _ => cases hre
    have hkept := keeps_event (I := fun ph v => Heard v ∧ Remembered s v ∧ Foreseen s e ph v) hs he
      ⟨h, fun _ hr => hr, hfor⟩
      fun hwi hi hf => ⟨heard_flow hok hwi hi.2.1 hi.2.2 hi.1 hf, remembered_flow hwi hi.2.1 hf,
        foreseen_flow hwi hi.2.2 hf⟩
    exact hkept.1

/-- A connection that has been told of the peer's FIN has posted exactly one EOF notification. -/
theorem eof_posted_once {s₀ : State o} (h₀ : Initial s₀) {es : List Event}
    (hes : Runs.Along step Attended s₀ es) (hl : living (Runs.run step s₀ es) = true) :
    ((Runs.run step s₀ es).log.trace.map Prod.fst ++ (Runs.run step s₀ es).connectionsQueue).count
      .readEOF =
      if (Runs.run step s₀ es).conn.readEOF then 1 else 0 := by
  have hrun : Sound (Runs.run step s₀ es) ∧ Heard (view (Runs.run step s₀ es)) := by
    refine Runs.invariant step (fun s => Sound s ∧ Heard (view s)) (fun s e h he => ?_)
      ⟨sound_initial h₀, ?_⟩ hes
    · exact ⟨sound_step h.1 e, heard_step h.1 he h.2⟩
    · obtain ⟨-, -, -, -, tf, pcb, -, -, rfl⟩ := h₀
      exact ⟨fun hl => (by cases hl), fun _ => rfl⟩
  exact hrun.2.told hl

/-- The FIN comes after the handler has been installed. -/
theorem eof_posted_once_installed :
    Runs.Along step Attended (listening .ios) (opening ++ [.segment lastByte]) ∧
    ((Runs.run step (listening .ios) (opening ++ [.segment lastByte])).log.trace.map Prod.fst ++
      (Runs.run step (listening .ios) (opening ++ [.segment lastByte])).connectionsQueue).count
        .readEOF = 1 := by
  have hes : Runs.Along step Attended (listening .ios) (opening ++ [.segment lastByte]) := by decide
  exact ⟨hes, (eof_posted_once (listening_initial .ios) hes (by decide)).trans (by decide)⟩

/-- The peer's FIN comes while the delegate's block is still waiting on connectionsQueue. The
delegate then installs its handlers and activates the connection, and never hears of the FIN. -/
theorem eof_lost : Initial (listening .ios) ∧
    let s := Runs.run step (listening .ios) [.segment (ackSegment 101 6511),
      .segment { ackSegment 101 6511 with fin := true },
      .app .runConnectionsBlock, .app (.setHandlers readers), .app (.api .markActive)]
    living s = true ∧ s.conn.state = .active ∧ s.conn.readEOF = true ∧
      (s.log.trace.map Prod.fst ++ s.connectionsQueue).count .readEOF = 0 := by
  exact ⟨listening_initial .ios, by decide⟩

end TunForge.EndOfFile
