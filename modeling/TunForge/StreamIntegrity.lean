import TunForge.WindowLedger

/-! The bytes that reach the readable handlers, in order, are a front part of the bytes that
lwIP offered. -/
namespace TunForge.StreamIntegrity
open SerialNumber PbufChain LwipTypes TcpOut TcpIn Tcp Connection Callbacks Stack StackRuns
open Boundary OrdinarySteps BoundaryRule PcbFrames CalmSteps InputCases Refinement WellFormed
open ReceiveSteps Inflow InflowSteps InflowEvents InflowRuns InflowCalls InboundRule Reassembly
  ReceiveBuffer WindowLedger OrderlyClose

variable {o : Platform} {s s₀ : State o} {e : Event} {ph ph' : Phase} {v w : View o}

def carried : CBlock → Bytes
  | .readableBytes _ slices _ => slices.flatten
  | .readable data => data
  | _ => []

/-- The bytes that handlers have been called with. -/
def received (trace : List (CBlock × Outcome)) : Bytes :=
  (trace.filter fun x => decide (x.2 = .called)).flatMap fun x => carried x.1

/-- The bytes that `tf_tcp_recv` has accepted. -/
def accepted (offers : List Offer) : Bytes :=
  (offers.filter Offer.accepted).flatMap fun x => x.p.bytes

/-- The byte stream that lwIP has offered, a payload it holds on to counted once. -/
def offered (s : State o) : Bytes := accepted s.log.offers ++ (refused s).elim [] fun r => r.p.bytes

def waiting (v : View o) : Bytes := v.queue.flatMap carried

/-- As long as the connection lives, what was accepted has been received or waits on the queue. -/
structure Intact (v : View o) : Prop where
  whole : v.living = true → received v.trace ++ waiting v = accepted v.offers
  part : received v.trace <+: accepted v.offers
  fresh : Fresh v → waiting v = [] ∧ accepted v.offers = []

lemma received_append (l l' : List (CBlock × Outcome)) :
    received (l ++ l') = received l ++ received l' := by
  simp [received]

lemma accepted_append (l l' : List Offer) : accepted (l ++ l') = accepted l ++ accepted l' := by
  simp [accepted]

lemma carried_of_hint {b : CBlock} (h : isHint b = true) : carried b = [] := by
  cases b <;> first | rfl | cases h

lemma waiting_of_queue {bs : List CBlock} (hq : w.queue = v.queue ++ bs)
    (hb : ∀ b ∈ bs, carried b = []) :
    waiting w = waiting v := by
  have hnil : bs.flatMap carried = [] := List.flatMap_eq_nil_iff.2 hb
  rw [waiting, hq, List.flatMap_append, hnil, List.append_nil, waiting]

lemma Intact.same (h : Intact v) (hl : w.living = true → v.living = true) (hf : Fresh w → Fresh v)
    (ht : w.trace = v.trace) (hq : waiting w = waiting v)
    (ha : accepted w.offers = accepted v.offers) : Intact w := by
  refine ⟨fun hw => ?_, ?_, fun hw => ?_⟩
  · rw [ht, hq, ha]
    exact h.whole (hl hw)
  · rw [ht, ha]
    exact h.part
  · rw [hq, ha]
    exact h.fresh (hf hw)

lemma intact_taking {c : Pbuf} (ht : Taking c v w) (hc : c.size < 2 ^ 16)
    (hserved : v.ready = true → v.malloc = true ∧
      (v.handlers.onReadableBytes = true ∨ v.handlers.onReadable = true))
    (hf : ¬ Fresh w) (h : Intact v) : Intact w := by
  -- a payload is taken by a connection that can pass it on
  have htot : c.totLen = c.size := Pbuf.totLen_eq hc
  have hlife := (taking_frame ht).1
  have htrace : w.trace = v.trace := congrArg Life.trace hlife
  have hliving : w.living = v.living := congrArg Life.living hlife
  have hacc : accepted w.offers = accepted v.offers ++ c.bytes := by
    rw [(taking_frame ht).2.2.1, accepted_append]
    simp [accepted]
  -- what the block takes along is the whole payload
  have hwait : v.living = true → waiting w = waiting v ++ c.bytes := by
    intro hv
    cases ht with
    | dropped hno =>
      have hnil : c.bytes = [] := by
        rcases hno with hno | hno
        · rw [hv] at hno
          cases hno
        · rw [← List.length_eq_zero_iff, Pbuf.length_bytes]
          omega
      rw [hnil, List.append_nil]
      rfl
    | delivered hr _ hd =>
      obtain ⟨hmem, hset⟩ := hserved hr
      cases hd with
      | bytes => simp [waiting, carried, Pbuf.bytes]
      | copied =>
        have hcopy : c.copyPartial c.totLen 0 = c.bytes := by
          rw [Pbuf.copyPartial_eq, List.drop_zero, List.take_of_length_le]
          rw [Pbuf.length_bytes]
          omega
        simp [waiting, carried, hcopy]
      | failed hm =>
        rw [hmem] at hm
        cases hm
      | unread hh =>
        rcases hset with hset | hset
        · rw [hh.1] at hset
          cases hset
        · rw [hh.2] at hset
          cases hset
  refine ⟨fun hw => ?_, ?_, fun hw => absurd hw hf⟩
  · rw [hliving] at hw
    rw [htrace, hacc, hwait hw, ← List.append_assoc, h.whole hw]
  · rw [htrace, hacc]
    exact h.part.trans (List.prefix_append _ _)

lemma intact_finTold (h : Intact v) : Intact v.finTold := by
  refine h.same id fresh_finTold rfl (waiting_of_queue rfl fun b hb => ?_) rfl
  split_ifs at hb
  · rw [List.mem_singleton.1 hb]
    rfl
  · cases hb

lemma intact_ended {r : Reason} {q : Option (Pcb o)} (h : Intact v)
    (hf : ¬ Fresh ({ v.ended r with pcb := q } : View o)) :
    Intact { v.ended r with pcb := q } := by
  have hover := living_ended r v
  cases hv : v.living with
  | false =>
    rw [ended_of_over r hv] at hf ⊢
    exact ⟨h.whole, h.part, fun hw => absurd hw hf⟩
  | true =>
    refine ⟨fun hw => ?_, ?_, fun hw => absurd hw hf⟩
    · rw [hover] at hw
      cases hw
    · simp only [View.ended, hv, if_true]
      exact h.part

lemma intact_flow (hok : Served s e) (hwi : Within s e ph v) (hst : Stocked s ph v) (h : Intact v)
    (hf : Flow s e (ph, v) (ph', w)) : Intact w := by
  have hfresh := flow_fresh hf
  have hmax := tcpWnd_le o
  cases hf with
  | worked => exact h.same id hfresh rfl rfl rfl
  | hinted hb =>
    refine h.same id hfresh rfl (waiting_of_queue rfl fun b hm => ?_) rfl
    rw [List.mem_singleton.1 hm]
    exact carried_of_hint hb
  | refusedAgain => exact h.same id hfresh rfl rfl (by simp [accepted])
  | @retaken _ _ w p r _ he hp _ hr ht =>
    have hsto := hst.stored p hp
    have hsize := hsto.refused_le hr
    rw [offerSplit_small hsize] at ht ⊢
    have hnot : ¬ Fresh w := by
      intro hfw
      obtain ⟨p', hp', hs⟩ := fresh_taking ht hfw
      cases hp'
      have hnone := (hsto.fresh hs).2
      rw [hr] at hnone
      cases hnone
    have hput : Intact ({ v with pcb := some (setRefused none p) } : View o) :=
      h.same id (fun ⟨p', hp', hs⟩ => ⟨p, hp, by cases hp'; exact hs⟩) rfl rfl rfl
    have hsmall : r.p.size < 2 ^ 16 := by omega
    have hw := intact_taking ht hsmall
      (fun hr => served_ready (v := { v with pcb := some (setRefused none p) }) hok he
        (hwi.framed.same rfl) hr) hnot hput
    split_ifs
    · exact intact_finTold hw
    · exact hw
  | ignored => exact h
  | received => exact h.same id hfresh rfl rfl rfl
  | queued => exact h.same id hfresh rfl rfl rfl
  | purged => exact h.same id hfresh rfl rfl rfl
  | @made _ p q hp hf =>
    -- nothing has been received, posted or accepted before the connection is made
    obtain ⟨h1, h2⟩ := h.fresh ⟨_, hp, hf⟩
    have hnil : received v.trace = [] := List.prefix_nil.1 (h2 ▸ h.part)
    have hwait : waiting (v.begun q) = waiting v := waiting_of_queue rfl (by simp [carried])
    refine ⟨fun _ => ?_, h.part, fun hw => ?_⟩
    · rw [hwait, h1]
      exact (List.append_nil _).trans (hnil.trans h2.symm)
    · rw [hwait]
      exact h.fresh (hfresh hw)
  | orphaned => exact h.same id hfresh rfl rfl rfl
  | reopened => exact h.same id hfresh rfl rfl rfl
  | @taken _ w c fin p hp ht =>
    have hsto := hst.stored p hp
    have hsize := hsto.size_le
    rw [offerSplit_small hsize] at ht
    have hnot : ¬ Fresh w := by
      intro hfw
      obtain ⟨p', hp', hs⟩ := fresh_taking ht hfw
      exact absurd hs ((hst.stored p' hp').past _ _ rfl)
    have hsmall : c.size < 2 ^ 16 := by omega
    exact intact_taking ht hsmall
      (fun hr => served_ready hok (retries_of_start (hwi.hand _ _ rfl)) hwi.framed hr) hnot h
  | refused => exact h.same id hfresh rfl rfl (by simp [accepted])
  | finMarked => exact h.same id hfresh rfl rfl rfl
  | finTold => exact intact_finTold h
  | settled => exact h
  | staleDropped => exact h.same id hfresh rfl rfl rfl
  | doomed => exact h
  | removed => exact intact_ended h fun ⟨p, hp, _⟩ => (by cases hp)

lemma carried_eq_nil {b : CBlock} (h : needsAlive b = false) : carried b = [] := by
  cases b <;> first | rfl | cases h

lemma received_ran {b : CBlock} {out : Outcome} {alive : Bool}
    (hout : needsAlive b = true → (out = .called ↔ alive = true)) :
    received [(b, out)] = if alive then carried b else [] := by
  cases hn : needsAlive b with
  | false =>
    rw [carried_eq_nil hn, ite_self]
    by_cases hc : out = .called
    · simp [received, hc, carried_eq_nil hn]
    · simp [received, hc]
  | true =>
    by_cases ha : alive = true
    · simp [received, (hout hn).2 ha, ha]
    · have hc : out ≠ .called := fun hc => ha ((hout hn).1 hc)
      simp [received, hc, ha]

lemma intact_app {a : AppEvent} (h : Intact (view s)) (hf : AppFlow s a w) : Intact w := by
  have hfresh := appFlow_fresh hf
  cases hf with
  | idle => exact h
  | worked _ _ _ _ hb =>
    exact h.same id hfresh rfl (waiting_of_queue rfl fun b hm => carried_of_hint (hb b hm)) rfl
  | activated _ _ _ _ hb =>
    refine h.same id hfresh rfl (waiting_of_queue rfl fun b hm => ?_) rfl
    rw [hb b hm]
    rfl
  | enabled => exact h.same id hfresh rfl rfl rfl
  | acknowledged => exact h.same id hfresh rfl rfl rfl
  | closed _ _ _ _ hs =>
    refine intact_ended h fun ⟨p, hp, hsyn⟩ => ?_
    cases hp
    exact hs hsyn
  | discarded => exact intact_ended h fun ⟨p, hp, _⟩ => (by cases hp)
  | aborted => exact intact_ended h fun ⟨p, hp, _⟩ => (by cases hp)
  | handlers => exact h.same id hfresh rfl rfl rfl
  | @ran b rest out hq hout =>
    have hwait : waiting (view s) = carried b ++ rest.flatMap carried := by
      simp [waiting, view, hq]
    have hran : received (s.log.trace ++ [(b, out)]) = received s.log.trace ++
        if living s then carried b else [] := by
      rw [received_append]
      congr 1
      exact received_ran hout
    refine ⟨fun hw => ?_, ?_, fun hw => ?_⟩
    · have hv : living s = true := hw
      have hwhole := h.whole hv
      rw [hwait] at hwhole
      rw [hran, if_pos hv, List.append_assoc]
      exact hwhole
    · rw [hran]
      split_ifs with hv
      · have hwhole := h.whole hv
        rw [hwait, ← List.append_assoc] at hwhole
        exact ⟨_, hwhole⟩
      · rw [List.append_nil]
        exact h.part
    · obtain ⟨h1, h2⟩ := h.fresh (hfresh hw)
      rw [hwait, List.append_eq_nil_iff] at h1
      exact ⟨h1.2, h2⟩
  | released => exact h.same (fun hw => (by cases hw)) hfresh rfl rfl rfl
  | env => exact h.same id hfresh rfl rfl rfl

/-- What the bytes' way to the handlers rests on. -/
def Delivering (s : State o) (e : Event) : Prop := KeepsOrder s e ∧ Served s e

instance (s : State o) (e : Event) : Decidable (Delivering s e) :=
  inferInstanceAs (Decidable (_ ∧ _))

lemma intact_step (hs : Sound s) (hok : Delivering s e) (hst : ∀ p, s.pcb = some p → Stored .rest p)
    (h : Intact (view s)) : Intact (view (step s e)) := by
  by_cases happ : ∃ a, e = .app a
  · obtain ⟨a, rfl⟩ := happ
    exact intact_app h (flow_appStep hs.wf a)
  · have hkept := keeps_event (I := fun ph v => Stocked s ph v ∧ Intact v) hs
      (fun a ha => happ ⟨a, ha⟩)
      ⟨stocked_start hst e, h⟩ fun hwi hi hf =>
        ⟨stocked_flow hok.1 hwi hi.1 hf, intact_flow hok.2 hwi hi.1 hi.2 hf⟩
    exact hkept.2

/-- The handlers have received a front part of the stream that lwIP offered. -/
theorem stream_integrity (h₀ : Initial s₀) {es : List Event}
    (hes : Runs.Along step Delivering s₀ es) :
    received (Runs.run step s₀ es).log.trace <+: offered (Runs.run step s₀ es) := by
  have hrun : Sound (Runs.run step s₀ es) ∧
      (∀ p, (Runs.run step s₀ es).pcb = some p → Stored .rest p) ∧
      Intact (view (Runs.run step s₀ es)) := by
    refine Runs.invariant step (fun s => Sound s ∧ (∀ p, s.pcb = some p → Stored .rest p) ∧
      Intact (view s)) (fun s e h he => ?_) ⟨sound_initial h₀, stored_initial h₀, ?_⟩ hes
    · exact ⟨sound_step h.1 e, stored_step h.1 he.1 h.2.1, intact_step h.1 he h.2.1 h.2.2⟩
    · obtain ⟨-, -, -, -, tf, pcb, -, -, rfl⟩ := h₀
      exact ⟨fun hl => (by cases hl), List.prefix_rfl, fun _ => ⟨rfl, rfl⟩⟩
  exact hrun.2.2.part.trans (List.prefix_append _ _)

/-- Five bytes have reached their handler, and a sixth is held back. -/
theorem stream_integrity_heldBack :
    let s := Runs.run step (listening .macos)
      (opening ++ [.segment fiveBytes, .app .runConnectionsBlock,
      .app .runConnectionsBlock, .app (.api (.setInboundDeliveryEnabled false)), .segment farewell])
    received s.log.trace = [1, 2, 3, 4, 5] ∧ offered s = [1, 2, 3, 4, 5, 6] ∧
      received s.log.trace <+: offered s := by
  have hes : Runs.Along step Delivering (listening .macos)
      (opening ++ [.segment fiveBytes, .app .runConnectionsBlock,
    .app .runConnectionsBlock, .app (.api (.setInboundDeliveryEnabled false)),
      .segment farewell]) := by decide
  exact ⟨by decide, by decide, stream_integrity (listening_initial .macos) hes⟩

/-- No memory for the first five bytes, which are accepted all the same; the sixth is delivered. -/
theorem stream_gap : Initial (listening .ios) ∧
    let s := Runs.run step (listening .ios)
      (opening ++ [.app (.env { calmTf with malloc := false }), .segment fiveBytes,
      .app (.env calmTf), .segment farewell, .app .runConnectionsBlock, .app .runConnectionsBlock])
    received s.log.trace = [6] ∧ offered s = [1, 2, 3, 4, 5, 6] ∧
      ¬ received s.log.trace <+: offered s := by
  exact ⟨listening_initial .ios, by decide⟩

end TunForge.StreamIntegrity
