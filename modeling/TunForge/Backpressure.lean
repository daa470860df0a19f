import TunForge.WindowLedger
import TunForge.WriteAdmission

/-! Backpressure ends with the last acknowledgement as long as no chain comes within the
low-water mark of the whole window. -/
namespace TunForge.Backpressure
open SerialNumber PbufChain LwipTypes TcpOut TcpIn Tcp Connection Callbacks Stack StackRuns
open Boundary BoundaryRule PcbFrames CalmSteps InputCases Refinement WellFormed WorkFrames
  PcbHistory WriteAdmission
open ReceiveSteps Inflow InflowSteps InflowEvents InflowRuns InflowCalls InboundRule Reassembly
  ReceiveBuffer WindowLedger OrderlyClose

variable {o : Platform} {s s₀ : State o} {e : Event} {p q : Pcb o} {ph ph' : Phase} {v w : View o}

/-- The largest low-water mark a connection can have. -/
def lowWaterMax (o : Platform) : ℕ := o.tcpRcvLowat.getD (2 * tcpMss)

/-- What a segment in sequence completes leaves the low-water mark free. -/
def FillsLittle (s : State o) : Event → Prop :=
  AtSegment fun seg => ∀ p ∈ s.pcb, p.list = .active →
    p.rx.rcvNxt = (trimFirstEdge p.rx.rcvNxt seg).seqno →
    seg.tcplen + queued p.rx.ooseq + lowWaterMax o ≤ o.tcpWnd

instance (s : State o) (e : Event) : Decidable (FillsLittle s e) :=
  inferInstanceAs (Decidable (AtSegment _ e))

def Unwedging (s : State o) (e : Event) : Prop := KeepsOrder s e ∧ FillsLittle s e ∧ NoWrap s

instance (s : State o) (e : Event) : Decidable (Unwedging s e) :=
  inferInstanceAs (Decidable (_ ∧ _))

lemma rcvLowWater_le (h : MssOk p) : rcvLowWater p ≤ lowWaterMax o := by
  obtain ⟨hpos, hle⟩ := h
  unfold rcvLowWater lowWaterMax
  cases o.tcpRcvLowat with
  | some n => exact le_rfl
  | none =>
    simp only [Option.getD_none]
    rw [if_neg (by omega)]
    omega

/-! ### What is held back leaves the low-water mark free -/

lemma held_flow (ho : KeepsOrder s e) (hwi : Within s e ph v) (hst : Stocked s ph v)
    (hf : Flow s e (ph, v) (ph', w)) (hq : w.pcb = some q) :
    (∃ p, v.pcb = some p ∧ heldBack q + load ph' ≤ heldBack p + load ph) ∨
    ∃ seg p x, e = .segment seg ∧ ph = .arriving ∧ v.pcb = some p ∧ p.list = .active ∧
    InSequence o (inbox p) seg x ∧
      heldBack q + load ph' ≤ seg.tcplen + queued p.rx.ooseq := by
  -- a stage holds no more back than was on its way, unless it has found a segment in sequence
  have hsame : ∀ {p q' : Pcb o}, v.pcb = some p → some q' = some q →
      q'.rx.refusedData = p.rx.refusedData →
      load ph' ≤ load ph → ∃ p, v.pcb = some p ∧ heldBack q + load ph' ≤ heldBack p + load ph := by
    intro p q' hp hq' hr hl
    cases hq'
    exact ⟨p, hp, Nat.add_le_add (heldBack_congr hr).le hl⟩
  cases hf with
  | worked _ hp hin => exact .inl (hsame hp hq (congrArg Inbox.refusedData hin) le_rfl)
  | hinted => exact .inl ⟨q, hq, le_rfl⟩
  | refusedAgain => exact .inl ⟨q, hq, le_rfl⟩
  | retaken _ _ hp _ hr ht =>
    rw [offerSplit_small ((hst.stored _ hp).refused_le hr)] at ht hq
    have hnone := heldBack_of_none (refusedData_retaken ht hq)
    exact .inl ⟨_, hp, by omega⟩
  | ignored => exact .inl ⟨q, hq, Nat.add_le_add_left (Nat.zero_le _) _⟩
  | received he hp hl hr hseq hs hplace =>
    subst he
    cases hq
    obtain ⟨-, hnone, -, hle⟩ :=
      stored_received ho hwi hst hp hl hr hseq hs (hplace.imp And.right fun x => x.2.2.2)
    refine .inr ⟨_, _, _, rfl, rfl, hp, hl, hseq, ?_⟩
    rw [heldBack_of_none hnone]
    simp only [load]
    omega
  | queued _ hp _ _ _ _ hin => exact .inl (hsame hp hq (congrArg Inbox.refusedData hin) le_rfl)
  | purged _ hp _ _ _ _ _ hin =>
    cases hq
    refine .inl ⟨_, hp, ?_⟩
    rw [heldBack_of_none (congrArg Inbox.refusedData hin)]
    simp only [load]
    omega
  | made hp _ _ hin => exact .inl (hsame hp hq (congrArg Inbox.refusedData hin) le_rfl)
  | orphaned => cases hq
  | reopened hp _ hin => exact .inl (hsame hp hq (congrArg Inbox.refusedData hin) le_rfl)
  | taken hp ht =>
    rw [offerSplit_small (hst.stored _ hp).size_le]
    have hr := heldBack_congr (refusedData_taking ht hp hq)
    refine .inl ⟨_, hp, ?_⟩
    simp only [load, dataSize, Option.elim]
    omega
  | @refused _ c fin p hp =>
    cases hq
    refine .inl ⟨p, hp, ?_⟩
    rw [heldBack_of_some (p := setRefused (some ⟨c, false⟩) p) rfl]
    simp only [load, dataSize, Option.elim, Bool.toNat_false]
    omega
  | @finMarked _ p r hp hr =>
    cases hq
    refine .inl ⟨p, hp, ?_⟩
    rw [heldBack_of_some hr, heldBack_of_some (p := setRefused (some { r with fin := true }) p) rfl]
    simp only [load, dataSize, Option.elim, Bool.toNat_true]
    omega
  | finTold =>
    obtain ⟨p, hp, rfl⟩ := Option.map_eq_some_iff.1 hq
    have hr := heldBack_congr (refusedData_correctFin p)
    refine .inl ⟨p, hp, ?_⟩
    simp only [load]
    omega
  | settled => exact .inl ⟨q, hq, le_rfl⟩
  | staleDropped hp hin => exact .inl (hsame hp hq (congrArg Inbox.refusedData hin) le_rfl)
  | doomed => exact .inl ⟨q, hq, Nat.add_le_add_left (Nat.zero_le _) _⟩
  | removed => cases hq

/-- What is held back or on its way leaves the low-water mark free. -/
def Spared (ph : Phase) (v : View o) : Prop :=
  ∀ p, v.pcb = some p → heldBack p + load ph + lowWaterMax o ≤ o.tcpWnd

lemma spared_flow (ho : KeepsOrder s e) (hlow : FillsLittle s e) (hwi : Within s e ph v)
    (hst : Stocked s ph v) (h : Spared ph v) (hf : Flow s e (ph, v) (ph', w)) : Spared ph' w := by
  intro q hq
  rcases held_flow ho hwi hst hf hq with ⟨p, hp, hle⟩ | ⟨seg, p, x, rfl, rfl, hp, hl, hseq, hle⟩
  · have := h p hp
    omega
  · obtain ⟨p₀, hp₀, hlater⟩ := (hwi.since rfl).2.pcb p hp
    have hnxt : p₀.rx.rcvNxt = (trimFirstEdge p₀.rx.rcvNxt seg).seqno := hlater.nxt ▸ hseq.2.1
    have hfree := hlow p₀ hp₀ (hlater.list ▸ hl) hnxt
    rw [← hlater.ooseq] at hfree
    omega

lemma spared_app {a : AppEvent} (h : Spared .rest (view s)) (hf : AppFlow s a w) :
    Spared .rest w := by
  have hset : ∀ {p q : Pcb o}, s.pcb = some p → q.rx.refusedData = p.rx.refusedData →
      ∀ p', some q = some p' → heldBack p' + load .rest + lowWaterMax o ≤ o.tcpWnd := by
    intro p q hp hr p' hp'
    cases hp'
    rw [heldBack_congr hr]
    exact h p hp
  cases hf with
  | worked hp hin => exact hset hp (congrArg Inbox.refusedData hin)
  | activated hp hin => exact hset hp (congrArg Inbox.refusedData hin)
  | acknowledged hp hq => exact hset hp (congrArg Inbox.refusedData hq.inbox)
  | closed hp _ hin => exact hset hp (congrArg Inbox.refusedData hin)
  | discarded => exact fun p hp => (by cases hp)
  | aborted => exact fun p hp => (by cases hp)
  | _ => exact h

/-! ### The first offer of an event -/

lemma offers_ended (r : Reason) (v : View o) :
    (v.ended r).offers = v.offers ∧ (v.ended r).inflight = v.inflight := by
  cases hv : v.living with
  | false =>
    rw [ended_of_over r hv]
    exact ⟨rfl, rfl⟩
  | true => simp [View.ended, hv]

lemma offers_retaken {c : Pbuf} {q : Option (Pcb o)} (b : Bool)
    (ht : Taking c { v with pcb := q } w) :
    (if b then w.finTold else w).offers = v.offers ++ [⟨c, true⟩] := by
  have hoff := (taking_frame ht).2.2.1
  cases b with
  | false => exact hoff
  | true => exact hoff

lemma offers_flow (hf : Flow s e (ph, v) (ph', w)) : ∃ l, w.offers = v.offers ++ l := by
  cases hf with
  | refusedAgain => exact ⟨_, rfl⟩
  | retaken _ _ _ _ _ ht => exact ⟨_, offers_retaken _ ht⟩
  | taken _ ht => exact ⟨_, (taking_frame ht).2.2.1⟩
  | refused => exact ⟨_, rfl⟩
  | removed => exact ⟨[], by simp [offers_ended]⟩
  | made => exact ⟨[], by simp [View.begun]⟩
  | orphaned => exact ⟨[], by simp [View.orphaned]⟩
  | finTold => exact ⟨[], by simp [View.finTold]⟩
  | _ => exact ⟨[], by simp⟩

/-- Nothing has been offered in this event, and what is about to be finds room; or something has,
and the first of it was accepted. -/
def FirstTaken (s₀ : State o) (ph : Phase) (v : View o) : Prop :=
  (v.offers = s₀.log.offers ∧ v.inflight = 0 ∧
    ∀ data fin p, ph = .hand data fin → v.pcb = some p → lowWaterMax o ≤ p.rx.rcvWnd) ∨
  ∃ x l, v.offers = s₀.log.offers ++ x :: l ∧ x.accepted = true

structure GateOpen (s : State o) : Prop where
  living : living s = true
  enabled : s.conn.recvEnabled = true
  active : s.conn.state = .active

lemma ready_of_room (hg : GateOpen s) (hfr : Framed s v) (hm : Sending v) (hv : v.living = true)
    (hp : v.pcb = some p) (hroom : lowWaterMax o ≤ p.rx.rcvWnd) : v.ready = true := by
  obtain ⟨-, hen, hst⟩ := hfr.kept hg.living
  have hlow := rcvLowWater_le (hm p hp).1
  simp only [View.ready, hv, hen, hst hv, hg.enabled, hg.active, hp, Option.any_some, Bool.true_and,
    decide_true, decide_eq_true_eq]
  omega

lemma firstTaken_flow (hg : GateOpen s) (ho : KeepsOrder s e) (hlow : FillsLittle s e)
    (hwi : Within s e ph v) (hst : Stocked s ph v) (hled : Ledger False s ph v) (hsp : Spared ph v)
    (hm : Sending v) (h : FirstTaken s ph v) (hf : Flow s e (ph, v) (ph', w)) :
    FirstTaken s ph' w := by
  have hsp' := spared_flow ho hlow hwi hst hsp hf
  obtain ⟨l, hl⟩ := offers_flow hf
  rcases h with ⟨hoff, hzero, hroom⟩ | ⟨x, l', hoff, hx⟩
  swap
  · exact .inr ⟨x, l' ++ l, by rw [hl, hoff]; simp, hx⟩
  have htaken : ∀ {c : Pbuf}, w.offers = v.offers ++ [⟨c, true⟩] → FirstTaken s ph' w :=
    fun hw => .inr ⟨_, [], by rw [hw, hoff], rfl⟩
  cases hf with
  | @worked _ _ p q _ hp hin =>
    have hwnd : q.rx.rcvWnd = p.rx.rcvWnd := congrArg Inbox.rcvWnd hin
    refine .inl ⟨hoff, hzero, fun data fin p' hph hp' => ?_⟩
    cases hp'
    rw [hwnd]
    exact hroom data fin p hph hp
  | hinted => exact .inl ⟨hoff, hzero, hroom⟩
  | @refusedAgain _ _ p r _ _ hp hact _ hv hn =>
    have hlower := (hled.account hv p hp).lower (.inr (.inl hact))
    have hheld := hsp p hp
    have hready := ready_of_room hg hwi.framed hm hv hp (by omega)
    rw [hn] at hready
    cases hready
  | retaken _ _ _ _ _ ht => exact htaken (offers_retaken _ ht)
  | ignored => exact .inl ⟨hoff, hzero, fun _ _ _ hph => (by cases hph)⟩
  | @received _ _ p q x he hp hact hr hseq hs hplace =>
    subst he
    have hv := (hwi.since rfl).2.life hg.living
    have hlower := (hled.account hv p hp).lower (.inr (.inl hact))
    obtain ⟨-, hnone, hwnd, -⟩ :=
      stored_received ho hwi hst hp hact hr hseq hs (hplace.imp And.right fun x => x.2.2.2)
    refine .inl ⟨hoff, hzero, fun data fin p' _ hp' => ?_⟩
    have hheld := hsp' q rfl
    cases hp'
    rw [heldBack_of_none hr] at hlower
    simp only [load] at hlower hheld
    omega
  | queued => exact .inl ⟨hoff, hzero, fun _ _ _ hph => (by cases hph)⟩
  | purged => exact .inl ⟨hoff, hzero, fun _ _ _ hph => (by cases hph)⟩
  | made _ _ hs₀ =>
    rw [hg.living] at hs₀
    cases hs₀
  | orphaned _ _ hs₀ =>
    rw [hg.living] at hs₀
    cases hs₀
  | reopened => exact .inl ⟨hoff, hzero, fun _ _ _ hph => (by cases hph)⟩
  | taken _ ht => exact htaken (taking_frame ht).2.2.1
  | refused hp hv hn =>
    have hready := ready_of_room hg hwi.framed hm hv hp (hroom _ _ _ rfl hp)
    rw [hn] at hready
    cases hready
  | finMarked => exact .inl ⟨hoff, hzero, fun _ _ _ hph => (by cases hph)⟩
  | finTold => exact .inl ⟨hoff, hzero, fun _ _ _ hph => (by cases hph)⟩
  | settled => exact .inl ⟨hoff, hzero, fun _ _ _ hph => (by cases hph)⟩
  | staleDropped => exact .inl ⟨hoff, hzero, fun _ _ _ hph => (by cases hph)⟩
  | doomed => exact .inl ⟨hoff, hzero, fun _ _ _ hph => (by cases hph)⟩
  | @removed _ r =>
    obtain ⟨h1, h2⟩ := offers_ended r v
    exact .inl ⟨h1.trans hoff, h2.trans hzero, fun _ _ _ hph => (by cases hph)⟩

/-! ### Whole runs -/

structure Sheltered (s : State o) : Prop where
  sound : Sound s
  stored : ∀ p, s.pcb = some p → Stored .rest p
  ledger : ∃ t, Ledger False t .rest (view s)
  spared : Spared .rest (view s)
  sending : Sending (view s)

lemma Sheltered.start (h : Sheltered s) (e : Event) :
    Stocked s (start e) (view s) ∧ Ledger False s (start e) (view s) ∧
    Spared (start e) (view s) := by
  obtain ⟨t, hled⟩ := h.ledger
  refine ⟨stocked_start h.stored e, ledger_begin hled h.stored e, fun p hp => ?_⟩
  have hsp := h.spared p hp
  rw [load_start]
  exact hsp

lemma offers_app {a : AppEvent} (hf : AppFlow s a w) : w.offers = s.log.offers := by
  cases hf with
  | closed => exact (offers_ended _ _).1
  | discarded => exact (offers_ended _ _).1
  | aborted => exact (offers_ended _ _).1
  | _ => rfl

lemma sheltered_step (h : Sheltered s) (hok : Unwedging s e) : Sheltered (step s e) := by
  obtain ⟨ho, hlow, hwrap⟩ := hok
  obtain ⟨t, hled⟩ := h.ledger
  refine ⟨sound_step h.sound e, stored_step h.sound ho h.stored,
    ⟨s, ledger_step h.sound ho hwrap (fun hf => hf.elim) h.stored hled⟩, ?_,
      sending_step h.sound h.sending e⟩
  by_cases happ : ∃ a, e = .app a
  · obtain ⟨a, rfl⟩ := happ
    exact spared_app h.spared (flow_appStep h.sound.wf a)
  · obtain ⟨h1, -, h2⟩ := h.start e
    have hkept := keeps_event (I := fun ph v => Stocked s ph v ∧ Spared ph v) h.sound
      (fun a ha => happ ⟨a, ha⟩) ⟨h1, h2⟩
      fun hwi hi hf => ⟨stocked_flow ho hwi hi.1 hf, spared_flow ho hlow hwi hi.1 hi.2 hf⟩
    exact hkept.2

lemma sheltered_initial (h : Initial s) : Sheltered s := by
  refine ⟨sound_initial h, stored_initial h, ⟨s, ledger_initial h⟩, ?_, sending_initial h⟩
  intro p hp
  have hst := stored_initial h p hp
  obtain ⟨syn, iss, env, ticks, tf, pcb, hpcb, -, rfl⟩ := h
  cases hp
  have hsyn : p.state = .synRcvd := congrArg Core.state (core_tcpListenInput hpcb).1
  rw [heldBack_of_none (hst.fresh hsyn).2]
  cases o <;> decide

lemma accepted_step (h : Sheltered s) (hg : GateOpen s) (hzero : s.conn.inflightAckBytes = 0)
    (hok : Unwedging s e) :
    ∀ x ∈ ((step s e).log.offers.drop s.log.offers.length).head?, x.accepted = true := by
  -- the first offer that an event makes to an open gate with nothing in flight is accepted
  obtain ⟨ho, hlow, hwrap⟩ := hok
  have hnone : (step s e).log.offers = s.log.offers →
      ∀ x ∈ ((step s e).log.offers.drop s.log.offers.length).head?, x.accepted = true := by
    intro hsame x hx
    rw [hsame, List.drop_length] at hx
    cases hx
  by_cases happ : ∃ a, e = .app a
  · obtain ⟨a, rfl⟩ := happ
    exact hnone (offers_app (flow_appStep h.sound.wf a))
  by_cases hlis : e = .listenerClosed
  · subst hlis
    exact hnone rfl
  · obtain ⟨h1, h2, h3⟩ := h.start e
    have hkept := keeps_event
      (I := fun ph v => (Stocked s ph v ∧ Ledger False s ph v ∧ Spared ph v ∧ Sending v) ∧
        FirstTaken s ph v)
      h.sound (fun a ha => happ ⟨a, ha⟩) ⟨⟨h1, h2, h3, h.sending⟩, .inl ⟨rfl, hzero, ?_⟩⟩
      fun hwi ⟨⟨i1, i2, i3, i4⟩, i5⟩ hf => ⟨⟨stocked_flow ho hwi i1 hf,
        ledger_flow hwrap (fun hf => hf.elim) ho hwi i1 i2 hf, spared_flow ho hlow hwi i1 i3 hf,
          sending_flow hlis i4 hf⟩,
        firstTaken_flow hg ho hlow hwi i1 i2 i3 i4 i5 hf⟩
    · rcases hkept.2 with ⟨hsame, -⟩ | ⟨x, l, hoff, hx⟩
      · exact hnone hsame
      · have hoff' : (step s e).log.offers = s.log.offers ++ x :: l := hoff
        intro y hy
        rw [hoff', List.drop_left] at hy
        cases hy
        exact hx
    · intro data fin p hph
      cases e <;> cases hph

/-- Once everything that was delivered has been acknowledged, the gate lets the next offer in. -/
theorem backpressure_unwedged (h₀ : Initial s₀) {es : List Event}
    (hes : Runs.Along step Unwedging s₀ es) (hl : living (Runs.run step s₀ es) = true)
    (hen : (Runs.run step s₀ es).conn.recvEnabled = true)
    (hact : (Runs.run step s₀ es).conn.state = .active)
    (hzero : (Runs.run step s₀ es).conn.inflightAckBytes = 0) :
    let s := Runs.run step s₀ es
    (∀ p r, s.pcb = some p → p.rx.refusedData = some r → 0 < r.p.size →
      rcvLowWater p ≤ p.rx.rcvWnd) ∧
    ∀ e, Unwedging s e → ∀ x ∈ ((step s e).log.offers.drop s.log.offers.length).head?,
      x.accepted = true := by
  have hrun : Sheltered (Runs.run step s₀ es) :=
    Runs.invariant step Sheltered (fun s e h he => sheltered_step h he) (sheltered_initial h₀) hes
  refine ⟨fun p r hp hr hsize => ?_, fun e he => accepted_step hrun ⟨hl, hen, hact⟩ hzero he⟩
  obtain ⟨t, hled⟩ := hrun.ledger
  have hheld := heldBack_of_some hr
  have hlower := (hled.account hl p hp).lower (.inr (.inr (by omega)))
  have hsp := hrun.spared p hp
  have hlow := rcvLowWater_le (hrun.sending p hp).1
  simp only [load, view, hzero] at hlower hsp
  omega

/-- Five bytes are refused at a closed gate. It opens again, and lwIP's next offer is accepted. -/
theorem backpressure_unwedged_reopened :
    let s := Runs.run step (listening .ios)
      (opening ++ [.app (.api (.setInboundDeliveryEnabled false)),
        .segment fiveBytes, .app (.api (.setInboundDeliveryEnabled true))])
    ((step s .fasttmr).log.offers.drop s.log.offers.length).length = 1 ∧
      ∀ x ∈ ((step s .fasttmr).log.offers.drop s.log.offers.length).head?, x.accepted = true := by
  have hes : Runs.Along step Unwedging (listening .ios)
      (opening ++ [.app (.api (.setInboundDeliveryEnabled false)),
        .segment fiveBytes, .app (.api (.setInboundDeliveryEnabled true))]) := by decide
  have hdone := backpressure_unwedged (listening_initial .ios) hes (by decide) (by decide)
    (by decide) (by decide)
  exact ⟨by decide, hdone.2 .fasttmr (by decide)⟩

def block (n : ℕ) : Pbuf := ⟨[⟨n, List.replicate n 0⟩]⟩

lemma size_block (n : ℕ) : (block n).size = n := by simp [block, Pbuf.size, Pbuf.payloads]

/-- The segment at place `i` of a transfer in full segments. -/
def fullSegment (i : ℕ) : Segment :=
  { ackSegment (101 + BitVec.ofNat 32 (1460 * i)) 6511 with
    p := block 1460, fits := by rw [size_block]; decide }

/-- The first of 21 full segments is lost and comes last. The chain it completes leaves less than
the low-water mark of the window; nothing is in flight that could be acknowledged, and the chain
is refused again with every tick. -/
theorem backpressure_wedges : Initial (listening .ios) ∧
    let s := Runs.run step (listening .ios)
      (opening ++ (List.range' 1 20).map (fun i => .segment (fullSegment i)) ++
      [.segment (fullSegment 0)])
    living s = true ∧ s.conn.recvEnabled = true ∧ s.conn.state = .active ∧
      s.conn.inflightAckBytes = 0 ∧
      (s.pcb.map fun p => (p.rx.rcvWnd, rcvLowWater p, p.rx.refusedData.map fun r => r.p.size)) =
        some (2108, 2920, some 30660) ∧
      (step s .fasttmr).log.offers.map Offer.accepted = [false, false] := by
  exact ⟨listening_initial .ios, by decide +kernel⟩

end TunForge.Backpressure
