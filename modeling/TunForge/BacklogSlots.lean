import TunForge.PcbHistory

/-! The place of one connection in the backlog of its listener: taken with the SYN, held
through the handshake until the connection is activated or its pcb leaves the active
list. The calls of `tcp_backlog_accepted` and `tcp_backlog_delayed` an event makes are
listed in order, and what they make of the flag is what the pcb then carries. -/
namespace TunForge.BacklogSlots
open SerialNumber PbufChain LwipTypes TcpOut TcpIn Tcp Connection Callbacks Stack
open Lifecycle BoundaryRule PcbFrames CalmSteps InputCases WellFormed StackRuns WorkFrames
open Inflow InflowSteps InflowEvents InflowCalls InboundRule PcbHistory

variable {o : Platform} {s s₀ : State o} {e : Event}

/-! ### Slots over a run -/

/-- The connection counts among the pending ones of its listener. -/
def slot (s : State o) : Bool := s.pcb.any slotted

structure SlotOk (v : View o) (p : Pcb o) : Prop where
  fresh : FreshOk p
  wait : p.list = .timeWait → slotted p = false
  new : v.living = true → v.state = .new → p.list = .active → p.listener = true →
    p.backlogPend = true
  active : v.living = true → v.state = .active → slotted p = false

/-- A connection holds its slot while it is new and its pcb active, and none afterwards. -/
def Slotted (v : View o) : Prop := ∀ p, v.pcb = some p → SlotOk v p

lemma slotted_none {v : View o} (h : v.pcb = none) : Slotted v := by
  intro p hp
  rw [h] at hp
  cases hp

/-- What a living connection was when the event began. -/
def StateSince (s₀ : State o) (v : View o) : Prop :=
  v.living = true → (living s₀ = true ∧ v.state = s₀.conn.state) ∨
    (v.state = .new ∧ Fresh (view s₀))

lemma stateSince_flow {ph ph' : Phase} {v w : View o} (hw : Within s₀ e ph v) (h : StateSince s₀ v)
    (hf : Flow s₀ e (ph, v) (ph', w)) : StateSince s₀ w := by
  rcases flow_life hf with
    ⟨hsame, -⟩ | ⟨-, hfresh, -, q, rfl⟩ | ⟨-, -, hv, -, rfl⟩ | ⟨r, -, hv, rfl⟩
  · have hl : w.living = v.living := congrArg Life.living hsame
    have hs : w.state = v.state := congrArg Life.state hsame
    unfold StateSince
    rw [hl, hs]
    exact h
  · exact fun _ => .inr ⟨rfl, hw.fresh hfresh⟩
  · intro hl
    exact absurd (hv.symm.trans hl) (by simp)
  · intro hl
    rw [show ({ v.ended r with pcb := none } : View o).living = (v.ended r).living from rfl,
      living_ended] at hl
    cases hl

lemma stateSince_event (hs : Sound s) (he : ∀ a, e ≠ .app a) : StateSince s (view (step s e)) :=
  keeps_event (I := fun _ v => StateSince s v) hs he (fun hl => .inl ⟨hl, rfl⟩) fun hw h hf =>
    stateSince_flow hw h hf

lemma slotOk_unlistened {v : View o} {p : Pcb o} (h : FreshOk p) :
    SlotOk v { p with listener := false } where
  fresh hs := ⟨(h hs).1, fun hl => by cases hl⟩
  wait _ := rfl
  new _ _ _ hl := by cases hl
  active _ _ := rfl

lemma slotOk_keeps {v w : View o} {p q : Pcb o} (h : SlotOk v p) (hk : Keeps p q)
    (hlist : p.list = .active ∨ p.list = .timeWait)
    (hstate : w.living = true → (v.living = true ∧ w.state = v.state) ∨
      (w.state = .new ∧ p.state = .synRcvd)) :
    SlotOk w q := by
  have hnone : slotted p = false → slotted q = false := by
    intro hp
    by_contra hq
    rw [Bool.not_eq_false] at hq
    by_cases hl : q.list = .timeWait
    · obtain ⟨-, hsp⟩ := hk.purged h.fresh hl hq
      rw [hp] at hsp
      cases hsp
    · simp only [slotted, hk.listener, hk.slot h.fresh hl] at hq
      exact absurd (hp.symm.trans hq) (by simp)
  refine ⟨hk.fresh h.fresh, fun hl => ?_, fun hv hs hl hlis => ?_, fun hv hs => ?_⟩
  · by_contra hq
    rw [Bool.not_eq_false] at hq
    obtain ⟨hp, hsp⟩ := hk.purged h.fresh hl hq
    rw [h.wait hp] at hsp
    cases hsp
  · have hne : q.list ≠ .timeWait := by simp [hl]
    rw [hk.slot h.fresh hne]
    rw [hk.listener] at hlis
    rcases hstate hv with ⟨hv', hs'⟩ | ⟨-, hf⟩
    · refine h.new hv' (hs'.symm.trans hs) (hlist.resolve_right fun hp => hne (hk.waits hp)) hlis
    · exact (h.fresh hf).2 hlis
  · rcases hstate hv with ⟨hv', hs'⟩ | ⟨hs', -⟩
    · exact hnone (h.active hv' (hs'.symm.trans hs))
    · rw [hs] at hs'
      cases hs'

lemma slotted_event (hs : Sound s) (h : Slotted (view s)) (he : ∀ a, e ≠ .app a) :
    Slotted (view (step s e)) := by
  by_cases hl : e = .listenerClosed
  · subst hl
    intro q hq
    obtain ⟨p, hp, rfl⟩ := Option.map_eq_some_iff.1 (show s.pcb.map _ = some q from hq)
    exact slotOk_unlistened (h p hp).fresh
  intro q hq
  obtain ⟨p, hp, hk, -⟩ := onward_event hs he hl q hq
  refine slotOk_keeps (h p hp) hk ?_ fun hv => ?_
  · exact (hs.wf.pcb p hp).listed.imp And.left And.left
  · rcases stateSince_event hs he hv with hsince | ⟨hn, p', hp', hf⟩
    · exact .inl hsince
    · cases (show s.pcb = some p from hp).symm.trans hp'
      exact .inr ⟨hn, hf⟩

lemma slotOk_same {v w : View o} {p q : Pcb o} (h : SlotOk v p) (hm : Stays p q)
    (hl : q.list = p.list) (hliv : w.living = true → v.living = true)
    (hst : w.living = true → w.state = v.state) : SlotOk w q := by
  have hsl : slotted q = slotted p := by
    unfold slotted
    rw [hm.listener, pend_of_side hm.side]
  refine ⟨hm.fresh, fun hw => ?_, fun hv hs hact hlis => ?_, fun hv hs => ?_⟩
  · rw [hsl]
    exact h.wait (hl.symm.trans hw)
  · rw [pend_of_side hm.side]
    exact h.new (hliv hv) ((hst hv).symm.trans hs) (hl.symm.trans hact)
      (hm.listener.symm.trans hlis)
  · rw [hsl]
    exact h.active (hliv hv) ((hst hv).symm.trans hs)

lemma stays_refl {p : Pcb o} (h : FreshOk p) : Stays p p := ⟨rfl, rfl, h⟩

lemma slotted_same {v w : View o} (h : Slotted v) (hp : w.pcb = v.pcb)
    (hliv : w.living = true → v.living = true) (hst : w.living = true → w.state = v.state) :
    Slotted w := by
  intro p hq
  rw [hp] at hq
  exact slotOk_same (h p hq) (stays_refl (h p hq).fresh) rfl hliv hst

lemma stays_of_credit {n : ℕ} {p q : Pcb o} (h : Credit n p q) (hf : FreshOk p) : Stays p q :=
  ⟨h.side, listener_of_core h.core, (keeps_of_credit h).fresh hf⟩

lemma slotted_app {a : AppEvent} {w : View o} (hw : Wf s) (h : Slotted (view s))
    (hf : AppFlow s a w) : Slotted w := by
  cases hf with
  | idle => exact h
  | worked hp _ hl _ _ hm =>
    intro q hq
    cases hq
    exact slotOk_same (h _ hp) hm hl id fun _ => rfl
  | @activated p _ _ hp _ _ _ _ hq hv =>
    subst hq
    intro q hq
    cases hq
    -- the slot goes with the first activation
    have htaken : p.state ≠ .synRcvd := by
      intro hs
      rw [living_of_fresh hw hp hs] at hv
      cases hv
    have hnone : slotted (tcpBacklogAccepted p) = false := by
      simp only [slotted, tcpBacklogAccepted]
      cases p.listener <;> simp
    exact ⟨.of_taken htaken, fun _ => hnone, fun _ hs => (by cases hs), fun _ _ => hnone⟩
  | acknowledged hp hq =>
    intro q hq'
    cases hq'
    exact slotOk_same (h _ hp) (stays_of_credit hq (h _ hp).fresh)
      (list_of_core hq.core) id fun _ => rfl
  | closed hp _ _ hl _ hm =>
    intro q hq
    cases hq
    have hover : ((view s).ended .close).living = false := living_ended .close (view s)
    exact slotOk_same (h _ hp) hm hl (fun hv => absurd (hover.symm.trans hv) (by simp))
      fun hv => absurd (hover.symm.trans hv) (by simp)
  | discarded => exact slotted_none rfl
  | aborted => exact slotted_none rfl
  | enabled => exact slotted_same h rfl id fun _ => rfl
  | handlers => exact slotted_same h rfl id fun _ => rfl
  | ran => exact slotted_same h rfl id fun _ => rfl
  | released => exact slotted_same h rfl (fun hl => by cases hl) fun _ => rfl
  | env => exact slotted_same h rfl id fun _ => rfl

lemma slotted_step (hs : Sound s) (h : Slotted (view s)) (e : Event) :
    Slotted (view (step s e)) := by
  by_cases happ : ∃ a, e = .app a
  · obtain ⟨a, rfl⟩ := happ
    exact slotted_app hs.wf h (flow_appStep hs.wf a)
  · exact slotted_event hs h fun a ha => happ ⟨a, ha⟩

lemma pend_tcpListenInput {syn : Segment} {iss : Seq} {env : Env} {ticks : ℕ} {pcb : Pcb o}
    (h : tcpListenInput o syn iss env ticks = some pcb) : pcb.backlogPend = true := by
  have hnew : (newPcb o syn iss env ticks).backlogPend = true := pend_tcpParseopt _ syn
  have henq := side_tcpEnqueueFlags (newPcb o syn iss env ticks) true false
  revert h
  unfold tcpListenInput
  split
  · next p hp =>
    rw [hp] at henq
    rintro ⟨⟩
    exact (pend_of_side ((side_tcpOutput p).trans henq)).trans hnew
  · rintro ⟨⟩

lemma slotted_initial (h : Initial s) : Slotted (view s) := by
  obtain ⟨syn, iss, env, ticks, tf, pcb, hpcb, -, rfl⟩ := h
  intro p hp
  cases hp
  have hcore := (core_tcpListenInput hpcb).1
  have hlist : pcb.list = .active := congrArg Core.list hcore
  refine ⟨fun _ => ⟨congrArg Core.closePend hcore, fun _ => pend_tcpListenInput hpcb⟩, fun hl => ?_,
    fun hv => (by cases hv), fun hv => (by cases hv)⟩
  rw [hlist] at hl
  cases hl

lemma slotted_reachable (h : Reachable s) : Sound s ∧ Slotted (view s) := by
  obtain ⟨s₀, es, h₀, rfl⟩ := h
  refine Runs.invariant_all step (fun s => Sound s ∧ Slotted (view s)) (fun s e h => ?_)
    ⟨sound_initial h₀, slotted_initial h₀⟩ es
  exact ⟨sound_step h.1 e, slotted_step h.1 h.2 e⟩

/-! ### The calls an event makes -/

inductive BacklogCall
  | accepted
  | delayed
  deriving DecidableEq

/-- The flag of a pcb with the `accepts_pending` of its listener, a `u8_t`, and whether an assertion
about that counter has failed. -/
structure Tally where
  pend : Bool
  pending : ℕ
  failed : Bool
  deriving DecidableEq

/-- `tcp_backlog_accepted` and `tcp_backlog_delayed` on a pcb whose listener is still there. -/
def backlogCall (t : Tally) : BacklogCall → Tally
  | .accepted =>
    if t.pend then ⟨false, (t.pending + 0xFF) % 0x100, t.failed || decide (t.pending = 0)⟩ else t
  | .delayed =>
    if t.pend then t else ⟨true, (t.pending + 1) % 0x100, t.failed ||
      decide ((t.pending + 1) % 0x100 = 0)⟩

/-- The counter is that of `n` other pcbs and this one, and there is room for one more. -/
structure Tally.Counts (n : ℕ) (t : Tally) : Prop where
  pending : t.pending = n + t.pend.toNat
  room : n < 0xFF
  sound : t.failed = false

lemma Tally.Counts.call {n : ℕ} {t : Tally} (h : t.Counts n) (c : BacklogCall) :
    (backlogCall t c).Counts n := by
  obtain ⟨hp, hr, hf⟩ := h
  cases c with
  | accepted =>
    unfold backlogCall
    split_ifs with hpend
    · rw [hpend, Bool.toNat_true] at hp
      refine ⟨?_, hr, ?_⟩
      · rw [hp]
        simp only [Bool.toNat_false]
        omega
      · simp [hf, hp]
    · exact ⟨hp, hr, hf⟩
  | delayed =>
    unfold backlogCall
    split_ifs with hpend
    · exact ⟨hp, hr, hf⟩
    · rw [Bool.not_eq_true] at hpend
      rw [hpend, Bool.toNat_false] at hp
      refine ⟨?_, hr, ?_⟩
      · rw [hp]
        simp only [Bool.toNat_true]
        omega
      · have hne : (t.pending + 1) % 0x100 ≠ 0 := by omega
        simp [hf, hne]

lemma Tally.Counts.calls {n : ℕ} {t : Tally} (h : t.Counts n) (cs : List BacklogCall) :
    (cs.foldl backlogCall t).Counts n := by
  induction cs generalizing t with
  | nil => exact h
  | cons c cs ih => exact ih (h.call c)

@[simp] lemma pend_accepted (t : Tally) : (backlogCall t .accepted).pend = false := by
  unfold backlogCall
  split_ifs with h
  · rfl
  · simpa using h

@[simp] lemma pend_delayed (t : Tally) : (backlogCall t .delayed).pend = true := by
  unfold backlogCall
  split_ifs with h
  · exact h
  · rfl

/-- The segment completes the handshake of this pcb, so its listener's accept callback is called. -/
def acceptCall (s : State o) (seg : Segment) : Bool :=
  s.pcb.any fun pcb => decide (pcb.list = .active) && pcb.listener && !seg.rst &&
    completesHandshake (atInput pcb) seg

/-- `markActive` gets as far as `tcp_backlog_accepted`. -/
def activates (s : State o) : Bool :=
  held s && s.conn.alive && s.conn.pcb && decide (s.conn.state = .new)

/-- The pcb has been purged: it is freed, or has moved to the TIME-WAIT list. -/
def purges (s t : State o) : Bool :=
  s.pcb.any fun p => match t.pcb with
    | none => true
    | some q => decide (q.list = .timeWait ∧ p.list ≠ .timeWait)

def ownCalls (s : State o) : Event → List BacklogCall
  | .segment seg => if acceptCall s seg then [.accepted, .delayed] else []
  | .app (.api .markActive) => if activates s then [.accepted] else []
  | _ => []

/-- The calls of `tcp_backlog_accepted` and `tcp_backlog_delayed` in the course of an event. Where
`tcp_abandon` calls the former once more than the purge does, the second call finds nothing to
do. -/
def backlogCalls (s : State o) (e : Event) : List BacklogCall :=
  ownCalls s e ++ if purges s (step s e) then [.accepted] else []

lemma pcb_markActive (hw : Wf s) {p : Pcb o} (hp : s.pcb = some p) :
    (appStep s (.api .markActive)).pcb =
      some (if activates s then tcpBacklogAccepted p else p) := by
  -- activation releases the slot; a call that comes too late changes nothing
  simp only [appStep]
  by_cases hh : held s = true
  case neg => simp [hh, activates, hp]
  rw [if_pos hh]
  have he : s.connExists = true := by
    simp only [held, Bool.and_eq_true] at hh
    exact hh.1
  by_cases hg : (!s.conn.alive || !s.conn.pcb) = true ∨ s.conn.state ≠ .new
  · have heq : markActive s = s := by
      unfold markActive
      split_ifs with ha hn
      · rfl
      · rfl
      · exact absurd (hg.resolve_left ha) hn
    have hnot : activates s = false := by
      unfold activates
      rcases hg with hg | hg
      · cases ha : s.conn.alive <;> cases hc : s.conn.pcb <;> simp_all
      · simp [hg]
    simp [apiCall, heq, hnot, hp]
  · simp only [not_or, Bool.not_eq_true, Bool.or_eq_false_iff, Bool.not_eq_false', ne_eq,
      not_not] at hg
    have ha := hw.coherent.toAttached he hg.1.1
    have hact : activates s = true := by simp [activates, hh, hg.1.1, hg.1.2, hg.2]
    rw [hact, if_pos rfl]
    simp only [apiCall]
    rw [markActive_eq ha hg.2]
    unfold notifyActiveOnceLocked
    split_ifs
    · simp [Sys.callLwip, hp]
      rfl
    · simp [Sys.callLwip, Sys.postIf, hp]
      rfl

lemma slot_app {a : AppEvent} {w : View o} (h : Slotted (view s)) (hf : AppFlow s a w)
    (ha : a ≠ .api .markActive) {p q : Pcb o} (hp : s.pcb = some p) (hq : w.pcb = some q) :
    slotted q = slotted p ∧ q.list = p.list := by
  -- apart from activation the application's events leave the slot alone, unless the pcb goes
  have hstays : ∀ {p' q' : Pcb o}, s.pcb = some p' → w.pcb = some q' → Stays p' q' →
      q'.list = p'.list →
      slotted q = slotted p ∧ q.list = p.list := by
    intro p' q' hp' hq' hm hl
    cases hp.symm.trans hp'
    cases hq.symm.trans hq'
    refine ⟨?_, hl⟩
    unfold slotted
    rw [hm.listener, pend_of_side hm.side]
  have hsame : w.pcb = s.pcb → slotted q = slotted p ∧ q.list = p.list := by
    intro hw
    cases hp.symm.trans (hw.symm.trans hq)
    exact ⟨rfl, rfl⟩
  cases hf with
  | idle => exact hsame rfl
  | worked hp' _ hl _ _ hm => exact hstays hp' rfl hm hl
  | activated => exact absurd rfl ha
  | acknowledged hp' hq' =>
    exact hstays hp' rfl (stays_of_credit hq' (h _ hp').fresh) (list_of_core hq'.core)
  | closed hp' _ _ hl _ hm => exact hstays hp' rfl hm hl
  | discarded => cases hq
  | aborted => cases hq
  | enabled => exact hsame rfl
  | handlers => exact hsame rfl
  | ran => exact hsame rfl
  | released => exact hsame rfl
  | env => exact hsame rfl

lemma acceptCall_pend (h : Slotted (view s)) {p : Pcb o} (hp : s.pcb = some p) {seg : Segment}
    (ha : acceptCall s seg = true) : p.state = .synRcvd ∧ p.backlogPend = true := by
  simp only [acceptCall, hp, Option.any_some, Bool.and_eq_true] at ha
  have hs : p.state = .synRcvd := by
    have hc := ha.2
    simp only [completesHandshake, Bool.and_eq_true, decide_eq_true_eq] at hc
    exact hc.1.1.1
  exact ⟨hs, ((h p hp).fresh hs).2 ha.1.1.2⟩

lemma slot_unpurged (hs : Sound s) (h : Slotted (view s)) (he : e ≠ .listenerClosed) {p q : Pcb o}
    (hp : s.pcb = some p) (hlis : p.listener = true) (hq : (step s e).pcb = some q)
    (hl : q.list = .timeWait → p.list = .timeWait) (t : Tally) (ht : t.pend = p.backlogPend) :
    slotted q = ((ownCalls s e).foldl backlogCall t).pend := by
  have hslp : slotted p = p.backlogPend := by simp [slotted, hlis]
  by_cases happ : ∃ a, e = .app a
  · obtain ⟨a, rfl⟩ := happ
    by_cases ha : a = .api .markActive
    · subst ha
      have hmark := (pcb_markActive hs.wf hp).symm.trans hq
      simp only [ownCalls]
      split_ifs at hmark ⊢
      · cases hmark
        simp [slotted, tcpBacklogAccepted, hlis]
      · cases hmark
        exact hslp.trans ht.symm
    · have hown : ownCalls s (.app a) = [] := by
        cases a with
        | api c => cases c <;> first | rfl | exact absurd rfl ha
        | _ => rfl
      rw [hown, (slot_app h (flow_appStep hs.wf a) ha hp hq).1]
      exact hslp.trans ht.symm
  · obtain ⟨p', hp', hk, -⟩ := onward_event hs (fun a ha => happ ⟨a, ha⟩) he q hq
    cases (show s.pcb = some p from hp).symm.trans hp'
    have hsl : slotted q = p.backlogPend := by
      by_cases htw : q.list = .timeWait
      · rw [(slotted_step hs h e q hq).wait htw, ← hslp, (h p hp).wait (hl htw)]
      · simp [slotted, hk.listener, hlis, hk.slot (h p hp).fresh htw]
    rw [hsl]
    cases e with
    | segment seg =>
      simp only [ownCalls]
      split_ifs with hacc
      · simp [(acceptCall_pend h hp hacc).2]
      · exact ht.symm
    | app a => exact absurd ⟨a, rfl⟩ happ
    | _ => exact ht.symm

lemma backlogCalls_unpended (h : Slotted (view s)) {p : Pcb o} (hp : s.pcb = some p)
    (hpend : p.backlogPend = false) (e : Event) {t : Tally} (ht : t.pend = false) :
    (backlogCalls s e).foldl backlogCall t = t := by
  -- without a slot there is none to release, and none is taken
  have hkeep : backlogCall t .accepted = t := by simp [backlogCall, ht]
  have hown : (ownCalls s e).foldl backlogCall t = t := by
    unfold ownCalls
    split
    · next seg =>
      split_ifs with hacc
      · rw [(acceptCall_pend h hp hacc).2] at hpend
        cases hpend
      · rfl
    · split_ifs
      · exact hkeep
      · rfl
    · rfl
  unfold backlogCalls
  rw [List.foldl_append, hown]
  split_ifs
  · exact hkeep
  · rfl

/-- With its listener still there, the flag of a pcb goes through exactly the changes the calls of
the event make. -/
theorem slot_step (hs : Sound s) (h : Slotted (view s)) (he : e ≠ .listenerClosed) {p : Pcb o}
    (hp : s.pcb = some p) (hlis : p.listener = true) (t : Tally) (ht : t.pend = p.backlogPend) :
    slot (step s e) = ((backlogCalls s e).foldl backlogCall t).pend := by
  unfold backlogCalls
  rw [List.foldl_append]
  cases hpurge : purges s (step s e) with
  | true =>
    have hnone : slot (step s e) = false := by
      cases hq : (step s e).pcb with
      | none => simp [slot, hq]
      | some q =>
        simp only [purges, hp, hq, Option.any_some, decide_eq_true_eq] at hpurge
        simp only [slot, hq, Option.any_some]
        exact (slotted_step hs h e q hq).wait hpurge.1
    simp [hnone]
  | false =>
    cases hq : (step s e).pcb with
    | none => simp [purges, hp, hq] at hpurge
    | some q =>
      simp only [purges, hp, hq, Option.any_some, decide_eq_false_iff_not, not_and,
        not_not] at hpurge
      simp only [slot, hq, Option.any_some]
      exact slot_unpurged hs h he hp hlis hq hpurge t ht

/-! ### The listener of a pcb -/

lemma pcb_app {a : AppEvent} {w : View o} (hf : AppFlow s a w) {q : Pcb o} (hq : w.pcb = some q) :
    ∃ p, s.pcb = some p ∧ q.listener = p.listener := by
  cases hf with
  | worked hp _ _ _ _ hm =>
    cases hq
    exact ⟨_, hp, hm.listener⟩
  | activated hp _ _ _ _ hacc =>
    cases hq
    subst hacc
    exact ⟨_, hp, rfl⟩
  | acknowledged hp hcred =>
    cases hq
    exact ⟨_, hp, listener_of_core hcred.core⟩
  | closed hp _ _ _ _ hm =>
    cases hq
    exact ⟨_, hp, hm.listener⟩
  | discarded => cases hq
  | aborted => cases hq
  | _ => exact ⟨q, hq, rfl⟩

lemma pcb_step (hs : Sound s) {q : Pcb o} (hq : (step s e).pcb = some q) :
    ∃ p, s.pcb = some p ∧ q.listener = (p.listener && !decide (e = .listenerClosed)) := by
  by_cases hl : e = .listenerClosed
  · subst hl
    obtain ⟨p, hp, rfl⟩ := Option.map_eq_some_iff.1 (show s.pcb.map _ = some q from hq)
    exact ⟨p, hp, by simp⟩
  by_cases happ : ∃ a, e = .app a
  · obtain ⟨a, rfl⟩ := happ
    obtain ⟨p, hp, hlis⟩ := pcb_app (flow_appStep hs.wf a) hq
    exact ⟨p, hp, by simp [hlis]⟩
  · obtain ⟨p, hp, hk, -⟩ := onward_event hs (fun a ha => happ ⟨a, ha⟩) hl q hq
    exact ⟨p, hp, by simp [hk.listener, hl]⟩

lemma slot_of_step (hs : Sound s) (h : Slotted (view s)) (he : e ≠ .listenerClosed)
    (hown : ownCalls s e = []) (hslot : slot (step s e) = true) : slot s = true := by
  obtain ⟨q, hq, hsq⟩ := (Option.any_eq_true _ _).1 hslot
  obtain ⟨p, hp, hlis⟩ := pcb_step hs hq
  have hp' : p.listener = true := by
    simp only [slotted, hlis, Bool.and_eq_true] at hsq
    exact hsq.1.1
  rw [slot_step hs h he hp hp' ⟨p.backlogPend, 0, false⟩ rfl] at hslot
  unfold backlogCalls at hslot
  rw [hown, List.nil_append] at hslot
  split_ifs at hslot
  · simp at hslot
  · simpa [slot, hp, slotted, hp'] using hslot

end TunForge.BacklogSlots
