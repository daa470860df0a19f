import TunForge.InboundRule
import TunForge.Reassembly

/-! What a pcb stores for its connection as long as the peer keeps to the window: a sorted
reassembly queue, and no more refused data than the window has room for. -/
namespace TunForge.ReceiveBuffer
open SerialNumber PbufChain LwipTypes TcpOut TcpIn Tcp Connection Callbacks Stack
open Boundary Termination OrdinarySteps BoundaryRule PcbFrames CalmSteps InputCases Refinement
  WellFormed
open StackRuns ReceiveSteps Inflow InflowSteps InflowEvents InflowRuns InflowCalls InboundRule
  Reassembly

variable {o : Platform} {s s₀ : State o} {e : Event} {p q : Pcb o}

/-- The numbers charged to the window for data that is held back, its FIN included. -/
def heldBack (p : Pcb o) : ℕ := p.rx.refusedData.elim 0 fun r => r.p.size + r.fin.toNat

/-- The numbers charged to the window for what is on its way to the connection. -/
def load : Phase → ℕ
  | .hand data fin => dataSize data + fin.toNat
  | _ => 0

def AtSegment (P : Segment → Prop) : Event → Prop
  | .segment seg => P seg
  | _ => True

instance (P : Segment → Prop) [DecidablePred P] : (e : Event) → Decidable (AtSegment P e)
  | .segment seg => inferInstanceAs (Decidable (P seg))
  | .fasttmr | .slowtmr | .rexmitRto | .persist _ | .handleClosepend | .killTimewait | .killState
  | .netifIpAddrChanged | .listenerClosed | .app _ | .env _ => inferInstanceAs (Decidable True)

/-- The peer keeps to the window, and sends no text behind a FIN that is queued already. -/
def KeepsOrder (s : State o) : Event → Prop :=
  AtSegment fun seg => ∀ p ∈ s.pcb, p.list = .active → Orderly (inbox p) seg

instance (s : State o) (e : Event) : Decidable (KeepsOrder s e) :=
  inferInstanceAs (Decidable (AtSegment _ e))

/-- What is stored in a pcb at some stage of an event. -/
structure Stored (ph : Phase) (p : Pcb o) : Prop where
  boxed : Boxed o (inbox p)
  fits : heldBack p + load ph ≤ o.tcpWnd
  free : ∀ c fin, ph = .hand (some c) fin → p.rx.refusedData = none
  unmarked : ∀ fin r, ph = .hand none fin → p.rx.refusedData = some r → r.fin = false
  past : ∀ data fin, ph = .hand data fin → p.state ≠ .synRcvd
  fresh : p.state = .synRcvd → p.rx.rcvWnd = o.tcpWnd ∧ p.rx.refusedData = none

/-- Until a segment is looked at, the pcb holds nothing back or is as the segment found it. -/
structure Stocked (s₀ : State o) (ph : Phase) (v : View o) : Prop where
  found : ∀ p, s₀.pcb = some p → p.rx.rcvWnd ≤ o.tcpWnd
  stored : ∀ p, v.pcb = some p → Stored ph p
  unmoved : ph = .arriving → ∀ p, v.pcb = some p → p.rx.refusedData = none ∨ s₀.pcb = some p

/-! ### Frames -/

lemma heldBack_of_none (h : p.rx.refusedData = none) : heldBack p = 0 := by simp [heldBack, h]

lemma heldBack_of_some {r : Refused} (h : p.rx.refusedData = some r) :
    heldBack p = r.p.size + r.fin.toNat := by
  simp [heldBack, h]

lemma heldBack_congr (h : q.rx.refusedData = p.rx.refusedData) : heldBack q = heldBack p := by
  unfold heldBack
  rw [h]

lemma Stored.grow {ph : Phase} (h : Stored ph p)
    (hin : inbox q = { inbox p with rcvWnd := q.rx.rcvWnd })
    (hw : p.rx.rcvWnd ≤ q.rx.rcvWnd) (hw' : q.rx.rcvWnd ≤ o.tcpWnd)
      (hs : q.state = .synRcvd → p.state = .synRcvd) :
    Stored ph q := by
  have hr : q.rx.refusedData = p.rx.refusedData := congrArg Inbox.refusedData hin
  have hheld := heldBack_congr hr
  refine ⟨?_, hheld ▸ h.fits, ?_, ?_, fun data fin hph hq => h.past data fin hph (hs hq),
    fun hq => ?_⟩
  · rw [hin]
    exact h.boxed.grow hw hw'
  · rw [hr]
    exact h.free
  · rw [hr]
    exact h.unmarked
  · obtain ⟨h1, h2⟩ := h.fresh (hs hq)
    exact ⟨by omega, hr.trans h2⟩

lemma Stored.same {ph : Phase} (h : Stored ph p) (hin : inbox q = inbox p)
    (hs : q.state = .synRcvd → p.state = .synRcvd) : Stored ph q := by
  have hw : q.rx.rcvWnd = p.rx.rcvWnd := congrArg Inbox.rcvWnd hin
  have hmax : p.rx.rcvWnd ≤ o.tcpWnd := h.boxed.wnd
  refine h.grow ?_ hw.ge (hw ▸ hmax) hs
  rw [hw]
  exact hin

lemma Stored.credit {ph : Phase} {n : ℕ} (h : Stored ph p) (hq : Credit n p q) : Stored ph q := by
  have hwnd := hq.wnd h.boxed.wnd
  have hmax : p.rx.rcvWnd ≤ o.tcpWnd := h.boxed.wnd
  exact h.grow hq.inbox (by omega) (by omega) fun hs => (state_of_core hq.core) ▸ hs

lemma rcvWnd_correctFin (hw : p.rx.rcvWnd ≤ o.tcpWnd) :
    (correctFin p).rx.rcvWnd = min (p.rx.rcvWnd + 1) o.tcpWnd := by
  have hmod := tcpWnd_lt_wndMod o
  unfold correctFin
  rw [Pcb.wndMax_eq]
  split_ifs with hne
  · dsimp only
    rw [Nat.mod_eq_of_lt (by omega)]
    omega
  · omega

lemma inbox_correctFin (p : Pcb o) :
    inbox (correctFin p) = { inbox p with rcvWnd := (correctFin p).rx.rcvWnd } := by
  unfold correctFin
  split_ifs <;> rfl

lemma Stored.correctFin {ph : Phase} (h : Stored ph p) : Stored ph (correctFin p) := by
  have hmax : p.rx.rcvWnd ≤ o.tcpWnd := h.boxed.wnd
  have hwnd := rcvWnd_correctFin hmax
  exact h.grow (inbox_correctFin p) (by omega) (by omega) fun hs =>
    (state_of_core (core_correctFin p)) ▸ hs

lemma Stored.phase {ph ph' : Phase} (h : Stored ph p) (hl : load ph' ≤ load ph)
    (hh : ∀ data fin, ph' ≠ .hand data fin) :
    Stored ph' p :=
  ⟨h.boxed, (Nat.add_le_add_left hl _).trans h.fits, fun _ _ hp => absurd hp (hh _ _),
    fun _ _ hp => absurd hp (hh _ _), fun _ _ hp => absurd hp (hh _ _), h.fresh⟩

lemma Stored.rest {ph : Phase} (h : Stored ph p) : Stored .rest p :=
  h.phase (Nat.zero_le _) fun _ _ hp => (by cases hp)

lemma Stored.requeue {ph : Phase} (h : Stored ph p) (hb : Boxed o (inbox q))
    (hw : q.rx.rcvWnd = p.rx.rcvWnd) (hr : q.rx.refusedData = p.rx.refusedData ∨
      q.rx.refusedData = none) (hs : q.state = .synRcvd → p.state = .synRcvd) :
    Stored .rest q := by
  have hfits := h.fits
  have hheld : heldBack q ≤ heldBack p := by
    rcases hr with hr | hr
    · exact (heldBack_congr hr).le
    · rw [heldBack_of_none hr]
      omega
  refine ⟨hb, ?_, fun _ _ hp => (by cases hp), fun _ _ hp => (by cases hp),
    fun _ _ hp => (by cases hp), fun hq => ?_⟩
  · simp only [load]
    omega
  · obtain ⟨h1, h2⟩ := h.fresh (hs hq)
    refine ⟨hw.trans h1, ?_⟩
    rcases hr with hr | hr
    · exact hr.trans h2
    · exact hr

lemma Stored.release {ph : Phase} (h : Stored ph p) : Stored ph (setRefused none p) := by
  have hfits := h.fits
  refine ⟨⟨h.boxed.wnd, h.boxed.queue⟩, ?_, fun _ _ _ => rfl, fun _ _ _ hr => (by cases hr), h.past,
    fun hs => ⟨(h.fresh hs).1, rfl⟩⟩
  rw [heldBack_of_none (p := setRefused none p) rfl]
  omega

lemma Stored.handed {c : Pbuf} {fin : Bool} (h : Stored (.hand (some c) fin) p) :
    Stored (.hand none fin) p := by
  have hfits := h.fits
  have hnone := h.free c fin rfl
  refine ⟨h.boxed, ?_, fun _ _ hp => (by cases hp), fun _ r _ hr => ?_, fun _ _ _ => h.past _ _ rfl,
    h.fresh⟩
  · simp only [load, dataSize, Option.elim] at hfits ⊢
    omega
  · rw [hnone] at hr
    cases hr

lemma Stored.size_le {c : Pbuf} {fin : Bool} (h : Stored (.hand (some c) fin) p) :
    c.size ≤ o.tcpWnd := by
  have hfits := h.fits
  simp only [load, dataSize, Option.elim] at hfits
  omega

lemma Stored.refused_le {ph : Phase} {r : Refused} (h : Stored ph p)
    (hr : p.rx.refusedData = some r) :
    r.p.size ≤ o.tcpWnd := by
  have hfits := h.fits
  rw [heldBack_of_some hr] at hfits
  omega

lemma offerSplit_small {c : Pbuf} (h : c.size ≤ o.tcpWnd) : offerSplit o c = (c, none) := by
  have hmax := tcpWnd_le o
  unfold offerSplit
  split_ifs
  · exact Pbuf.split64k_of_small (by omega)
  · rfl

lemma stored_taking {c : Pbuf} {v w : View o} (ph : Phase) (ht : Taking c v w)
    (h : ∀ p, v.pcb = some p → Stored ph p) :
    ∀ p, w.pcb = some p → Stored ph p := by
  intro q hq
  rcases (taking_frame ht).2.1 with hsame | ⟨p, q', n, hp, hq', hcred⟩
  · exact h q (hsame ▸ hq)
  · cases hq.symm.trans hq'
    exact (h p hp).credit hcred

lemma stored_finTold {v : View o} {ph : Phase} (h : ∀ p, v.pcb = some p → Stored ph p) :
    ∀ p, v.finTold.pcb = some p → Stored ph p := by
  intro q hq
  obtain ⟨p, hp, rfl⟩ := Option.map_eq_some_iff.1 hq
  exact (h p hp).correctFin

/-! ### Along the stages of an event -/

lemma orderly_arriving {v : View o} {seg : Segment} (ho : KeepsOrder s (.segment seg))
    (hwi : Within s (.segment seg) .arriving v) (h : Stocked s .arriving v) (hp : v.pcb = some p)
    (hl : p.list = .active) :
    Orderly (inbox p) seg := by
  obtain ⟨p₀, hp₀, hlater⟩ := (hwi.since rfl).2.pcb p hp
  exact (ho p₀ hp₀ (hlater.list ▸ hl)).grow hlater.nxt hlater.ooseq (hlater.wnd (h.found p₀ hp₀)).1

lemma refusedData_inSequence {b : Inbox} {seg : Segment} {x : InSeq} (h : InSequence o b seg x) :
    x.rx.refusedData = b.refusedData := by
  obtain ⟨-, -, mss, rx, rfl, rfl⟩ := h
  exact refusedData_receiveInSequence mss rx _

lemma stored_received {v : View o} {seg : Segment} {x : InSeq} (ho : KeepsOrder s (.segment seg))
    (hwi : Within s (.segment seg) .arriving v) (h : Stocked s .arriving v) (hp : v.pcb = some p)
    (hl : p.list = .active) (hr : p.rx.refusedData = none) (hseq : InSequence o (inbox p) seg x)
    (hs : q.state ≠ .synRcvd) (hin : inbox q = inboxOf x.rx ∨
      inbox q = { inboxOf x.rx with ooseq := [], refusedData := none }) :
    Stored (.hand x.recvData x.gotFin) q ∧ q.rx.refusedData = none ∧
      q.rx.rcvWnd + (dataSize x.recvData + x.gotFin.toNat) = p.rx.rcvWnd ∧
      dataSize x.recvData + x.gotFin.toNat ≤ seg.tcplen + queued p.rx.ooseq := by
  -- what has been found in sequence, and the pcb it leaves
  have hb := (h.stored p hp).boxed
  obtain ⟨m, h1, h2, h3⟩ := assembled_of_inSequence hseq hb (orderly_arriving ho hwi h hp hl)
  have hnone : q.rx.refusedData = none := by
    rcases hin with hin | hin
    · exact (congrArg Inbox.refusedData hin).trans ((refusedData_inSequence hseq).trans hr)
    · exact congrArg Inbox.refusedData hin
  have hbox : Boxed o (inbox q) := by
    rcases hin with hin | hin
    · rw [hin]
      exact h2
    · rw [hin]
      exact h2.empty none
  have hwnd : q.rx.rcvWnd = x.rx.rcvWnd := by
    rcases hin with hin | hin
    · exact congrArg Inbox.rcvWnd hin
    · exact congrArg Inbox.rcvWnd hin
  have hmax : p.rx.rcvWnd ≤ o.tcpWnd := hb.wnd
  have hwnd' : x.rx.rcvWnd + m = p.rx.rcvWnd := h1.wnd
  have hdata := h1.data
  have hqueue : queued (inbox p).ooseq = queued p.rx.ooseq := rfl
  refine ⟨⟨hbox, ?_, fun _ _ _ => hnone, fun _ r _ hr' => ?_, fun _ _ _ => hs,
    fun hst => absurd hst hs⟩, hnone, ?_, ?_⟩
  · rw [heldBack_of_none hnone, load]
    omega
  · rw [hnone] at hr'
    cases hr'
  · omega
  · omega

lemma stocked_flow {ph ph' : Phase} {v w : View o} (ho : KeepsOrder s e) (hwi : Within s e ph v)
    (h : Stocked s ph v) (hf : Flow s e (ph, v) (ph', w)) : Stocked s ph' w := by
  have hset : ∀ {p q : Pcb o}, v.pcb = some p → inbox q = inbox p →
      (q.state = .synRcvd → p.state = .synRcvd) →
      ∀ p', some q = some p' → Stored ph p' := by
    intro p q hp hin hs p' hp'
    cases hp'
    exact (h.stored p hp).same hin hs
  cases hf with
  | worked hph hp hin _ hs => exact ⟨h.found, hset hp hin hs, fun hph' => absurd hph' hph⟩
  | hinted => exact ⟨h.found, h.stored, h.unmoved⟩
  | refusedAgain => exact ⟨h.found, h.stored, h.unmoved⟩
  | @retaken _ _ w p r _ _ hp _ hr ht =>
    have hst := h.stored p hp
    rw [offerSplit_small (hst.refused_le hr)] at ht ⊢
    have hw := stored_taking ph ht fun q hq => by
      cases hq
      exact hst.release
    refine ⟨h.found, ?_, fun _ q hq => .inl (refusedData_retaken ht hq)⟩
    split_ifs
    · exact stored_finTold hw
    · exact hw
  | ignored => exact ⟨h.found, fun p hp => (h.stored p hp).rest, fun hph => (by cases hph)⟩
  | received he hp hl hr hseq hs hplace =>
    subst he
    have hin := hplace.imp And.right fun x => x.2.2.2
    refine ⟨h.found, fun p' hp' => ?_, fun hph => (by cases hph)⟩
    cases hp'
    exact (stored_received ho hwi h hp hl hr hseq hs hin).1
  | queued he hp hl hseq hs _ hin =>
    subst he
    refine ⟨h.found, fun p' hp' => ?_, fun hph => (by cases hph)⟩
    cases hp'
    have hst := h.stored _ hp
    have hbox := boxed_of_outOfSequence hseq hst.boxed (orderly_arriving ho hwi h hp hl)
    exact hst.requeue (hin ▸ hbox) (congrArg Inbox.rcvWnd hin)
      (.inl (congrArg Inbox.refusedData hin)) fun hq => absurd hq hs
  | purged _ hp hl _ _ hs _ hin =>
    refine ⟨h.found, fun p' hp' => ?_, fun hph => (by cases hph)⟩
    cases hp'
    have hst := h.stored _ hp
    exact hst.requeue (hin ▸ hst.boxed.empty none) (congrArg Inbox.rcvWnd hin)
      (.inr (congrArg Inbox.refusedData hin))
      fun hq => absurd hq hs
  | made hp hf _ hin _ hs =>
    refine ⟨h.found, hset hp hin fun _ => hf, fun _ p' hp' => .inl ?_⟩
    cases hp'
    exact (congrArg Inbox.refusedData hin).trans ((h.stored _ hp).fresh hf).2
  | orphaned => exact ⟨h.found, fun p hp => (by cases hp), fun hph => (by cases hph)⟩
  | @reopened _ p q x hp hf hin hw =>
    refine ⟨h.found, fun p' hp' => ?_, fun hph => (by cases hph)⟩
    cases hp'
    have hst := h.stored p hp
    have hfull := (hst.fresh hf).1
    have hx : q.rx.rcvWnd = x := congrArg Inbox.rcvWnd hin
    refine (hst.grow (hx ▸ hin) ?_ ?_ fun _ => hf).rest
    · omega
    · omega
  | taken hp ht =>
    have hst := h.stored _ hp
    rw [offerSplit_small hst.size_le] at ht ⊢
    exact ⟨h.found, fun p' hp' => (stored_taking _ ht h.stored p' hp').handed,
      fun hph => (by cases hph)⟩
  | @refused _ c fin p hp =>
    have hst := h.stored p hp
    have hfits := hst.fits
    have hpast := hst.past _ _ rfl
    refine ⟨h.found, fun p' hp' => ?_, fun hph => (by cases hph)⟩
    cases hp'
    refine ⟨⟨hst.boxed.wnd, hst.boxed.queue⟩, ?_, fun _ _ hph => (by cases hph), fun _ r _ hr => ?_,
      fun _ _ _ => hpast, fun hs => absurd hs hpast⟩
    · rw [heldBack_of_some (p := setRefused (some ⟨c, false⟩) p) rfl]
      simp only [load, dataSize, Option.elim, Bool.toNat_false] at hfits ⊢
      omega
    · cases hr
      rfl
  | @finMarked _ p r hp hr =>
    have hst := h.stored p hp
    have hfits := hst.fits
    have hpast := hst.past _ _ rfl
    have hclear := hst.unmarked _ _ rfl hr
    refine ⟨h.found, fun p' hp' => ?_, fun hph => (by cases hph)⟩
    cases hp'
    refine ⟨⟨hst.boxed.wnd, hst.boxed.queue⟩, ?_, fun _ _ hph => (by cases hph),
      fun _ _ hph => (by cases hph), fun _ _ _ => hpast, fun hs => absurd hs hpast⟩
    rw [heldBack_of_some hr, hclear] at hfits
    rw [heldBack_of_some (p := setRefused (some { r with fin := true }) p) rfl]
    simp only [load, dataSize, Option.elim, Bool.toNat_false, Bool.toNat_true] at hfits ⊢
    omega
  | finTold =>
    exact ⟨h.found, fun p hp => (stored_finTold h.stored p hp).rest, fun hph => (by cases hph)⟩
  | settled => exact ⟨h.found, fun p hp => (h.stored p hp).rest, fun hph => (by cases hph)⟩
  | staleDropped hp hin _ hs =>
    refine ⟨h.found, fun p' hp' => ?_, fun hph => (by cases hph)⟩
    cases hp'
    have hst := h.stored _ hp
    refine hst.requeue ?_ (congrArg Inbox.rcvWnd hin) (.inl (congrArg Inbox.refusedData hin)) hs
    rw [hin]
    exact hst.boxed.empty _
  | doomed =>
    exact ⟨h.found, fun p hp => (h.stored p hp).phase (Nat.zero_le _) fun _ _ hp => (by cases hp),
      fun hph => (by cases hph)⟩
  | removed => exact ⟨h.found, fun p hp => (by cases hp), fun hph => (by cases hph)⟩

/-! ### Whole events and runs -/

lemma stocked_start (h : ∀ p, s.pcb = some p → Stored .rest p) (e : Event) :
    Stocked s (start e) (view s) := by
  have hhand : ∀ data fin, start e ≠ .hand data fin := by
    intro data fin hp
    cases e <;> cases hp
  refine ⟨fun p hp => (h p hp).boxed.wnd, fun p hp => (h p hp).phase ?_ hhand,
    fun _ p hp => .inr hp⟩
  cases e <;> exact le_rfl

lemma stored_event (hs : Sound s) (he : ∀ a, e ≠ .app a) (ho : KeepsOrder s e)
    (h : ∀ p, s.pcb = some p → Stored .rest p) :
    ∀ p, (step s e).pcb = some p → Stored .rest p :=
  (keeps_event (I := Stocked s) hs he (stocked_start h e) fun hwi hi hf =>
    stocked_flow ho hwi hi hf).stored

lemma stored_app {a : AppEvent} {w : View o} (h : ∀ p, s.pcb = some p → Stored .rest p)
    (hf : AppFlow s a w) :
    ∀ p, w.pcb = some p → Stored .rest p := by
  have hset : ∀ {p q : Pcb o}, s.pcb = some p → inbox q = inbox p →
      (q.state = .synRcvd → p.state = .synRcvd) →
      ∀ p', some q = some p' → Stored .rest p' := by
    intro p q hp hin hs p' hp'
    cases hp'
    exact (h p hp).same hin hs
  have hgone : ∀ p', (none : Option (Pcb o)) = some p' → Stored .rest p' :=
    fun p' hp' => (by cases hp')
  cases hf with
  | worked hp hin _ hs => exact hset hp hin hs
  | activated hp hin _ hs => exact hset hp hin hs
  | acknowledged hp hq =>
    intro p' hp'
    cases hp'
    exact (h _ hp).credit hq
  | closed hp _ hin _ hs => exact hset hp hin fun hq => absurd hq hs
  | discarded => exact hgone
  | aborted => exact hgone
  | _ => exact h

lemma stored_step (hs : Sound s) (ho : KeepsOrder s e) (h : ∀ p, s.pcb = some p → Stored .rest p) :
    ∀ p, (step s e).pcb = some p → Stored .rest p := by
  by_cases happ : ∃ a, e = .app a
  · obtain ⟨a, rfl⟩ := happ
    exact stored_app h (flow_appStep hs.wf a)
  · exact stored_event hs (fun a ha => happ ⟨a, ha⟩) ho h

lemma stored_initial (h : Initial s) : ∀ p, s.pcb = some p → Stored .rest p := by
  obtain ⟨syn, iss, env, ticks, tf, pcb, hpcb, -, rfl⟩ := h
  intro p hp
  cases hp
  obtain ⟨w, hw, hin⟩ := rx_tcpParseopt _ syn
  have hbox : inbox pcb = _ := (same_tcpListenInput hpcb).2.trans hin
  have hfull : w = o.tcpWnd := by
    rcases hw with rfl | rfl
    · exact Nat.min_eq_left (tcpWnd_le o)
    · rfl
  have hnone : pcb.rx.refusedData = none := congrArg Inbox.refusedData hbox
  have hwnd : pcb.rx.rcvWnd = o.tcpWnd := (congrArg Inbox.rcvWnd hbox).trans hfull
  refine ⟨⟨hwnd.le, ?_⟩, ?_, fun _ _ hp => (by cases hp), fun _ _ hp => (by cases hp),
    fun _ _ hp => (by cases hp), fun _ => ⟨hwnd, hnone⟩⟩
  · rw [show (inbox pcb).ooseq = [] from congrArg Inbox.ooseq hbox]
    trivial
  · rw [heldBack_of_none hnone]
    exact Nat.zero_le _

end TunForge.ReceiveBuffer
