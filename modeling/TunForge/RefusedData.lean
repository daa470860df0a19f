import TunForge.Backpressure

/-! Refused data is offered again until it is accepted, as long as the end of the connection
does not overtake it. -/
namespace TunForge.RefusedData
open SerialNumber PbufChain LwipTypes TcpOut TcpIn Tcp Connection Callbacks Stack StackRuns
open Boundary BoundaryRule PcbFrames CalmSteps InputCases Refinement WellFormed WorkFrames
  PcbHistory WriteAdmission
open ReceiveSteps Inflow InflowSteps InflowEvents InflowRuns InflowCalls InboundRule Reassembly
  ReceiveBuffer WindowLedger
open OrderlyClose Backpressure

variable {o : Platform} {s s₀ : State o} {e : Event} {p q : Pcb o} {ph ph' : Phase} {v w : View o}

/-- The connection is neither closed, aborted nor let go of locally, nor reset by the peer, nor
aborted by lwIP. -/
def Undisturbed (s : State o) : Event → Prop
  | .segment seg => seg.rst = false
  | .slowtmr =>
    newStateTimedOut s = false ∧ ∀ p ∈ s.pcb, p.list = .active → slowtmrRemoves (tick p) = false
  | .killState => ∀ p ∈ s.pcb, p.list = .active → ¬ (p.state = .lastAck ∨ p.state = .closing)
  | .netifIpAddrChanged => ∀ p ∈ s.pcb, p.list ≠ .active
  | .app a => mayEnd s (.app a) = false
  | _ => True

/-- The peer's FIN cannot be among what is in sequence now without data that would be refused, and
our own is not acknowledged while data is held back. -/
def Unstranding (s : State o) : Event → Prop :=
  AtSegment fun seg => ∀ p ∈ s.pcb,
    (p.state = .closing ∨ p.state = .lastAck → acksAllSent p seg = true → p.rx.refusedData = none) ∧
    (p.state = .finWait1 ∨ p.state = .finWait2 → seg.fin = true ∨ p.rx.ooseq.any RxSeg.fin = true →
      (seg.p.size = 0 ∧ p.rx.ooseq = []) ∨
      (s.conn.recvEnabled = true ∧ s.conn.state = .active ∧
        seg.tcplen + queued p.rx.ooseq + lowWaterMax o ≤ p.rx.rcvWnd))

instance (s : State o) : (e : Event) → Decidable (Undisturbed s e)
  | .segment seg => inferInstanceAs (Decidable (seg.rst = false))
  | .slowtmr => inferInstanceAs (Decidable (newStateTimedOut s = false ∧
      ∀ p ∈ s.pcb, p.list = .active → slowtmrRemoves (tick p) = false))
  | .killState =>
    inferInstanceAs (Decidable (∀ p ∈ s.pcb, p.list = .active →
      ¬ (p.state = .lastAck ∨ p.state = .closing)))
  | .netifIpAddrChanged => inferInstanceAs (Decidable (∀ p ∈ s.pcb, p.list ≠ .active))
  | .app a => inferInstanceAs (Decidable (mayEnd s (.app a) = false))
  | .fasttmr | .rexmitRto | .persist _ | .handleClosepend | .killTimewait | .listenerClosed
  | .env _ =>
    inferInstanceAs (Decidable True)

instance (s : State o) (e : Event) : Decidable (Unstranding s e) :=
  inferInstanceAs (Decidable (AtSegment _ e))

def Holding (s : State o) (e : Event) : Prop := KeepsOrder s e ∧ Undisturbed s e ∧ Unstranding s e

instance (s : State o) (e : Event) : Decidable (Holding s e) := inferInstanceAs (Decidable (_ ∧ _))

/-- The last offer so far is `x`, and it was refused. -/
def Pending (l : List Offer) (x : Offer) : Prop := l.getLast? = some x ∧ x.accepted = false

def Reoffered (l : List Offer) : Prop := l.IsChain fun x y => x.accepted = false → y.p = x.p

lemma pending_append {l : List Offer} {x y : Offer} (h : Pending (l ++ [y]) x) :
    x = y ∧ y.accepted = false := by
  obtain ⟨hlast, hx⟩ := h
  rw [List.getLast?_concat] at hlast
  cases hlast
  exact ⟨rfl, hx⟩

lemma reoffered_append {l : List Offer} {y : Offer} (h : Reoffered l)
    (hy : ∀ x, Pending l x → y.p = x.p) :
    Reoffered (l ++ [y]) := by
  refine List.isChain_append.2 ⟨h, List.isChain_singleton _, fun x hx z hz hacc => ?_⟩
  cases hz
  exact hy x ⟨hx, hacc⟩

/-- At some stage of an event that found the stack in `s₀`, what was refused last is held by an
active pcb. -/
structure Kept (s₀ : State o) (e : Event) (ph : Phase) (v : View o) : Prop where
  active : ∀ p, v.pcb = some p → p.rx.refusedData ≠ none → p.list = .active
  held : ∀ x, Pending v.offers x → ∃ p r, v.pcb = some p ∧ p.rx.refusedData = some r ∧ r.p = x.p
  reoffered : Reoffered v.offers
  dead : v.living = false → ∀ x, ¬ Pending v.offers x
  ending : ∀ r, ph = .ending r → ∀ x, ¬ Pending v.offers x
  room : ∀ c fin p, ph = .hand (some c) fin → v.pcb = some p → p.list = .active ∨
    (v.living = true → GateOpen s₀ ∧ lowWaterMax o ≤ p.rx.rcvWnd)
  still : retries e = false → v.offers = s₀.log.offers

lemma Kept.settled (h : Kept s₀ e ph v) (hp : v.pcb = some p) (hr : p.rx.refusedData = none) :
    ∀ x, ¬ Pending v.offers x := by
  intro x hx
  obtain ⟨p', r, hp', hr', -⟩ := h.held x hx
  cases hp.symm.trans hp'
  rw [hr] at hr'
  cases hr'

lemma Kept.set (h : Kept s₀ e ph v) (hp : v.pcb = some p) (hr : q.rx.refusedData = p.rx.refusedData)
    (hl : q.list = p.list) (hph : ∀ c fin, ph' ≠ .hand (some c) fin) (hend : ∀ r, ph' ≠ .ending r) :
    Kept s₀ e ph' { v with pcb := some q } := by
  refine ⟨fun p' hp' hne => ?_, fun x hx => ?_, h.reoffered, h.dead, fun r hr => absurd hr (hend r),
    fun c fin _ hc => absurd hc (hph c fin), h.still⟩
  · cases hp'
    rw [hl]
    exact h.active p hp (hr ▸ hne)
  · obtain ⟨p', r, hp', hr', hx'⟩ := h.held x hx
    cases hp.symm.trans hp'
    exact ⟨q, r, rfl, hr.trans hr', hx'⟩

lemma Kept.done (h : Kept s₀ e ph v) (hnone : ∀ x, ¬ Pending v.offers x)
    (hoff : w.offers = v.offers) (hr : ∀ p, w.pcb = some p → p.rx.refusedData = none)
    (hph : ∀ c fin, ph' ≠ .hand (some c) fin) : Kept s₀ e ph' w := by
  refine ⟨fun p hp hne => absurd (hr p hp) hne, fun x hx => ?_, hoff ▸ h.reoffered,
    fun _ x hx => ?_, fun _ _ x hx => ?_, fun c fin _ hc => absurd hc (hph c fin),
    fun he => hoff.trans (h.still he)⟩
  · exact absurd (hoff ▸ hx) (hnone x)
  · exact hnone x (hoff ▸ hx)
  · exact hnone x (hoff ▸ hx)

lemma Kept.taken {c : Pbuf} (h : Kept s₀ e ph v) (hopen : ∀ x, Pending v.offers x → c = x.p)
    (hoff : w.offers = v.offers ++ [⟨c, true⟩]) (hr : ∀ p, w.pcb = some p → p.rx.refusedData = none)
    (he : retries e = true) (hph : ∀ c fin, ph' ≠ .hand (some c) fin) : Kept s₀ e ph' w := by
  have hnone : ∀ x, ¬ Pending w.offers x := by
    intro x hx
    rw [hoff] at hx
    have hacc := (pending_append hx).2
    cases hacc
  refine ⟨fun p hp hne => absurd (hr p hp) hne, fun x hx => absurd hx (hnone x), ?_, fun _ => hnone,
    fun _ _ => hnone, fun c fin _ hc => absurd hc (hph c fin), fun hf => ?_⟩
  · rw [hoff]
    exact reoffered_append h.reoffered fun x hx => hopen x hx
  · rw [he] at hf
    cases hf

lemma Kept.refused {c : Pbuf} {r : Refused} (h : Kept s₀ e ph v)
    (hopen : ∀ x, Pending v.offers x → c = x.p) (hoff : w.offers = v.offers ++ [⟨c, false⟩])
    (hq : w.pcb = some q) (hr : q.rx.refusedData = some r) (hc : r.p = c) (hl : q.list = .active)
    (hv : w.living = true) (he : retries e = true) (hph : ∀ c fin, ph' ≠ .hand (some c) fin)
    (hend : ∀ r, ph' ≠ .ending r) : Kept s₀ e ph' w := by
  refine ⟨fun p hp _ => ?_, fun x hx => ?_, ?_, fun hf => ?_, fun r hr => absurd hr (hend r),
    fun c fin _ hc => absurd hc (hph c fin), fun hf => ?_⟩
  · cases hq.symm.trans hp
    exact hl
  · rw [hoff] at hx
    obtain ⟨rfl, -⟩ := pending_append hx
    exact ⟨q, r, hq, hr, hc⟩
  · rw [hoff]
    exact reoffered_append h.reoffered fun x hx => hopen x hx
  · rw [hv] at hf
    cases hf
  · rw [he] at hf
    cases hf

/-! ### Along the stages of an event -/

lemma settled_of_doom {r : Reason} (hok : Undisturbed s e) (hun : Unstranding s e)
    (hst : Stocked s ph v) (hsafe : ∀ x, Pending s.log.offers x → ∃ p, s.pcb = some p ∧
      p.list = .active) (h : Kept s e ph v)
    (hph : ph = start e ∨ v.living = false) (hd : Doom s v e r) : ∀ x, ¬ Pending v.offers x := by
  -- an event that ends the connection finds nothing held back
  have hstill : ∀ {p : Pcb o}, s.pcb = some p → p.list = .timeWait → retries e = false →
      ∀ x, ¬ Pending v.offers x := by
    intro p hp hl he x hx
    rw [h.still he] at hx
    obtain ⟨p', hp', hact⟩ := hsafe x hx
    cases hp.symm.trans hp'
    rw [hl] at hact
    cases hact
  cases hv : v.living with
  | false => exact h.dead hv
  | true =>
    have hph : ph = start e := hph.resolve_right (by simp [hv])
    cases hd with
    | @reset seg p _ _ hrst =>
      have hno : seg.rst = false := hok
      rw [hno] at hrst
      cases hrst
    | @finalAck seg p hp hl hs _ hack =>
      rcases hst.unmoved hph p hp with hnone | hp₀
      · exact h.settled hp hnone
      · exact h.settled hp ((hun p hp₀).1 (.inr hs) hack)
    | unattended hover =>
      rw [hv] at hover
      cases hover
    | removal hp hl hrem =>
      have hno := hok.2 _ hp hl
      rw [hno] at hrem
      cases hrem
    | expiry hp hl => exact hstill hp hl rfl
    | timeout _ _ hout =>
      have hno := hok.1
      rw [hno] at hout
      cases hout
    | killTimewait hp hl => exact hstill hp hl rfl
    | killState hp hl hs => exact absurd hs (hok _ hp hl)
    | netif hp hl => exact absurd hl (hok _ hp)

lemma room_received {seg : Segment} {x : InSeq} (ho : KeepsOrder s (.segment seg))
    (hun : Unstranding s (.segment seg)) (hwi : Within s (.segment seg) .arriving v)
    (hst : Stocked s .arriving v) (hp : v.pcb = some p) (hl : p.list = .active)
    (hr : p.rx.refusedData = none) (hseq : InSequence o (inbox p) seg x) (hs : q.state ≠ .synRcvd)
    (hfin : x.gotFin = true) (hstate : p.state = .finWait1 ∨ p.state = .finWait2)
    (hin : inbox q = { inboxOf x.rx with ooseq := [], refusedData := none }) {c : Pbuf}
    (hc : x.recvData = some c) (hv : v.living = true) :
    GateOpen s ∧ lowWaterMax o ≤ q.rx.rcvWnd := by
  -- a segment whose FIN takes the pcb out of the active list finds room for its data
  obtain ⟨p₀, hp₀, hlater⟩ := (hwi.since rfl).2.pcb p hp
  have hsame : p.state = p₀.state := by
    rcases hlater.state with h | ⟨-, h⟩
    · exact h
    · rw [h] at hstate
      simp at hstate
  have hliving : living s = true := by
    by_contra hn
    obtain ⟨-, p₁, hp₁, hsyn⟩ := hwi.born (by simpa using hn) hv
    cases hp₀.symm.trans hp₁
    rw [hsame, hsyn] at hstate
    simp at hstate
  have hfin₀ : seg.fin = true ∨ p₀.rx.ooseq.any RxSeg.fin = true := hlater.ooseq ▸ hseq.gotFin hfin
  obtain ⟨-, -, hwnd, hle⟩ := stored_received ho hwi hst hp hl hr hseq hs (.inr hin)
  have hpos := hseq.size hc
  rw [hc, hfin] at hwnd hle
  simp only [dataSize, Option.elim, Bool.toNat_true] at hwnd hle
  rcases (hun p₀ hp₀).2 (hsame ▸ hstate) hfin₀ with ⟨hempty, hnil⟩ | ⟨hen, hact, hroom⟩
  · have htcp : seg.tcplen ≤ seg.p.size + 1 := by
      simp only [Segment.tcplen, hseq.1.syn, Bool.or_false]
      split_ifs <;> omega
    rw [hlater.ooseq, hnil] at hle
    simp only [queued, List.map_nil, List.sum_nil] at hle
    omega
  · have hgrow := (hlater.wnd (hst.found p₀ hp₀)).1
    rw [hlater.ooseq] at hle
    exact ⟨⟨hliving, hen, hact⟩, by omega⟩

lemma kept_flow (hok : Holding s e) (hwi : Within s e ph v) (hst : Stocked s ph v) (hm : Sending v)
    (hsafe : ∀ x, Pending s.log.offers x → ∃ p, s.pcb = some p ∧ p.list = .active)
    (h : Kept s e ph v) (hf : Flow s e (ph, v) (ph', w)) : Kept s e ph' w := by
  obtain ⟨ho, hund, hun⟩ := hok
  have hopen : ∀ {p : Pcb o} {r : Refused}, v.pcb = some p → p.rx.refusedData = some r →
      ∀ x, Pending v.offers x → r.p = x.p := by
    intro p r hp hr x hx
    obtain ⟨p', r', hp', hr', hpx⟩ := h.held x hx
    cases hp.symm.trans hp'
    cases hr.symm.trans hr'
    exact hpx
  have hfree : ∀ {c : Pbuf} {fin : Bool} {p : Pcb o}, ph = .hand (some c) fin → v.pcb = some p →
      ∀ x, ¬ Pending v.offers x := fun hph hp => h.settled hp ((hst.stored _ hp).free _ _ hph)
  cases hf with
  | @worked _ _ p q hph hp hin hl =>
    have hr : q.rx.refusedData = p.rx.refusedData := congrArg Inbox.refusedData hin
    have hwnd : q.rx.rcvWnd = p.rx.rcvWnd := congrArg Inbox.rcvWnd hin
    refine ⟨fun p' hp' hne => ?_, fun x hx => ?_, h.reoffered, h.dead, h.ending,
      fun c fin p' hc hp' => ?_, h.still⟩
    · cases hp'
      rw [hl]
      exact h.active p hp (hr ▸ hne)
    · obtain ⟨p', r, hp', hr', hx'⟩ := h.held x hx
      cases hp.symm.trans hp'
      exact ⟨q, r, rfl, hr.trans hr', hx'⟩
    · cases hp'
      rw [hl, hwnd]
      exact h.room c fin p hc hp
  | hinted => exact ⟨h.active, h.held, h.reoffered, h.dead, h.ending, h.room, h.still⟩
  | @refusedAgain _ _ p r hph he hp hl hr hv =>
    rw [offerSplit_small ((hst.stored p hp).refused_le hr)]
    refine h.refused (hopen hp hr) rfl hp hr rfl hl hv he (fun c fin hc => ?_) fun r hc => ?_
    · rw [hph] at hc
      cases e <;> cases hc
    · rw [hph] at hc
      cases e <;> cases hc
  | @retaken _ _ w p r hph he hp hl hr ht =>
    rw [offerSplit_small ((hst.stored p hp).refused_le hr)] at ht ⊢
    refine h.taken (hopen hp hr) (offers_retaken _ ht)
      (fun q hq => refusedData_retaken ht hq) he fun c fin hc => ?_
    rw [hph] at hc
    cases e <;> cases hc
  | ignored =>
    exact ⟨h.active, h.held, h.reoffered, h.dead, fun _ hr => (by cases hr),
      fun _ _ _ hc => (by cases hc), h.still⟩
  | @received _ seg p q x he hp hl hr hseq hs hplace =>
    subst he
    have hnone : q.rx.refusedData = none :=
      (stored_received ho hwi hst hp hl hr hseq hs (hplace.imp And.right fun x => x.2.2.2)).2.1
    have hset := h.settled hp hr
    refine ⟨fun p' hp' hne => ?_, fun x hx => absurd hx (hset x), h.reoffered, fun _ => hset,
      fun _ _ => hset, fun c fin p' hc hp' => ?_, h.still⟩
    · cases hp'
      exact absurd hnone hne
    · cases hp'
      injection hc with hdata _
      rcases hplace with ⟨hact, -⟩ | ⟨-, hfin, hstate, hin⟩
      · exact .inl hact
      · exact .inr fun hv => room_received ho hun hwi hst hp hl hr hseq hs hfin hstate hin hdata hv
  | queued _ hp hl _ _ hl' hin =>
    exact h.set hp (congrArg Inbox.refusedData hin) (hl'.trans hl.symm)
      (fun _ _ hc => (by cases hc)) fun _ hc => (by cases hc)
  | @purged _ seg p q he hp _ hcl hack _ _ hin =>
    have hnone : p.rx.refusedData = none := by
      subst he
      rcases hst.unmoved rfl p hp with hnone | hp₀
      · exact hnone
      · exact (hun p hp₀).1 (.inl hcl) hack
    refine h.done (h.settled hp hnone) rfl (fun p' hp' => ?_) fun _ _ hc => (by cases hc)
    cases hp'
    exact congrArg Inbox.refusedData hin
  | @made _ p q hp hf _ hin =>
    have hnone := ((hst.stored p hp).fresh hf).2
    refine h.done (h.settled hp hnone) rfl (fun p' hp' => ?_) fun _ _ hc => (by cases hc)
    cases hp'
    exact (congrArg Inbox.refusedData hin).trans hnone
  | orphaned _ _ _ hv =>
    exact h.done (h.dead hv) rfl (fun p' hp' => (by cases hp')) fun _ _ hc => (by cases hc)
  | reopened hp _ hin _ hl =>
    exact h.set hp (congrArg Inbox.refusedData hin) hl (fun _ _ hc => (by cases hc)) fun _ hc =>
      (by cases hc)
  | @taken _ w c fin p hp ht =>
    have hsto := hst.stored p hp
    rw [offerSplit_small hsto.size_le] at ht ⊢
    refine h.taken (fun x hx => absurd hx (hfree rfl hp x)) (taking_frame ht).2.2.1 (fun q hq => ?_)
      (retries_of_start (hwi.hand _ _ rfl)) fun _ _ hc => (by cases hc)
    exact (refusedData_taking ht hp hq).trans (hsto.free _ _ rfl)
  | @refused _ c fin p hp hv hn =>
    have hl : p.list = .active := by
      rcases h.room c fin p rfl hp with hl | hroom
      · exact hl
      · obtain ⟨hg, hlow⟩ := hroom hv
        have hready := ready_of_room hg hwi.framed hm hv hp hlow
        rw [hn] at hready
        cases hready
    rw [offerSplit_small (hst.stored p hp).size_le]
    exact h.refused (fun x hx => absurd hx (hfree rfl hp x)) rfl rfl rfl rfl hl hv
      (retries_of_start (hwi.hand _ _ rfl)) (fun _ _ hc => (by cases hc)) fun _ hc => (by cases hc)
  | @finMarked _ p r hp hr =>
    refine ⟨fun p' hp' _ => ?_, fun x hx => ?_, h.reoffered, h.dead, fun _ hc => (by cases hc),
      fun _ _ _ hc => (by cases hc), h.still⟩
    · cases hp'
      exact h.active p hp (by simp [hr])
    · exact ⟨_, _, rfl, rfl, hopen hp hr x hx⟩
  | @finTold _ p hp hr =>
    refine h.done (h.settled hp hr) rfl (fun q hq => ?_) fun _ _ hc => (by cases hc)
    obtain ⟨p', hp', rfl⟩ := Option.map_eq_some_iff.1 hq
    cases hp.symm.trans hp'
    exact (refusedData_correctFin p).trans hr
  | settled =>
    exact ⟨h.active, h.held, h.reoffered, h.dead, fun _ hr => (by cases hr),
      fun _ _ _ hc => (by cases hc), h.still⟩
  | staleDropped hp hin hl =>
    exact h.set hp (congrArg Inbox.refusedData hin) hl (fun _ _ hc => (by cases hc)) fun _ hc =>
      (by cases hc)
  | doomed hph hd =>
    have hset := settled_of_doom hund hun hst hsafe h hph hd
    exact ⟨h.active, h.held, h.reoffered, h.dead, fun _ _ => hset, fun _ _ _ hc => (by cases hc),
      h.still⟩
  | @removed _ r =>
    exact h.done (h.ending r rfl) (offers_ended r v).1 (fun p hp => (by cases hp)) fun _ _ hc =>
      (by cases hc)

/-! ### Whole runs -/

lemma kept_begin (h : Kept s₀ e .rest (view s)) (e' : Event) : Kept s e' (start e') (view s) := by
  refine ⟨h.active, h.held, h.reoffered, h.dead, fun r hr => ?_, fun c fin p hc => ?_, fun _ => rfl⟩
  · cases e' <;> cases hr
  · cases e' <;> cases hc

lemma kept_app {a : AppEvent} (hok : Undisturbed s (.app a)) (h : Kept s (.app a) .rest (view s))
    (hf : AppFlow s a w) :
    Kept s (.app a) .rest w := by
  have hset : ∀ {p q : Pcb o} {w : View o}, s.pcb = some p → w.pcb = some q →
      q.rx.refusedData = p.rx.refusedData →
      q.list = p.list → w.offers = s.log.offers → w.living = living s →
        Kept s (.app a) .rest w := by
    intro p q w hp hq hr hl hoff hv
    have hback : ∀ {x}, Pending w.offers x → Pending s.log.offers x := fun hx => hoff ▸ hx
    refine ⟨fun p' hp' hne => ?_, fun x hx => ?_, hoff ▸ h.reoffered, fun hf x hx => ?_,
      fun _ hc => (by cases hc), fun _ _ _ hc => (by cases hc), fun _ => hoff⟩
    · cases hq.symm.trans hp'
      rw [hl]
      exact h.active p hp (hr ▸ hne)
    · obtain ⟨p', r, hp', hr', hx'⟩ := h.held x (hback hx)
      cases hp.symm.trans hp'
      exact ⟨q, r, hq, hr.trans hr', hx'⟩
    · exact h.dead (hv.symm.trans hf) x (hback hx)
  cases hf with
  | idle => exact h
  | worked hp hin hl => exact hset hp rfl (congrArg Inbox.refusedData hin) hl rfl rfl
  | activated hp hin hl => exact hset hp rfl (congrArg Inbox.refusedData hin) hl rfl rfl
  | enabled => exact ⟨h.active, h.held, h.reoffered, h.dead, h.ending, h.room, h.still⟩
  | acknowledged hp hq =>
    exact hset hp rfl (congrArg Inbox.refusedData hq.inbox) (list_of_core hq.core) rfl rfl
  | closed => cases hok
  | discarded => cases hok
  | aborted ha =>
    have hend : mayEnd s (.app a) = false := hok
    rw [mayEnd_of_aborts ha] at hend
    cases hend
  | handlers => exact ⟨h.active, h.held, h.reoffered, h.dead, h.ending, h.room, h.still⟩
  | ran => exact ⟨h.active, h.held, h.reoffered, h.dead, h.ending, h.room, h.still⟩
  | released => cases hok
  | env => exact ⟨h.active, h.held, h.reoffered, h.dead, h.ending, h.room, h.still⟩

/-- The invariant of a run in which refused data cannot be stranded. -/
structure Secured (s : State o) : Prop where
  sound : Sound s
  stored : ∀ p, s.pcb = some p → Stored .rest p
  sending : Sending (view s)
  kept : ∃ t e, Kept t e .rest (view s)

lemma secured_step (h : Secured s) (hok : Holding s e) : Secured (step s e) := by
  obtain ⟨t, e', hkept⟩ := h.kept
  have hbegin := kept_begin hkept e
  have hsafe : ∀ x, Pending s.log.offers x → ∃ p, s.pcb = some p ∧ p.list = .active := by
    intro x hx
    obtain ⟨p, r, hp, hr, -⟩ := hkept.held x hx
    exact ⟨p, hp, hkept.active p hp (by simp [hr])⟩
  refine ⟨sound_step h.sound e, stored_step h.sound hok.1 h.stored,
    sending_step h.sound h.sending e, s, e, ?_⟩
  by_cases happ : ∃ a, e = .app a
  · obtain ⟨a, rfl⟩ := happ
    exact kept_app hok.2.1 hbegin (flow_appStep h.sound.wf a)
  by_cases hlis : e = .listenerClosed
  · subst hlis
    refine ⟨fun q hq => ?_, fun x hx => ?_, hbegin.reoffered, hbegin.dead, hbegin.ending,
      fun _ _ _ hc => (by cases hc), hbegin.still⟩
    · obtain ⟨p, hp, rfl⟩ := Option.map_eq_some_iff.1 (show s.pcb.map _ = some q from hq)
      exact hbegin.active p hp
    · obtain ⟨p, r, hp, hr, hpx⟩ := hbegin.held x hx
      exact ⟨_, r, Option.map_eq_some_iff.2 ⟨p, hp, rfl⟩, hr, hpx⟩
  · have hall := keeps_event (I := fun ph v => Stocked s ph v ∧ Sending v ∧ Kept s e ph v) h.sound
      (fun a ha => happ ⟨a, ha⟩) ⟨stocked_start h.stored e, h.sending, hbegin⟩
      fun hwi hi hf => ⟨stocked_flow hok.1 hwi hi.1 hf, sending_flow hlis hi.2.1 hf,
        kept_flow hok hwi hi.1 hi.2.1 hsafe hi.2.2 hf⟩
    exact hall.2.2

/-- Refused data stays with an active pcb, and is what is offered next, until it is accepted. -/
theorem refused_data_kept (h₀ : Initial s₀) {es : List Event}
    (hes : Runs.Along step Holding s₀ es) :
    let s := Runs.run step s₀ es
    (∀ p r, s.pcb = some p → p.rx.refusedData = some r → p.list = .active) ∧
    (∀ x, s.log.offers.getLast? = some x → x.accepted = false →
      ∃ p r, s.pcb = some p ∧ p.rx.refusedData = some r ∧ r.p = x.p) ∧
    s.log.offers.IsChain fun x y => x.accepted = false → y.p = x.p := by
  have hrun : Secured (Runs.run step s₀ es) := by
    refine Runs.invariant step Secured (fun s e h he => secured_step h he) ?_ hes
    refine ⟨sound_initial h₀, stored_initial h₀, sending_initial h₀, s₀, .fasttmr, ?_⟩
    have hfresh := stored_initial h₀
    obtain ⟨syn, iss, env, ticks, tf, pcb, hpcb, -, rfl⟩ := h₀
    refine ⟨fun p hp hne => ?_, fun x hx => (by cases hx.1), List.isChain_nil,
      fun _ x hx => (by cases hx.1), fun _ hc => (by cases hc), fun _ _ _ hc => (by cases hc),
      fun hf => (by cases hf)⟩
    cases hp
    have hsyn : pcb.state = .synRcvd := congrArg Core.state (core_tcpListenInput hpcb).1
    exact absurd ((hfresh pcb rfl).fresh hsyn).2 hne
  obtain ⟨t, e, hkept⟩ := hrun.kept
  exact ⟨fun p r hp hr => hkept.active p hp (by simp [hr]),
    fun x hx hacc => hkept.held x ⟨hx, hacc⟩, hkept.reoffered⟩

/-- Five bytes come to a closed gate, a tick and an acknowledgement later they are still held. -/
theorem refused_data_kept_gateClosed :
    let s := Runs.run step (listening .macos)
      (opening ++ [.app (.api (.setInboundDeliveryEnabled false)),
      .segment fiveBytes, .fasttmr, .segment (ackSegment 106 6511)])
    ∃ p r, s.pcb = some p ∧ p.rx.refusedData = some r ∧ r.p = fiveBytes.p ∧ p.list = .active := by
  intro s
  have hes : Runs.Along step Holding (listening .macos)
      (opening ++ [.app (.api (.setInboundDeliveryEnabled false)),
    .segment fiveBytes, .fasttmr, .segment (ackSegment 106 6511)]) := by decide
  obtain ⟨hactive, hheld, -⟩ := refused_data_kept (listening_initial .macos) hes
  have hlast : s.log.offers.getLast? = some ⟨fiveBytes.p, false⟩ := by decide
  obtain ⟨p, r, hp, hr, hpx⟩ := hheld _ hlast rfl
  exact ⟨p, r, hp, hr, hpx, hactive p r hp hr⟩

/-- The sending side is shut, and the peer's last byte comes with its FIN and the acknowledgement
of ours while inbound delivery is not enabled. -/
def halfClosed : List Event :=
  handshake ++ [.app (.setHandlers readers), .app (.api .markActive), .app (.api .shutdownWrite),
    .segment { lastByte with ackno := 6512 }]

/-- The byte is refused by a pcb that has just gone to TIME-WAIT, where nothing offers it again, and
is freed with the pcb when the wait is over. -/
theorem refused_data_stranded : Initial (listening .ios) ∧
    Runs.Along step Undisturbed (listening .ios) (halfClosed ++ List.replicate 241 .slowtmr) ∧
    (let s := Runs.run step (listening .ios) halfClosed
    living s = true ∧ (s.pcb.map fun p => (p.list, p.rx.refusedData.map fun r => r.p.bytes)) =
      some (.timeWait, some [7])) ∧
    let s := Runs.run step (listening .ios) (halfClosed ++ List.replicate 241 .slowtmr)
    s.pcb = none ∧ s.log.offers.map Offer.accepted = [false] := by
  exact ⟨listening_initial .ios, by decide +kernel⟩

end TunForge.RefusedData
