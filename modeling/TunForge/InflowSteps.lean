import TunForge.Inflow

/-! The parts of lwIP's input and timer functions, and the callbacks they make, as
stages of the inbound machine. -/
namespace TunForge.InflowSteps
open SerialNumber PbufChain LwipTypes TcpOut TcpIn Tcp Connection Callbacks Stack
open Boundary Termination OrdinarySteps BoundaryRule Lifecycle PcbFrames CalmSteps InputCases
  Refinement ReceiveSteps WorkFrames Inflow

variable {o : Platform} {s t : State o}

/-! ### Credit -/

lemma credit_refl (p : Pcb o) : Credit 0 p p := ⟨rfl, rfl, rfl, fun h => by omega⟩

lemma credit_trans {m n : ℕ} {p q r : Pcb o} (h : Credit m p q) (h' : Credit n q r) :
    Credit (m + n) p r := by
  refine ⟨h'.core.trans h.core, ?_, h'.side.trans h.side, fun hw => ?_⟩
  · rw [h'.inbox, h.inbox]
  · have h1 := h.wnd hw
    have h2 := h'.wnd (by omega)
    omega

lemma credit_tcpRecved (p : Pcb o) {n : ℕ} (hn : n ≤ 0xFFFF) : Credit n p (tcpRecved p n) := by
  obtain ⟨hc, hin⟩ := tcpRecved_frame p n
  have hwnd : (tcpRecved p n).rx.rcvWnd = creditedWnd p n := congrArg Inbox.rcvWnd hin
  refine ⟨hc, by rw [hwnd, hin], side_tcpRecved p n, fun hw => ?_⟩
  rw [hwnd]
  unfold creditedWnd
  rw [Pcb.wndMax_eq]
  cases o
  · simp only [Platform.tcpWnd, Platform.wndMod, Platform.lwipWndScale] at hw ⊢
    split_ifs <;> omega
  · simp only [Platform.tcpWnd, Platform.wndMod, Platform.lwipWndScale] at hw ⊢
    split_ifs <;> omega

lemma recvedLoop_credit (fuel : ℕ) {n : ℕ} (hn : n ≤ fuel) {p : Pcb o} (hp : s.pcb = some p) :
    ∃ q, Credit n p q ∧ view (recvedLoop fuel n s) = { view s with pcb := some q } ∧
      (recvedLoop fuel n s).conn = s.conn := by
  induction fuel generalizing s n p with
  | zero =>
    obtain rfl : n = 0 := by omega
    refine ⟨p, credit_refl p, ?_, rfl⟩
    rw [← hp]
    rfl
  | succ fuel ih =>
    unfold recvedLoop
    split_ifs with h0
    · subst h0
      refine ⟨p, credit_refl p, ?_, rfl⟩
      rw [← hp]
      rfl
    · obtain ⟨q, hq, hv, hc⟩ :=
        ih (s := s.callLwip (.recved (min n 0xFFFF)) (RawApi.recved · (min n 0xFFFF)))
        (n := n - min n 0xFFFF) (p := tcpRecved p (min n 0xFFFF)) (by omega)
          (by simp [Sys.callLwip, hp]; rfl)
      refine ⟨q, ?_, hv, hc⟩
      have hsum : n = min n 0xFFFF + (n - min n 0xFFFF) := by omega
      rw [hsum]
      exact credit_trans (credit_tcpRecved p (by omega)) hq

lemma view_updateInflight (d : ℤ) (s : State o) :
    view (updateInflightAckBytes d s) = { view s with
      inflight := afterDelta s.conn.inflightAckBytes d } := rfl

lemma view_credited (n : ℕ) (s : State o) :
    view { s with log := { s.log with credited := n } } = { view s with credited := n } := rfl

lemma acknowledge_cases (n : ℕ) {p : Pcb o} (hp : s.pcb = some p) :
    (acknowledgeDeliveredBytes n s = s ∧
      (s.conn.alive = true → s.conn.pcb = true → s.conn.state = .active →
      n = 0 ∨ s.conn.inflightAckBytes = 0)) ∨
    (s.conn.alive = true ∧ ∃ q, Credit (min n s.conn.inflightAckBytes) p q ∧
      view (acknowledgeDeliveredBytes n s) = { view s with
        pcb := some q
        inflight := afterDelta s.conn.inflightAckBytes (-nsInteger (min n s.conn.inflightAckBytes))
        credited := s.log.credited + min n s.conn.inflightAckBytes }) := by
  -- acknowledging delivered bytes does nothing, or credits what is in flight of them
  unfold acknowledgeDeliveredBytes
  split_ifs with h1 h2 h3
  · refine .inl ⟨rfl, fun ha hc => ?_⟩
    simp [ha, hc] at h1
  · exact .inl ⟨rfl, fun _ _ ha => absurd ha h2⟩
  · exact .inl ⟨rfl, fun _ _ _ => h3⟩
  · refine .inr ⟨?_, ?_⟩
    · simp only [Bool.or_eq_true, not_or, Bool.not_eq_true', Bool.not_eq_false] at h1
      exact h1.1
    · obtain ⟨q, hq, hv, hc⟩ := recvedLoop_credit (min n s.conn.inflightAckBytes) le_rfl hp
      refine ⟨q, hq, ?_⟩
      have hcount : (recvedLoop (min n s.conn.inflightAckBytes)
          (min n s.conn.inflightAckBytes) s).conn.inflightAckBytes =
          s.conn.inflightAckBytes := by rw [hc]
      have hcred : (recvedLoop (min n s.conn.inflightAckBytes)
          (min n s.conn.inflightAckBytes) s).log.credited =
          s.log.credited := congrArg View.credited hv
      dsimp only
      rw [view_updateInflight, view_credited, hv, hcount, hcred]

lemma afterDelta_credit {k m : ℕ} (hk : k < 2 ^ 64) (hle : m ≤ k) :
    afterDelta k (-nsInteger m) = k - m := by
  rcases Nat.lt_or_ge m (2 ^ 63) with hm | hm
  · have hdelta : nsInteger m = m := if_pos hm
    rw [hdelta, afterDelta]
    split_ifs <;> omega
  · have hdelta : -nsInteger m = ((2 ^ 64 - m : ℕ) : ℤ) := by
      unfold nsInteger
      rw [if_neg (by omega)]
      omega
    rw [hdelta, afterDelta, if_pos (by omega), Int.toNat_natCast]
    omega

/-! ### The receive callback -/

lemma view_free (m : Freed) (s : State o) : view (s.free m) = view s := rfl

lemma view_handOver (b : CBlock) (tot : ℕ) (s : State o) :
    view (handOver b tot s) = { view s with
      handed := s.log.handed + tot, queue := s.connectionsQueue ++ [b] } := rfl

lemma view_counted (c : Pbuf) (s : State o) :
    view (updateInflightAckBytes c.totLen s) = { view s with inflight := counted c (view s) } := by
  rw [view_updateInflight]
  simp [afterDelta, counted, view]

lemma delivery_deliver {c : Pbuf} (ha : Attached s) (hact : s.conn.state = .active)
    (hc : c.totLen ≠ 0) {p : Pcb o} (hp : s.pcb = some p) :
    Delivery c (view s) (view (deliver c s)) := by
  -- a payload that has passed the gate leaves `tf_tcp_recv` by one of its exits
  have hcount := view_counted c s
  have htot : c.totLen < 2 ^ 16 := Nat.mod_lt _ (by decide)
  generalize hu : updateInflightAckBytes c.totLen s = u at hcount
  have hconn : u.conn.handlers = s.conn.handlers ∧ u.env.malloc = s.env.malloc ∧ u.pcb = s.pcb := by
    rw [← hu]
    exact ⟨rfl, rfl, rfl⟩
  unfold deliver
  dsimp only
  rw [hu, hconn.1, hconn.2.1]
  split_ifs with h1 h2 h3 h4
  · rw [view_handOver, hcount]
    have hlog : u.log.handed = s.log.handed ∧ u.connectionsQueue = s.connectionsQueue := by
      rw [← hu]
      exact ⟨rfl, rfl⟩
    rw [hlog.1, hlog.2]
    exact .bytes h1 h2
  · rw [view_free, hcount]
    exact .failed (by simpa [view] using h2)
  · have hpu : (u.free (.pbuf c)).pcb = some p := hconn.2.2.trans hp
    have hinf : (u.free (.pbuf c)).conn.inflightAckBytes = counted c (view s) :=
      congrArg View.inflight hcount
    have hcase := acknowledge_cases c.totLen hpu
    rw [hinf, view_free, hcount] at hcase
    have hbooks : ∀ t : State o, view (handOver (.readable (c.copyPartial c.totLen 0)) c.totLen t) =
        { view t with
          handed := (view t).handed + c.totLen
          queue := (view t).queue ++ [.readable (c.copyPartial c.totLen 0)] } := fun t =>
            view_handOver _ _ t
    rw [hbooks]
    rcases hcase with ⟨heq, hnone⟩ | ⟨-, q, hq, hv⟩
    · -- nothing is in flight any more: the counter has wrapped to zero
      have hz : counted c (view s) = 0 := by
        refine (hnone ?_ ?_ ?_).resolve_left hc
        · rw [← hu]; exact ha.alive
        · rw [← hu]; exact ha.pcb
        · rw [← hu]; exact hact
      rw [heq, view_free, hcount]
      have hcred : Credit (min c.totLen (counted c (view s))) p p := by
        rw [hz, Nat.min_zero]
        exact credit_refl p
      convert Delivery.copied ⟨by simpa [view] using h1, h3⟩ h4 hp hcred using 1
      simp only [hz, Nat.min_zero, Nat.sub_zero, Nat.add_zero, ← hp]
      rfl
    · have hcred : (u.free (.pbuf c)).log.credited = s.log.credited := by rw [← hu]; rfl
      have hlt : counted c (view s) < 2 ^ 64 := Nat.mod_lt _ (by decide)
      rw [hv, afterDelta_credit hlt (Nat.min_le_right _ _), hcred]
      exact .copied ⟨by simpa [view] using h1, h3⟩ h4 hp hq
  · rw [view_free, hcount]
    exact .failed (by simpa [view] using h4)
  · rw [view_free]
    have hq : Credit c.totLen p (tcpRecved p c.totLen) := credit_tcpRecved p (by omega)
    have hv : view (u.callLwip (.recved c.totLen) (RawApi.recved · c.totLen)) =
        { view u with pcb := some (tcpRecved p c.totLen) } := by
      have hpu : u.pcb = some p := hconn.2.2.trans hp
      simp only [Sys.callLwip, hpu, Option.map_some]
      rfl
    rw [hv, hcount]
    exact .unread ⟨by simpa [view] using h1, by simpa [view] using h3⟩ hp hq

lemma view_noteCall (cb : Callback) (arg : CallbackArg) (s : State o) :
    view (noteCall cb arg s) = view s := by
  unfold noteCall
  split_ifs <;> rfl

lemma attached_of_living (hc : Coherent s) (hl : living s = true) : Attached s := by
  simp only [living, Bool.and_eq_true] at hl
  exact hc.toAttached hl.1 hl.2

lemma unattended_of_living (hl : living s = false) : Unattended s := by
  simp only [living, Bool.and_eq_false_iff] at hl
  exact hl

lemma shouldAllowRecv_eq (hl : living s = true) : shouldAllowRecv s = (view s).ready := by
  simp only [living, Bool.and_eq_true] at hl
  unfold shouldAllowRecv View.ready tfTcpReadReady
  cases hp : s.pcb
  · simp [view, hp]
  · simp [view, living, hl.1, hl.2, hp]
    rfl

lemma guard_eq (hc : Coherent s) (hl : living s = true) :
    (!tfConnFromArg .conn s || !s.conn.alive || !s.conn.pcb) = false := by
  have ha := attached_of_living hc hl
  simp [tfConnFromArg, ha.ref, ha.held, ha.alive, ha.pcb]

lemma guard_of_over (hl : living s = false) :
    (!tfConnFromArg .conn s || !s.conn.alive || !s.conn.pcb) = true := by
  rcases unattended_of_living hl with h | h <;> simp [tfConnFromArg, h]

lemma tfTcpRecv_cases (hc : Coherent s) (c : Pbuf) :
    (living s = true ∧ (view s).ready = false ∧ tfTcpRecv .conn (some c) .ok s = (s, .mem)) ∨
    ((living s = false ∨ c.totLen = 0) ∧ tfTcpRecv .conn (some c) .ok s = (s.free (.pbuf c), .ok)) ∨
    (living s = true ∧ (view s).ready = true ∧ c.totLen ≠ 0 ∧
      tfTcpRecv .conn (some c) .ok s = (deliver c s, .ok)) := by
  unfold tfTcpRecv
  by_cases hl : living s = true
  · rw [guard_eq hc hl, shouldAllowRecv_eq hl]
    by_cases h0 : c.totLen = 0
    · exact .inr (.inl ⟨.inr h0, by simp [h0]⟩)
    · cases hr : (view s).ready
      · exact .inl ⟨hl, rfl, by simp [h0]⟩
      · exact .inr (.inr ⟨hl, rfl, h0, by simp [h0]⟩)
  · have hl' : living s = false := by simpa using hl
    rw [guard_of_over hl']
    exact .inr (.inl ⟨.inl hl', rfl⟩)

lemma eventRecv_cases (hc : Coherent s) (hh : s.hooks = attachedHooks) {p : Pcb o}
    (hp : s.pcb = some p) (c : Pbuf) :
    (living s = true ∧ (view s).ready = false ∧ ∃ t, eventRecv c s = (t, .mem) ∧
      view t = { view s with offers := s.log.offers ++ [⟨c, false⟩] }) ∨
    ∃ t, eventRecv c s = (t, .ok) ∧ Taking c (view s) (view t) := by
  -- a payload offered to a taken pcb's connection is refused or taken
  have hrecv : eventRecv c s =
      ({ (tfTcpRecv .conn (some c) .ok (noteCall .recv .conn s)).1 with
        log := { (tfTcpRecv .conn (some c) .ok (noteCall .recv .conn s)).1.log with
          offers := (tfTcpRecv .conn (some c) .ok (noteCall .recv .conn s)).1.log.offers ++
            [⟨c, (tfTcpRecv .conn (some c) .ok (noteCall .recv .conn s)).2 = .ok⟩] } },
        (tfTcpRecv .conn (some c) .ok (noteCall .recv .conn s)).2) := by
    simp only [eventRecv, hh, attachedHooks]
  have hn := view_noteCall .recv .conn s
  have hcn : Coherent (noteCall .recv .conn s) := by
    have := coherent_ordinary hc (ordinary_noteCall (s := s) (k := .hints) .recv)
    rwa [hh] at this
  have hpn : (noteCall .recv .conn s).pcb = some p := (congrArg View.pcb hn).trans hp
  have hliv : living (noteCall .recv .conn s) = living s := congrArg View.living hn
  generalize noteCall .recv .conn s = u at hrecv hn hcn hpn hliv
  rw [hrecv, ← hliv, ← hn]
  have hoff : s.log.offers = (view u).offers := (congrArg View.offers hn).symm
  rw [hoff]
  rcases tfTcpRecv_cases hcn c with ⟨hl, hr, heq⟩ | ⟨hd, heq⟩ | ⟨hl, hr, h0, heq⟩
  · rw [heq]
    exact .inl ⟨hl, hr, _, rfl, rfl⟩
  · rw [heq]
    exact .inr ⟨_, rfl, .dropped hd⟩
  · rw [heq]
    have hact : u.conn.state = .active := by
      simp only [View.ready, Bool.and_eq_true, decide_eq_true_eq] at hr
      exact hr.1.2
    exact .inr ⟨_, rfl, .delivered hr h0 (delivery_deliver (attached_of_living hcn hl) hact h0 hpn)⟩

/-! ### Refused data -/

/-- A taken pcb on the active list, between the callbacks of an event. -/
structure Serving (s : State o) : Prop where
  coherent : Coherent s
  hooks : s.hooks = attachedHooks
  pcb : ∃ p, s.pcb = some p

lemma Serving.taken (h : Serving s) : Taken s := by
  obtain ⟨p, hp⟩ := h.pcb
  exact ⟨by simp [hp], by simp [h.hooks, attachedHooks]⟩

lemma Serving.calm (h : Serving s) (hcalm : Calm s t) : Serving t := by
  have hst := hcalm.steady h.taken
  obtain ⟨p, hp⟩ := h.pcb
  obtain ⟨q, hq, -⟩ := steady_pcb hst hp
  obtain ⟨as, -, rfl⟩ := hcalm
  exact ⟨coherent_run h.coherent as, hst.hooks.trans h.hooks, q, hq⟩

lemma rejoin_offerSplit (c : Pbuf) : rejoin (offerSplit o c).1 (offerSplit o c).2 = c := by
  unfold offerSplit
  split_ifs
  · rcases c.split64k_cases with h | ⟨front, rest, h, hcat, -⟩
    · rw [h]
      rfl
    · rw [h]
      exact hcat
  · rfl

lemma view_modPcb (f : Pcb o → Pcb o) (s : State o) :
    view (modPcb f s) = { view s with pcb := (view s).pcb.map f } := rfl

lemma view_deliverFin (h : Serving s) : view (deliverFin s) = (view s).finTold := by
  have hu : view (modPcb correctFin s) = { view s with pcb := s.pcb.map correctFin } := rfl
  have hc : Coherent (modPcb correctFin s) := StackRuns.coherent_modPcb h.coherent correctFin
  have hn := view_noteCall .recv .conn (modPcb correctFin s)
  have hcn : Coherent (noteCall .recv .conn (modPcb correctFin s)) := by
    have := coherent_ordinary hc (ordinary_noteCall (s := modPcb correctFin s) (k := .hints) .recv)
    have hh : (modPcb correctFin s).hooks = attachedHooks := h.hooks
    rwa [hh] at this
  have hclosed : deliverFin s =
      (tfTcpRecv .conn none .ok (noteCall .recv .conn (modPcb correctFin s))).1 := by
    unfold deliverFin eventClosed
    have hh : (modPcb correctFin s).hooks = attachedHooks := h.hooks
    rw [hh]
    rfl
  have hliv : living (noteCall .recv .conn (modPcb correctFin s)) = living s :=
    congrArg View.living hn
  rw [hclosed]
  generalize noteCall .recv .conn (modPcb correctFin s) = u at hn hcn hliv
  rw [hu] at hn
  unfold tfTcpRecv View.finTold
  have hpcb : (view s).pcb.map correctFin = s.pcb.map correctFin := rfl
  have hlv : (view s).living = living s := rfl
  rw [hpcb, hlv]
  by_cases hl : living s = true
  · rw [guard_eq hcn (hliv.trans hl), hl]
    have hread : u.conn.readEOF = s.conn.readEOF := congrArg View.readEOF hn
    have hhand : u.conn.handlers = s.conn.handlers := congrArg View.handlers hn
    have hv : view (handlePeerFINLocked u) = { view u with
        readEOF := true
        queue := u.connectionsQueue ++ if !u.conn.readEOF && u.conn.handlers.onReadEOF then
          [.readEOF] else [] } := by
      unfold handlePeerFINLocked
      cases hr : u.conn.readEOF
      · simp [Sys.postIf, view, living]
      · simp [view, living, hr]
    have hq : u.connectionsQueue = s.connectionsQueue := congrArg View.queue hn
    simp only [Bool.false_eq_true, if_false, ne_eq, not_true_eq_false]
    rw [hv, hn, hread, hhand, hq]
    simp [view, hl]
  · have hl' : living s = false := by simpa using hl
    rw [guard_of_over (hliv.trans hl'), hl']
    simp only [if_true, freeIfSome, Bool.or_false, Bool.false_and, Bool.false_eq_true, if_false,
      List.append_nil]
    rw [hn]
    simp [view, hl']

lemma setRefused_setRefused (r r' : Option Refused) (p : Pcb o) :
    setRefused r (setRefused r' p) = setRefused r p := rfl

lemma setRefused_self {p : Pcb o} {r : Option Refused} (h : p.rx.refusedData = r) :
    setRefused r p = p := by
  subst h
  rfl

variable {s₀ : State o} {e : Event}

lemma path_refusedLoop (fuel : ℕ) (h : Serving s) (hact : ∀ p, s.pcb = some p → p.list = .active)
    (he : retries e = true) :
    Path s₀ e (start e, view s) (start e, view (refusedLoop fuel s)) := by
  -- each round of the retry loop is one stage: the data is refused again, or the front of it is
  -- taken
  induction fuel generalizing s with
  | zero => exact .refl
  | succ fuel ih =>
    obtain ⟨p, hp⟩ := h.pcb
    unfold refusedLoop
    rw [hp, Option.bind_some]
    cases hr : p.rx.refusedData with
    | none => exact .refl
    | some r =>
      dsimp only
      have hl := hact p hp
      have hcalm₁ : Calm s (modPcb (setRefused ((offerSplit o r.p).2.map fun q => ⟨q, r.fin⟩)) s) :=
        calm_modPcb (core_setRefused _)
      have hs₁ := h.calm hcalm₁
      have hp₁ : (modPcb (setRefused ((offerSplit o r.p).2.map fun q => ⟨q, r.fin⟩)) s).pcb =
          some (setRefused ((offerSplit o r.p).2.map fun q => ⟨q, r.fin⟩) p) := by simp [modPcb, hp]
      have hv₁ : view (modPcb (setRefused ((offerSplit o r.p).2.map fun q => ⟨q, r.fin⟩)) s) =
          { view s with
            pcb := some (setRefused ((offerSplit o r.p).2.map fun q => ⟨q, r.fin⟩) p) } := by
        rw [← hp₁]
        rfl
      have hcalm₂ := calm_eventRecv
        (s := modPcb (setRefused ((offerSplit o r.p).2.map fun q => ⟨q, r.fin⟩)) s)
        (offerSplit o r.p).1 hs₁.taken.isSome
      have hcases := eventRecv_cases hs₁.coherent hs₁.hooks hp₁ (offerSplit o r.p).1
      rw [hv₁] at hcases
      generalize modPcb (setRefused ((offerSplit o r.p).2.map fun q => ⟨q, r.fin⟩)) s = s₁ at *
      rcases hcases with ⟨hlv, hready, t, heq, hv⟩ | ⟨t, heq, htake⟩
      · rw [heq]
        dsimp only
        refine .single ?_
        have hliv : living s = true := (congrArg View.living hv₁).symm.trans hlv
        have hready' : (view s).ready = false := by
          rw [← hready]
          simp [View.ready, view, hp, setRefused, rcvLowWater]
        have hback : view (modPcb
            (setRefused (some ⟨rejoin (offerSplit o r.p).1 (offerSplit o r.p).2, r.fin⟩)) t) =
            { view s with offers := s.log.offers ++ [⟨(offerSplit o r.p).1, false⟩] } := by
          have ht : (view t).pcb =
              some (setRefused ((offerSplit o r.p).2.map fun q => ⟨q, r.fin⟩) p) := by rw [hv]
          have hoff : s₁.log.offers = s.log.offers := congrArg View.offers hv₁
          rw [rejoin_offerSplit]
          rw [view_modPcb, ht, hv, hoff, Option.map_some, setRefused_setRefused, setRefused_self hr,
            ← hp]
          rfl
        rw [hback]
        exact .refusedAgain rfl he hp hl hr hliv hready'
      · rw [heq]
        have ht : Serving t := by
          have := hs₁.calm hcalm₂
          rwa [heq] at this
        have hlt : ∀ q, t.pcb = some q → q.list = .active := by
          intro q hq
          rw [heq] at hcalm₂
          obtain ⟨q', hq', hcore⟩ := steady_pcb ((hcalm₁.trans hcalm₂).steady h.taken) hp
          rw [hq] at hq'
          cases hq'
          exact (list_of_core hcore).trans hl
        dsimp only
        refine Relation.ReflTransGen.head (Flow.retaken rfl he hp hl hr htake) ?_
        by_cases hfin : r.fin = true ∧ (offerSplit o r.p).2 = none
        · rw [if_pos hfin, if_pos (by simp [hfin])]
          have hcalm₃ := calm_deliverFin ht.taken.isSome
          rw [← view_deliverFin ht]
          refine ih (ht.calm hcalm₃) fun q hq => ?_
          obtain ⟨q', hq'⟩ := ht.pcb
          obtain ⟨q'', hq'', hcore⟩ := steady_pcb (hcalm₃.steady ht.taken) hq'
          rw [hq] at hq''
          cases hq''
          exact (list_of_core hcore).trans (hlt q' hq')
        · rw [if_neg hfin, if_neg (by simpa using hfin)]
          exact ih ht hlt

lemma path_tcpProcessRefusedData (h : Serving s) (hact : ∀ p, s.pcb = some p → p.list = .active)
    (he : retries e = true) :
    Path s₀ e (start e, view s) (start e, view (tcpProcessRefusedData s)) := by
  unfold tcpProcessRefusedData
  split
  · exact .refl
  · exact path_refusedLoop _ h hact he

/-! ### Hints -/

/-- The connection has posted hints and is otherwise unchanged. -/
def Hinted (s t : State o) : Prop :=
  ∃ bs : List CBlock, (∀ b ∈ bs, isHint b = true) ∧
    view t = { view s with queue := s.connectionsQueue ++ bs }

lemma Hinted.refl (s : State o) : Hinted s s := ⟨[], by simp, by simp [view]⟩

lemma Hinted.trans {u : State o} (h : Hinted s t) (h' : Hinted t u) : Hinted s u := by
  obtain ⟨bs, hb, hv⟩ := h
  obtain ⟨bs', hb', hv'⟩ := h'
  have hq : t.connectionsQueue = s.connectionsQueue ++ bs := congrArg View.queue hv
  refine ⟨bs ++ bs', fun b hm => ?_, ?_⟩
  · rcases List.mem_append.1 hm with hm | hm
    · exact hb b hm
    · exact hb' b hm
  · rw [hv', hv, hq, List.append_assoc]

lemma hinted_of_view (h : view t = view s) : Hinted s t := by
  refine ⟨[], by simp, ?_⟩
  rw [h, List.append_nil]
  rfl

lemma hinted_postIf {b : CBlock} (set : Bool) (hb : isHint b = true) :
    Hinted s (s.postIf set b) := by
  refine ⟨if set then [b] else [], ?_, rfl⟩
  split_ifs <;> simp [hb]

lemma hinted_updateWritableLocked (b : Bool) (s : State o) :
    Hinted s (updateWritableLocked b s) := by
  unfold updateWritableLocked
  split_ifs
  · exact .refl s
  · exact (hinted_of_view rfl).trans (hinted_postIf _ rfl)

lemma hinted_eventSent (len : ℕ) (s : State o) : Hinted s (eventSent len s) := by
  unfold eventSent tfTcpSent
  split_ifs
  · exact hinted_of_view (view_noteCall _ _ s)
  · exact ((hinted_of_view (view_noteCall _ _ s)).trans (hinted_updateWritableLocked _ _)).trans
      (hinted_postIf _ rfl)
  · exact .refl s

lemma hinted_sentLoop (fuel acked : ℕ) (s : State o) : Hinted s (sentLoop fuel acked s) := by
  induction fuel generalizing acked s with
  | zero => exact .refl s
  | succ fuel ih =>
    unfold sentLoop
    split_ifs
    · exact .refl s
    · exact (hinted_eventSent _ s).trans (ih _ _)
    · exact hinted_eventSent acked s

lemma path_of_hinted (h : Hinted s t) (ph : Phase) : Path s₀ e (ph, view s) (ph, view t) := by
  obtain ⟨bs, hb, hv⟩ := h
  rw [hv]
  change Path s₀ e (ph, view s) (ph, { view s with queue := (view s).queue ++ bs })
  clear hv
  generalize view s = v
  induction bs generalizing v with
  | nil => rw [List.append_nil]
  | cons b bs ih =>
    have hnext := ih (fun b' hm => hb b' (List.mem_cons_of_mem _ hm)) { v with
      queue := v.queue ++ [b] }
    rw [List.append_assoc, List.singleton_append] at hnext
    exact .head (.hinted (hb b List.mem_cons_self)) hnext

/-! ### Handing on what a segment brought -/

lemma offerSplit_cases (c : Pbuf) : (offerSplit o c).2 = none ∨
    ∃ rest, (offerSplit o c).2 = some rest ∧ rest.cells ≠ [] ∧ rest.clen < c.clen := by
  unfold offerSplit
  split_ifs
  · rcases c.split64k_cases with h | ⟨front, rest, h, -, hne, hlt⟩
    · exact .inl (by rw [h])
    · exact .inr ⟨rest, by rw [h], hne, hlt⟩
  · exact .inl rfl

lemma path_offerData (fuel : ℕ) {c : Pbuf} {fin : Bool} (h : Serving s)
    (hopen : ∀ p, s.pcb = some p → p.rxClosed = false) (hne : c.cells ≠ [])
    (hfuel : c.clen ≤ fuel) :
    Path s₀ e (.hand (some c) fin, view s) (.hand none fin, view (offerData fuel c s)) := by
  -- data for an open pcb is offered piece by piece until it is all taken or some is refused
  induction fuel generalizing s c with
  | zero =>
    have := List.length_pos_of_ne_nil hne
    simp only [Pbuf.clen] at hfuel
    omega
  | succ fuel ih =>
    obtain ⟨p, hp⟩ := h.pcb
    unfold offerData
    rw [hp]
    dsimp only
    rw [hopen p hp, if_neg (by simp)]
    have hcalm := calm_eventRecv (s := s) (offerSplit o c).1 h.taken.isSome
    rcases eventRecv_cases h.coherent h.hooks hp (offerSplit o c).1 with
      ⟨hl, hr, t, heq, hv⟩ | ⟨t, heq, htake⟩
    · rw [heq]
      dsimp only
      refine .single ?_
      have hback : view (modPcb
          (setRefused (some ⟨rejoin (offerSplit o c).1 (offerSplit o c).2, false⟩)) t) =
          { view s with
            pcb := some (setRefused (some ⟨c, false⟩) p)
            offers := s.log.offers ++ [⟨(offerSplit o c).1, false⟩] } := by
        have htp : (view t).pcb = some p := by
          rw [hv]
          exact hp
        rw [rejoin_offerSplit, view_modPcb, htp, hv]
        rfl
      rw [hback]
      exact .refused hp hl hr
    · rw [heq] at hcalm
      rw [heq]
      dsimp only
      have ht : Serving t := h.calm hcalm
      refine .head (.taken hp htake) ?_
      rcases offerSplit_cases (o := o) c with hnone | ⟨rest, hrest, hne', hlt⟩
      · rw [hnone]
      · rw [hrest]
        refine ih ht (fun q hq => ?_) hne' (by omega)
        obtain ⟨q', hq', hcore⟩ := steady_pcb (hcalm.steady h.taken) hp
        rw [hq] at hq'
        cases hq'
        exact (rxClosed_of_core hcore).trans (hopen p hp)

lemma path_offered {recvData : Option Pbuf} {fin : Bool} (h : Serving s)
    (hopen : ∀ p, s.pcb = some p → p.rxClosed = false)
    (hne : ∀ c, recvData = some c → c.cells ≠ []) :
    Path s₀ e (.hand recvData fin, view s) (.hand none fin, view (offered recvData s)) := by
  cases recvData with
  | none => exact .refl
  | some c => exact path_offerData c.clen h hopen (hne c rfl) le_rfl

lemma path_handleFin (h : Serving s) (fin : Bool) :
    Path s₀ e (.hand none fin, view s)
      (.rest, view (if fin = true ∧ s.pcb.isSome = true then handleFin s else s)) := by
  obtain ⟨p, hp⟩ := h.pcb
  cases fin with
  | false =>
    rw [if_neg (by simp)]
    exact .single .settled
  | true =>
    rw [if_pos ⟨rfl, h.taken.isSome⟩]
    unfold handleFin Stack.refused
    rw [hp, Option.bind_some]
    cases hr : p.rx.refusedData with
    | none =>
      dsimp only
      rw [view_deliverFin h]
      exact .single (.finTold hp hr)
    | some r =>
      dsimp only
      have hv : view (modPcb (setRefused (some { r with fin := true })) s) =
          { view s with pcb := some (setRefused (some { r with fin := true }) p) } := by
        have hpv : (view s).pcb = some p := hp
        rw [view_modPcb, hpv]
        rfl
      rw [hv]
      exact .single (.finMarked hp hr)

end TunForge.InflowSteps
