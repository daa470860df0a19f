import TunForge.InflowEvents

/-! The timers and the other events of lwIP as ways through the stages of the inbound
machine, and with them every event of lwIP. -/
namespace TunForge.InflowRuns
open SerialNumber PbufChain LwipTypes TcpOut TcpIn Tcp Connection Callbacks Stack
open Boundary Termination OrdinarySteps BoundaryRule Lifecycle PcbFrames CalmSteps InputCases
  Refinement WellFormed
open ReceiveSteps WorkFrames Inflow InflowSteps InflowEvents

variable {o : Platform} {s t s₀ : State o} {e : Event}

lemma place_sendPendingFin (p : Pcb o) : (sendPendingFin p).list = p.list ∧
    ((sendPendingFin p).state = .synRcvd → p.state = .synRcvd) := by
  unfold sendPendingFin
  split_ifs
  · exact place_tcpCloseShutdownFin ({ p with closePend := false } : Pcb o)
  · exact ⟨rfl, id⟩

lemma place_fasttmrSend (p : Pcb o) : (fasttmrSend p).list = p.list ∧
    ((fasttmrSend p).state = .synRcvd → p.state = .synRcvd) := by
  unfold fasttmrSend
  dsimp only
  split_ifs
  · have hsame := same_tcpOutput (tcpAckNow p)
    obtain ⟨h1, h2⟩ := place_sendPendingFin
      ({ tcpOutput (tcpAckNow p) with ackDelay := false, ackNow := false } : Pcb o)
    exact ⟨h1.trans (list_of_core hsame.1), fun h => (state_of_core hsame.1) ▸ h2 h⟩
  · exact place_sendPendingFin p

lemma path_tcpFasttmr (hw : Wf s) :
    Path s .fasttmr (.rest, view s) (.rest, view (tcpFasttmr s)) := by
  unfold tcpFasttmr
  split
  · exact .refl
  · next pcb hp =>
    split_ifs with hl
    · have hsend : Path s .fasttmr (.rest, view s) (.rest, view (modPcb fasttmrSend s)) :=
        path_modPcb (by simp) fun p _ => ⟨inbox_fasttmrSend p, (place_fasttmrSend p).1,
          (place_fasttmrSend p).2, keeps_fasttmrSend p⟩
      refine hsend.trans ?_
      have hw' := StackRuns.wf_fasttmrSend hw
      have hq : (modPcb fasttmrSend s).pcb = some (fasttmrSend pcb) := by simp [modPcb, hp]
      by_cases hs : (fasttmrSend pcb).state = .synRcvd
      · have href : refused (modPcb fasttmrSend s) = none := by
          simp [Stack.refused, hq, ((hw'.pcb _ hq).unread hs).2.1]
        unfold tcpProcessRefusedData
        rw [href]
      · refine path_tcpProcessRefusedData (e := .fasttmr) (serving_of_taken hw' hq hs)
          (fun p hp' => ?_) rfl
        rw [hq] at hp'
        cases hp'
        exact (place_fasttmrSend pcb).1.trans hl
    · exact .refl

lemma path_eventPoll (hw : Wf s) (hi : s.conn.pendingClose = false)
    (htime : newStateTimedOut s = true → ∀ v, Doom s₀ v .slowtmr .abort) :
    Path s₀ .slowtmr (.rest, view s) (.rest, view (eventPoll s)) := by
  -- the poll callback only posts hints, unless the connection has been left in `New` for too long
  unfold eventPoll
  split_ifs with hpoll
  · have hh : s.hooks = attachedHooks := by
      rcases hw.coherent.hooked with h | h | ⟨h, -⟩
      · simp [h, openedHooks] at hpoll
      · exact h
      · simp [h, detachedHooks] at hpoll
    have hn := view_noteCall .poll s.hooks.arg s
    have hcn := coherent_ordinary hw.coherent (ordinary_noteCall (s := s) (k := .hints) .poll)
    have hlv : living (noteCall .poll s.hooks.arg s) = living s := congrArg View.living hn
    have htn : newStateTimedOut (noteCall .poll s.hooks.arg s) = newStateTimedOut s := by
      unfold noteCall
      split_ifs <;> rfl
    have hpn : (noteCall .poll s.hooks.arg s).conn.pendingClose = false := by rw [noteCall_conn, hi]
    have harg : s.hooks.arg = .conn := by rw [hh]; rfl
    rw [← hn]
    rw [harg] at hcn hlv htn hpn ⊢
    generalize noteCall .poll .conn s = u at hcn hlv htn hpn
    unfold tfTcpPoll
    by_cases hl : living u = true
    · rw [guard_eq hcn hl, if_neg (by simp), htn]
      split_ifs with ht
      · refine path_removed (.inl rfl) (htime ht _) ?_
        exact view_abortLocked hcn hl .abort
      · have hup := hinted_updateWritableLocked (tfTcpWriteReady u) u
        dsimp only
        rw [updateWritableLocked_pendingClose, hpn, if_neg Bool.false_ne_true]
        exact path_of_hinted hup _
    · rw [guard_of_over (by simpa using hl), if_pos rfl]
  · exact .refl

lemma path_pollPcb (hw : Wf s) (hi : s.conn.pendingClose = false)
    (htime : newStateTimedOut s = true → ∀ v, Doom s₀ v .slowtmr .abort) {pcb p : Pcb o}
    (hp : s.pcb = some pcb) (hcore : core p = core pcb) (hside : side p = side pcb)
    (hin : inbox p = inbox pcb ∨ inbox p = { inbox pcb with ooseq := [] }) :
    Path s₀ .slowtmr (.rest, view s) (.rest, view (pollPcb p s)) := by
  have href : p.rx.refusedData = pcb.rx.refusedData := by
    rcases hin with h | h
    · exact congrArg Inbox.refusedData h
    · exact congrArg Inbox.refusedData h
  -- the pcb loses stale reassembly data and its poll timer moves
  have hset : ∀ n, Path s₀ .slowtmr (.rest, view s)
      (.rest, view ({ s with pcb := some { p with polltmr := n } } : State o)) := by
    intro n
    have hl : ({ p with polltmr := n } : Pcb o).list = pcb.list := list_of_core hcore
    have hs : ({ p with polltmr := n } : Pcb o).state = .synRcvd → pcb.state = .synRcvd :=
      fun h => (state_of_core hcore) ▸ h
    rcases hin with h | h
    · exact .single (.worked (by simp) hp h hl hs (.inl (keeps_of_core hcore hside)))
    · exact .single (.staleDropped hp h hl hs (keeps_of_core hcore hside))
  simp only [pollPcb]
  split_ifs
  · have hwf : Wf ({ s with pcb := some { p with polltmr := 0 } } : State o) :=
      StackRuns.wf_setPcb hw hp hcore href
    have hpoll := path_eventPoll hwf hi htime
    refine (hset 0).trans (hpoll.trans (path_modPcb (by simp) fun q _ => ?_))
    have hsame := same_tcpOutput q
    split_ifs
    · exact ⟨hsame.2, list_of_core hsame.1, fun h => (state_of_core hsame.1) ▸ h, keeps_tcpOutput q⟩
    · exact ⟨rfl, rfl, id, .refl q⟩
  · exact hset _

lemma inbox_dropStaleOoseq (p : Pcb o) :
    inbox (dropStaleOoseq p) = inbox p ∨ inbox (dropStaleOoseq p) = { inbox p with
      ooseq := [] } := by
  unfold dropStaleOoseq
  split_ifs
  · exact .inr rfl
  · exact .inl rfl

lemma path_silentRemoval (hw : Wf s) {pcb : Pcb o} (hp : s.pcb = some pcb) (he : start e = .rest)
    (hd : ∀ v, Doom s₀ v e .destroyed) (hfree : t = tcpFree s ∨ ∃ gap, t = freeThenErr gap s) :
    Path s₀ e (.rest, view s) (.rest, view t) := by
  -- a pcb that lwIP removes before it reports the abort, or without a word
  by_cases hs : pcb.state = .synRcvd
  · have hl := living_of_fresh hw hp hs
    have hhooks : s.hooks = openedHooks := (hw.pcb pcb hp).fresh.2 hs
    refine path_removed (r := .destroyed) (.inr hl) (.unattended hl) ?_
    rw [ended_of_over _ hl]
    rcases hfree with rfl | ⟨gap, rfl⟩
    · rw [tcpFree_of_bare (by simp [hhooks, openedHooks])]
      rfl
    · have hbare : tcpFree s = { s with pcb := none, hooks := detachedHooks false } :=
        tcpFree_of_bare (by simp [hhooks, openedHooks])
      have herr : freeThenErr gap s = if gap then releaseConnection (tcpFree s) else tcpFree s := by
        simp [freeThenErr, eventErr, hhooks, openedHooks]
      rw [herr, hbare]
      cases gap
      · rfl
      · rw [if_pos rfl]
        simp only [living] at hl
        rcases releaseConnection_cases
          ({ s with pcb := none, hooks := detachedHooks false } : State o) with
          heq | ⟨-, -, heq⟩
        · rw [heq]
          rfl
        · rw [heq]
          simp [view, living, hl]
  · have hserv := serving_of_taken hw hp hs
    refine path_removed (.inl he.symm) (hd _) ?_
    rcases hfree with rfl | ⟨gap, rfl⟩
    · exact view_tcpFree hserv.coherent hserv.hooks
    · exact view_freeThenErr hserv.coherent hserv.hooks gap

lemma path_tcpSlowtmr (h : Sound s) :
    Path s .slowtmr (.rest, view s) (.rest, view (tcpSlowtmr s)) := by
  have hw : Wf (modPcb tick s) :=
    wf_modPcb h.wf (StackRuns.coherent_modPcb h.wf.coherent _) fun p => ⟨rfl, rfl⟩
  have htick : Path s .slowtmr (.rest, view s) (.rest, view (modPcb tick s)) :=
    path_modPcb (by simp) fun p _ => ⟨rfl, rfl, id, keeps_of_core rfl rfl⟩
  refine htick.trans ?_
  have hmod : modPcb (fun pcb : Pcb o => { pcb with ticks := pcb.ticks + 1 }) s = modPcb tick s :=
    rfl
  simp only [tcpSlowtmr, hmod]
  cases hp : s.pcb with
  | none =>
    have hnone : (modPcb tick s).pcb = none := by simp [modPcb, hp]
    rw [hnone]
  | some pcb =>
    have hq : (modPcb tick s).pcb = some (tick pcb) := by simp [modPcb, hp]
    rw [hq]
    dsimp only
    split
    · next hl =>
      split_ifs with hr
      · exact path_silentRemoval hw hq rfl (fun v => .removal hp hl hr) (.inr ⟨_, rfl⟩)
      · exact path_pollPcb hw h.idle (fun ht v => .timeout hp hl ht) hq (core_dropStaleOoseq _)
          (side_dropStaleOoseq _) (inbox_dropStaleOoseq _)
    · next hl =>
      split_ifs with hx
      · exact path_silentRemoval hw hq rfl (fun v => .expiry hp hl hx) (.inl rfl)
      · exact .refl
    · exact .refl

lemma path_abandon (hw : Wf s) {pcb : Pcb o} (hp : s.pcb = some pcb) (he : start e = .rest)
    (hd : ∀ v, Doom s₀ v e .destroyed) (gap : Bool) :
    Path s₀ e (.rest, view s) (.rest, view (tcpAbandon gap s)) := by
  unfold tcpAbandon
  rw [hp]
  dsimp only
  split_ifs
  · exact path_silentRemoval hw hp he hd (.inl rfl)
  · exact path_silentRemoval hw hp he hd (.inr ⟨gap, rfl⟩)

/-- Every event of lwIP is a way through the stages of the inbound machine. -/
theorem path_step (h : Sound s) (he : ∀ a, e ≠ .app a) :
    Path s e (start e, view s) (.rest, view (step s e)) := by
  cases e with
  | segment seg => exact path_tcpInput h.wf seg
  | fasttmr => exact path_tcpFasttmr h.wf
  | slowtmr => exact path_tcpSlowtmr h
  | rexmitRto =>
    refine path_modPcb (by simp [start]) fun p _ => ?_
    split_ifs
    · have hsame := same_tcpOutput ({ p with tx := tcpRexmitRtoPrepare p.tx } : Pcb o)
      exact ⟨hsame.2, list_of_core hsame.1, fun hs => (state_of_core hsame.1) ▸ hs,
        keeps_of_core hsame.1 (side_tcpOutput _)⟩
    · exact ⟨rfl, rfl, id, .refl p⟩
  | persist keep =>
    refine path_modPcb (by simp [start]) fun p _ => ?_
    split_ifs
    · have hsame := same_persistFire keep p
      exact ⟨hsame.2, list_of_core hsame.1, fun hs => (state_of_core hsame.1) ▸ hs,
        keeps_of_core hsame.1 (side_persistFire keep p)⟩
    · exact ⟨rfl, rfl, id, .refl p⟩
  | handleClosepend =>
    refine path_modPcb (by simp [start]) fun p _ => ?_
    split_ifs
    · exact ⟨inbox_sendPendingFin p, (place_sendPendingFin p).1, (place_sendPendingFin p).2,
        keeps_sendPendingFin p⟩
    · exact ⟨rfl, rfl, id, .refl p⟩
  | killTimewait =>
    simp only [step, Stack.killTimewait]
    split_ifs with hk
    · obtain ⟨pcb, hp, hl⟩ := (Option.any_eq_true _ _).1 hk
      exact path_abandon h.wf hp rfl (fun v => .killTimewait hp (by simpa using hl)) _
    · exact .refl
  | killState =>
    simp only [step, Stack.killState]
    split_ifs with hk
    · obtain ⟨pcb, hp, hl⟩ := (Option.any_eq_true _ _).1 hk
      simp only [decide_eq_true_eq] at hl
      exact path_abandon h.wf hp rfl (fun v => .killState hp hl.1 hl.2) _
    · exact .refl
  | netifIpAddrChanged =>
    simp only [step, Stack.netifIpAddrChanged]
    split_ifs with hk
    · obtain ⟨pcb, hp, hl⟩ := (Option.any_eq_true _ _).1 hk
      exact path_abandon h.wf hp rfl (fun v => .netif hp (by simpa using hl)) _
    · exact .refl
  | listenerClosed =>
    cases hp : s.pcb with
    | none =>
      rw [show step s .listenerClosed = s from modPcb_of_none hp]
      exact .refl
    | some p =>
      have hv : view (step s .listenerClosed) = { view s with
          pcb := some { p with listener := false } } := by
        rw [show step s .listenerClosed = modPcb _ s from rfl, view_modPcb]
        simp [view, hp]
      rw [hv]
      exact .single (.worked (by simp [start]) hp rfl rfl id (.inr ⟨rfl, rfl⟩))
  | app a => exact absurd rfl (he a)
  | env env => exact path_modPcb (by simp [start]) fun p _ => ⟨rfl, rfl, id, keeps_env env p⟩

end TunForge.InflowRuns
