import TunForge.InflowRuns

/-! Method calls, the blocks of the two queues and the application's other events,
as steps of the inbound machine. -/
namespace TunForge.InflowCalls
open SerialNumber PbufChain LwipTypes TcpOut TcpIn Tcp Connection Callbacks Stack
open Boundary Termination OrdinarySteps BoundaryRule Lifecycle PcbFrames CalmSteps InputCases
  Refinement WellFormed
open ReceiveSteps WorkFrames Inflow InflowSteps InflowEvents InflowRuns

variable {o : Platform} {s : State o}

lemma view_callLwip (c : LwipCall) (f : Pcb o → Pcb o) (s : State o) :
    view (s.callLwip c f) = { view s with pcb := s.pcb.map f } := rfl

lemma living_of_alive (he : s.connExists = true) (ha : s.conn.alive = true) : living s = true := by
  simp [living, he, ha]

lemma flow_markActive (hw : Wf s) (he : s.connExists = true) :
    AppFlow s (.api .markActive) (view (markActive s)) := by
  by_cases hg : (!s.conn.alive || !s.conn.pcb) = true ∨ s.conn.state ≠ .new
  · have heq : markActive s = s := by
      unfold markActive
      split_ifs with ha hn
      · rfl
      · rfl
      · exact absurd (hg.resolve_left ha) hn
    rw [heq]
    exact .idle
  · simp only [not_or, Bool.not_eq_true, Bool.or_eq_false_iff, Bool.not_eq_false', ne_eq,
      not_not] at hg
    have ha := hw.coherent.toAttached he hg.1.1
    obtain ⟨p, hp, -⟩ := placed_of_attached hw ha
    rw [markActive_eq ha hg.2]
    have hv : ∃ bs : List CBlock, (∀ b ∈ bs, b = .activated) ∧
        view (notifyActiveOnceLocked (Sys.callLwip .backlogAccepted RawApi.backlogAccepted
          ({ s with conn := { s.conn with state := .active } } : State o))) =
        { view s with
          pcb := some (tcpBacklogAccepted p), state := .active,
            queue := s.connectionsQueue ++ bs } := by
      unfold notifyActiveOnceLocked
      split_ifs
      · refine ⟨[], by simp, ?_⟩
        simp [Sys.callLwip, view, living, hp]
        rfl
      · refine ⟨if s.conn.handlers.onActivated then [.activated] else [], by split_ifs <;> simp, ?_⟩
        simp [Sys.callLwip, Sys.postIf, view, living, hp]
        rfl
    obtain ⟨bs, hb, hv⟩ := hv
    rw [hv]
    exact .activated hp rfl rfl id hb rfl (living_of_alive he ha.alive)

lemma flow_acknowledge (hw : Wf s) (he : s.connExists = true) (n : ℕ) :
    AppFlow s (.api (.acknowledgeDeliveredBytes n)) (view (acknowledgeDeliveredBytes n s)) := by
  cases hp : s.pcb with
  | none =>
    have hdead : s.conn.alive = false := by
      by_contra ha
      have := (hw.coherent.toAttached he (by simpa using ha)).isSome
      simp [hp] at this
    have heq : acknowledgeDeliveredBytes n s = s := by simp [acknowledgeDeliveredBytes, hdead]
    rw [heq]
    exact .idle
  | some p =>
    rcases acknowledge_cases n hp with ⟨heq, -⟩ | ⟨ha, q, hq, hv⟩
    · rw [heq]
      exact .idle
    · rw [hv]
      exact .acknowledged hp hq (living_of_alive he ha)

lemma flow_abort (hw : Wf s) (he : s.connExists = true) {a : AppEvent} (ha : aborts s a = true) :
    AppFlow s a (view (abortLocked .abort s)) := by
  by_cases hal : s.conn.alive = true
  · rw [view_abortLocked hw.coherent (living_of_alive he hal)]
    exact .aborted ha
  · rw [abortLocked_of_dead (by simpa using hal)]
    exact .idle

lemma flow_writeBytes (hw : Wf s) (he : s.connExists = true) (bytes : Bytes) {c : ApiCall}
    (hc : fatalWrite s bytes = true → aborts s (.api c) = true) :
    AppFlow s (.api c) (view (writeBytes bytes s).1) := by
  unfold fatalWrite at hc
  revert hc
  unfold writeBytes
  split_ifs with h0 h1 hg
  · exact fun _ => .idle
  · exact fun _ => .idle
  · exact fun _ => .idle
  · have hal : s.conn.alive = true := by
      simp only [Bool.or_eq_true, not_or] at hg
      simpa using hg.1.1.1
    have hat := hw.coherent.toAttached he hal
    obtain ⟨p, hp, hpl⟩ := placed_of_attached hw hat
    have hsame : Same p (tcpWrite p bytes).1 := same_tcpWrite p bytes
    have hrw : (RawApi.write p bytes : Pcb o × Err) = tcpWrite p bytes := rfl
    rw [hp, Option.map_some, hrw]
    have hside : side (tcpWrite p bytes).1 = side p := side_tcpWrite p bytes
    revert hsame hside
    generalize tcpWrite p bytes = res
    obtain ⟨q, err⟩ := res
    intro hsame hside
    have hstate : ∀ p' : Pcb o, core p' = core p → p'.state = .synRcvd → p.state = .synRcvd :=
      fun p' hcore hs => (state_of_core hcore) ▸ hs
    cases err with
    | ok =>
      intro _
      obtain ⟨bs, hb, hv⟩ := hinted_updateWritableLocked (o := o)
        (tfTcpWriteReady ((s.callLwip (.write bytes.length) fun _ => q).callLwip .output
          RawApi.output))
        ((s.callLwip (.write bytes.length) fun _ => q).callLwip .output RawApi.output)
      dsimp only
      rw [hv]
      have hout := same_tcpOutput q
      have hcore := hout.1.trans hsame.1
      simp only [Sys.callLwip, hp, Option.map_some]
      have hboth : side (tcpOutput q) = side p := (side_tcpOutput q).trans hside
      exact .worked hp (hout.2.trans hsame.2) (list_of_core hcore) (hstate _ hcore) hb
        (stays_of_core hcore hboth hpl.live.2.2.2) (living_of_alive he hal) fun hf =>
          ⟨hf, keeps_of_core hcore hboth⟩
    | mem =>
      intro _
      obtain ⟨bs, hb, hv⟩ := hinted_updateWritableLocked (o := o) false
        (s.callLwip (.write bytes.length) fun _ => q)
      dsimp only
      rw [hv]
      simp only [Sys.callLwip, hp, Option.map_some]
      exact .worked hp hsame.2 (list_of_core hsame.1) (hstate _ hsame.1) hb
        (stays_of_core hsame.1 hside hpl.live.2.2.2) (living_of_alive he hal) fun hf =>
          ⟨hf, keeps_of_core hsame.1 hside⟩
    | _ =>
      intro hc
      dsimp only at hc ⊢
      have hset : Wf (s.callLwip (.write bytes.length) fun _ => q) := by
        refine wf_of_ordinary hw hat (k := .hints) (ordinary_callLwip _ (by simp)) fun p' hp' hpl =>
          ?_
        rw [hp] at hp'
        cases hp'
        exact ⟨q, by simp [Sys.callLwip, hp], hpl.of_core hsame.1, rxClosed_of_core hsame.1⟩
      have hlv : living (s.callLwip (.write bytes.length) fun _ => q) = true :=
        living_of_alive he hal
      rw [view_abortLocked hset.coherent hlv, view_callLwip, ended_pcb]
      exact .aborted (hc (by simp))

lemma flow_shutdownWrite (hw : Wf s) (he : s.connExists = true) :
    AppFlow s (.api .shutdownWrite) (view (shutdownWrite s)) := by
  unfold shutdownWrite
  split_ifs with h1 h2 h3
  · exact .idle
  · exact .idle
  · exact .idle
  · have hal : s.conn.alive = true := by
      simp only [Bool.or_eq_true, not_or] at h1
      simpa using h1.1
    obtain ⟨p, hp, hpl⟩ := placed_of_attached hw (hw.coherent.toAttached he hal)
    have htaken := hpl.live.2.2.2
    have hplace : (tcpShutdownTx p).list = p.list ∧
        ((tcpShutdownTx p).state = .synRcvd → p.state = .synRcvd) ∧
        inbox (tcpShutdownTx p) = inbox p ∧ Stays p (tcpShutdownTx p) := by
      have hfin := place_tcpCloseShutdownFin p
      have hin := inbox_tcpCloseShutdownFin p
      unfold tcpShutdownTx
      split
      · exact ⟨hfin.1, hfin.2, hin, stays_tcpCloseShutdownFin htaken⟩
      · exact ⟨hfin.1, hfin.2, hin, stays_tcpCloseShutdownFin htaken⟩
      · exact ⟨hfin.1, hfin.2, hin, stays_tcpCloseShutdownFin htaken⟩
      · exact ⟨rfl, id, rfl, stays_of_core rfl rfl htaken⟩
    have hout := same_tcpOutput (tcpShutdownTx p)
    have hv : view (Sys.callLwip .output RawApi.output (Sys.callLwip .shutdown RawApi.shutdownTx
        ({ s with conn := { s.conn with writeFIN := true } } : State o))) =
        { view s with
          pcb := some (tcpOutput (tcpShutdownTx p)), writeFIN := true,
            queue := s.connectionsQueue ++ [] } := by
      simp [Sys.callLwip, view, living, hp]
      rfl
    dsimp only
    rw [hv]
    refine .worked hp (hout.2.trans hplace.2.2.1) ((list_of_core hout.1).trans hplace.1)
      (fun hs => hplace.2.1 ((state_of_core hout.1) ▸ hs)) (by simp) ?_ (living_of_alive he hal)
        (by simp)
    exact hplace.2.2.2.trans (stays_of_core hout.1 (side_tcpOutput _) fun hs => htaken
      (hplace.2.1 hs))

lemma flow_gracefulClose (hw : Wf s) (he : s.connExists = true) :
    AppFlow s (.api .gracefulClose) (view (gracefulClose s)) := by
  unfold gracefulClose
  split_ifs with hal hp
  · exact .idle
  · simp only [hw.coherent.pcb_eq] at hp
    exact absurd hp hal
  · have ha := hw.coherent.toAttached he (by simpa using hal)
    have hlv : living s = true := living_of_alive he ha.alive
    -- `tcp_close` is called on a connection that has not ended yet
    have hstate : ∀ (r : Reason) (q : Option (Pcb o)),
        view ({ closeConn r (closingState s) with pcb := q } : State o) = { (view s).ended r with
          pcb := q } := by
      intro r q
      have hlc : living (closingState s) = true := hlv
      have hv : view (closeConn r (closingState s)) = (view (closingState s)).ended r :=
        view_closeConn r hlc
      have hcl : (view (closingState s)).ended r = (view s).ended r := by
        have h1 : (view (closingState s)).living = true := hlc
        have h2 : (view s).living = true := hlv
        simp only [View.ended, h1, h2, if_true]
        simp [view, closingState, Sys.callLwip, living]
        rfl
      rw [← hcl, ← hv]
      rfl
    rcases tryGracefulCloseLocked_stack hw ha with ⟨p, hp, hu, heq⟩ | ⟨p, hp, hpl, hu, heq⟩
    · rw [heq]
      have hv := hstate .destroyed none
      have hfreed : view (lwipFreed (closeConn .destroyed (closingState s))) =
          view ({ closeConn .destroyed (closingState s) with pcb := none } : State o) := rfl
      rw [hfreed, hv]
      exact .discarded hp hu
    · rw [heq]
      have hv := hstate .close (some (tcpCloseShutdownFin { p with rxClosed := true }))
      have hclosed : view (closeConn .close ({ closingState s with
            pcb := some (tcpCloseShutdownFin { p with rxClosed := true }) } : State o)) =
          view ({ closeConn .close (closingState s) with
            pcb := some (tcpCloseShutdownFin { p with rxClosed := true }) } : State o) := rfl
      rw [hclosed, hv]
      have hplace := place_tcpCloseShutdownFin ({ p with rxClosed := true } : Pcb o)
      have hstays := stays_tcpCloseShutdownFin
        (show ({ p with rxClosed := true } : Pcb o).state ≠ .synRcvd from hpl.live.2.2.2)
      exact .closed hp hu (inbox_tcpCloseShutdownFin _) hplace.1
        (fun hs => hpl.live.2.2.2 (hplace.2 hs))
        ⟨hstays.side, hstays.listener, hstays.fresh⟩

lemma flow_apiCall (hw : Wf s) (he : s.connExists = true) (c : ApiCall) :
    AppFlow s (.api c) (view (apiCall s c)) := by
  cases c with
  | markActive => exact flow_markActive hw he
  | setInboundDeliveryEnabled b => exact .enabled
  | acknowledgeDeliveredBytes n => exact flow_acknowledge hw he n
  | writeBytes bytes => exact flow_writeBytes hw he bytes id
  | writeData data =>
    simp only [apiCall, writeData]
    split_ifs
    · exact .idle
    · exact flow_writeBytes hw he data id
  | shutdownWrite => exact flow_shutdownWrite hw he
  | gracefulClose => exact flow_gracefulClose hw he
  | abort => exact flow_abort hw he rfl

lemma blockOutcome_called {b : CBlock} (hb : needsAlive b = true) :
    blockOutcome b s = .called ↔ living s = true := by
  have hne : b ≠ .accepted := by
    rintro rfl
    simp [needsAlive] at hb
  unfold blockOutcome
  simp only [hne, hb, living, if_false, Bool.true_and]
  cases s.connExists <;> cases s.conn.alive <;> simp

/-- Every event on the application's side comes to one of a few things. -/
theorem flow_appStep (hw : Wf s) (a : AppEvent) : AppFlow s a (view (appStep s a)) := by
  cases a with
  | api c =>
    simp only [appStep]
    split_ifs with hh
    · simp only [held, Bool.and_eq_true] at hh
      exact flow_apiCall hw hh.1 c
    · exact .idle
  | setHandlers handlers =>
    simp only [appStep]
    split_ifs
    · exact .handlers
    · exact .idle
  | runConnectionsBlock =>
    simp only [appStep]
    cases hq : s.connectionsQueue with
    | nil =>
      have heq : runConnectionsBlock s = s := by simp [runConnectionsBlock, hq]
      rw [heq]
      exact .idle
    | cons b rest =>
      rw [runConnectionsBlock_eq hq]
      exact .ran hq blockOutcome_called
  | runPacketsBlock =>
    simp only [appStep, runPacketsBlock]
    cases hq : s.packetsQueue with
    | nil => exact .idle
    | cons b rest =>
      dsimp only
      cases b with
      | release p => exact .idle
      | decision accept =>
        have he : s.connExists = true := hw.coherent.retained (.inr (.inr ⟨accept, by simp [hq]⟩))
        cases accept with
        | true => exact .idle
        | false =>
          have hv : view (abortLocked .abort ({ s with packetsQueue := rest } : State o)) =
              view (abortLocked .abort s) := by
            by_cases hal : s.conn.alive = true
            · rw [view_abortLocked hw.coherent (living_of_alive he hal), view_abortLocked]
              · rfl
              · exact coherent_popped hw.coherent hq
              · exact living_of_alive he hal
            · rw [abortLocked_of_dead (by simpa using hal),
                abortLocked_of_dead (by simpa using hal)]
              rfl
          have hab := flow_abort hw he (a := .runPacketsBlock) (by simp [aborts, hq])
          rw [← hv] at hab
          exact hab
  | callCompletion p onPackets =>
    simp only [appStep, callCompletion, packetsPerformAsync]
    split_ifs
    · exact .idle
    · exact .idle
    · exact .idle
  | callAcceptHandler accept onPackets =>
    simp only [appStep, callAcceptHandler, packetsPerformAsync]
    split_ifs with hp hq
    · have he : s.connExists = true := hw.coherent.retained (.inr (.inl hp))
      cases accept with
      | true => exact .idle
      | false =>
        have hv : view (abortLocked .abort ({ s with acceptPending := false } : State o)) =
          view (abortLocked .abort s) := by
          by_cases hal : s.conn.alive = true
          · rw [view_abortLocked hw.coherent (living_of_alive he hal), view_abortLocked]
            · rfl
            · exact coherent_queues hw.coherent rfl rfl rfl rfl rfl rfl fun _ => .inr (.inl hp)
            · exact living_of_alive he hal
          · rw [abortLocked_of_dead (by simpa using hal), abortLocked_of_dead (by simpa using hal)]
            rfl
        have hab := flow_abort hw he (a := .callAcceptHandler false onPackets)
          (by simp [aborts, hp, hq])
        rw [← hv] at hab
        exact hab
    · exact .idle
    · exact .idle
  | release =>
    simp only [appStep]
    rcases releaseConnection_cases s with heq | ⟨-, -, heq⟩
    · rw [heq]
      exact .idle
    · rw [heq]
      exact .released
  | env env => exact .env

end TunForge.InflowCalls
