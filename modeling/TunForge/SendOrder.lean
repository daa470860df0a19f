import TunForge.SendQueue
import TunForge.InflowRuns

/-! The send queue over whole runs: as long as each FIN finds the queue in order, no event
brings anything behind one. -/
namespace TunForge.SendOrder
open SerialNumber PbufChain LwipTypes TcpOut TcpIn Tcp Connection Callbacks Stack
open Boundary Termination OrdinarySteps BoundaryRule PcbFrames CalmSteps InputCases Refinement
  WellFormed InflowEvents
open SendQueue

variable {o : Platform} {s t : State o}

def Ordered (s : State o) : Prop := ∀ p, s.pcb = some p → FinOrder p

lemma ordered_of_none (h : t.pcb = none) : Ordered t := by
  intro p hp
  rw [h] at hp
  cases hp

lemma ordered_of_some {p : Pcb o} (hp : t.pcb = some p) (h : FinOrder p) : Ordered t := by
  intro q hq
  rw [hp] at hq
  cases hq
  exact h

lemma Ordered.of_pcb (h : Ordered s) (hp : t.pcb = s.pcb) : Ordered t := fun p ht => h p (hp ▸ ht)

lemma Ordered.map {f : Pcb o → Pcb o} (h : Ordered s) (ht : t.pcb = s.pcb.map f)
    (hf : ∀ p, Sheds p (f p)) : Ordered t := by
  intro q hq
  rw [ht] at hq
  obtain ⟨p, hp, rfl⟩ := Option.map_eq_some_iff.1 hq
  exact (h p hp).shed (hf p)

lemma Ordered.credited (h : Ordered s) (hc : Credited s t) : Ordered t := by
  obtain ⟨ns, hn⟩ := hc
  exact h.map hn (sheds_foldl_recved ns)

/-! ### What a segment leads to -/

lemma eventClosed_pcb (hs : s.hooks.recv ≠ .recvNull) : (eventClosed s).pcb = s.pcb := by
  have hnote := noteCall_pcb .recv s.hooks.arg s
  unfold eventClosed
  split
  · unfold tfTcpRecv
    dsimp only
    split_ifs with hg hok
    · exact hnote
    · exact absurd rfl hok
    · unfold handlePeerFINLocked
      split_ifs <;> exact hnote
  · rfl
  · next hr => exact absurd hr hs

lemma ordered_setRefused (h : Ordered s) (r : Option Refused) : Ordered (modPcb (setRefused r) s) :=
  h.map rfl fun _ => sheds_of_tx rfl id

lemma ordered_deliverFin (h : Ordered s) (hs : s.hooks.recv ≠ .recvNull) :
    Ordered (deliverFin s) := by
  have hfix : Ordered (modPcb correctFin s) := by
    refine h.map rfl fun p => ?_
    unfold correctFin
    split_ifs
    · exact sheds_of_tx rfl id
    · exact .refl p
  exact hfix.of_pcb (eventClosed_pcb hs)

lemma ordered_refusedLoop (fuel : ℕ) (h : Ordered s) (hs : s.hooks.recv ≠ .recvNull) :
    Ordered (refusedLoop fuel s) := by
  induction fuel generalizing s with
  | zero => exact h
  | succ fuel ih =>
    unfold refusedLoop
    split
    · exact h
    · next r hr =>
      dsimp only
      have hset := ordered_setRefused h ((offerSplit o r.p).2.map fun q => ⟨q, r.fin⟩)
      have hooks : (modPcb (setRefused ((offerSplit o r.p).2.map fun q => ⟨q, r.fin⟩)) s).hooks =
          s.hooks := rfl
      generalize modPcb (setRefused ((offerSplit o r.p).2.map fun q => ⟨q, r.fin⟩)) s =
        s₁ at hset hooks
      have hrecv := hset.credited (credited_eventRecv (offerSplit o r.p).1 s₁)
      have hkeep := (steady_eventRecv (s := s₁) (offerSplit o r.p).1).hooks
      generalize eventRecv (offerSplit o r.p).1 s₁ = res at hrecv hkeep
      obtain ⟨u, err⟩ := res
      have hu : u.hooks.recv ≠ .recvNull := by
        have heq : u.hooks = s.hooks := hkeep.trans hooks
        rwa [heq]
      cases err with
      | ok =>
        dsimp only
        split_ifs
        · have hkept : (deliverFin u).hooks = u.hooks :=
            (steady_eventClosed (s := modPcb correctFin u) hu).hooks
          exact ih (ordered_deliverFin hrecv hu) (by rwa [hkept])
        · exact ih hrecv hu
      | abrt => exact hrecv
      | _ => exact ordered_setRefused hrecv _

lemma ordered_tcpProcessRefusedData (h : Ordered s) (hs : s.hooks.recv ≠ .recvNull) :
    Ordered (tcpProcessRefusedData s) := by
  unfold tcpProcessRefusedData
  split
  · exact h
  · exact ordered_refusedLoop _ h hs

lemma ordered_sentLoop (fuel acked : ℕ) (h : Ordered s) : Ordered (sentLoop fuel acked s) := by
  induction fuel generalizing acked s with
  | zero => exact h
  | succ fuel ih =>
    unfold sentLoop
    split_ifs
    · exact h
    · exact ih _ (h.of_pcb (eventSent_pcb _))
    · exact h.of_pcb (eventSent_pcb _)

lemma ordered_tcpAbandon (gap : Bool) (h : Ordered s) : Ordered (tcpAbandon gap s) := by
  cases hp : s.pcb with
  | none =>
    simp only [tcpAbandon, hp]
    exact h
  | some p => exact ordered_of_none (tcpAbandon_pcb (by simp [hp]))

lemma ordered_offerData (fuel : ℕ) (c : Pbuf) (h : Ordered s) : Ordered (offerData fuel c s) := by
  induction fuel generalizing c s with
  | zero => exact h
  | succ fuel ih =>
    unfold offerData
    split
    · exact h
    · split_ifs
      · exact ordered_tcpAbandon _ h
      · have hrecv := h.credited (credited_eventRecv (offerSplit o c).1 s)
        dsimp only
        generalize eventRecv (offerSplit o c).1 s = res at hrecv
        obtain ⟨u, err⟩ := res
        cases err with
        | ok =>
          dsimp only
          split
          · exact hrecv
          · exact ih _ hrecv
        | abrt => exact hrecv
        | _ => exact ordered_setRefused hrecv _

lemma ordered_handleFin (h : Ordered s) (hs : s.hooks.recv ≠ .recvNull) :
    Ordered (handleFin s) := by
  unfold handleFin
  split
  · exact ordered_setRefused h _
  · exact ordered_deliverFin h hs

lemma ordered_finishInput (h : Ordered s) : Ordered (finishInput s) := by
  have hopen : Ordered (modPcb (fun pcb => { pcb with inputPcb := false }) s) :=
    h.map rfl fun _ => sheds_of_tx rfl id
  unfold finishInput
  dsimp only
  split_ifs
  · exact ordered_of_none rfl
  · exact hopen.map rfl sheds_tcpOutput

lemma ordered_inputTail {r : Processed o} (h : FinOrder r.pcb) (hs : s.hooks.recv ≠ .recvNull) :
    Ordered (inputTail r s) := by
  cases hreset : r.reset with
  | true =>
    unfold inputTail
    rw [hreset]
    exact ordered_of_none rfl
  | false =>
    rw [inputTail_eq hreset]
    have hu : Taken ({ s with pcb := some r.pcb } : State o) := ⟨rfl, hs⟩
    have hsent := ordered_sentLoop r.recvAcked r.recvAcked
      (ordered_of_some (t := { s with pcb := some r.pcb }) rfl h)
    have htaken := ((calm_sentLoop r.recvAcked r.recvAcked hu).steady hu).taken hu
    generalize sentLoop r.recvAcked r.recvAcked ({ s with pcb := some r.pcb } : State o) =
      v at hsent htaken
    dsimp only
    split_ifs with hclose hfin
    · exact ordered_of_none rfl
    all_goals
      have hoff : Ordered (offered r.recvData v) := by
        unfold offered
        split
        · exact hsent
        · exact ordered_offerData _ _ hsent
    · refine ordered_finishInput (ordered_handleFin hoff ?_)
      obtain ⟨p, hp⟩ := Option.isSome_iff_exists.1 htaken.isSome
      rcases offered_cases r.recvData htaken hp with hcalm | ⟨-, -, heq⟩
      · exact ((hcalm.steady htaken).taken htaken).recv
      · rw [heq, tcpAbandon_pcb htaken.isSome] at hfin
        simp at hfin
    · exact ordered_finishInput hoff

lemma sheds_atInput (p : Pcb o) : Sheds p (atInput p) := sheds_of_tx rfl id

lemma sheds_atAccept {p : Pcb o} (hs : p.state = .synRcvd) (seg : Segment) :
    Sheds p (tcpBacklogDelayed (atAccept p seg)) := by
  have hnote := (sheds_atInput p).trans (sheds_noteActivity (atInput p) seg)
  refine ⟨fun a ha => hnote.mem a ?_, fun h => by simp [hs, closeTarget] at h⟩
  unfold tcpBacklogDelayed at ha
  split_ifs at ha <;> exact ha

lemma ordered_acceptAndProcess (hw : Wf s) {p : Pcb o} (seg : Segment) (hp : s.pcb = some p)
    (hs : p.state = .synRcvd) (h : FinOrder p) :
    Ordered (acceptAndProcess (noteActivity (atInput p) seg) seg s) := by
  have hhooks : s.hooks = openedHooks := (hw.pcb p hp).fresh.2 hs
  rcases acceptAndProcess_cases hw seg hp hs with ⟨-, heq⟩ | ⟨-, henv, heq⟩ | ⟨-, -, -, heq⟩
  · rw [heq]
    exact ordered_of_none rfl
  · rw [heq]
    rcases tunforgeAccept_cases (s := { s with pcb := some (atAccept p seg) }) hhooks rfl with
      ⟨-, hacc⟩ | ⟨-, -, cs, -, hacc⟩ | ⟨hst, hdel, -⟩
    · rw [hacc]
      exact ordered_of_none rfl
    · rw [hacc]
      exact ordered_of_none rfl
    · have hboth : s.env.stack = true ∧ s.env.delegate = true := ⟨hst, hdel⟩
      simp [hboth] at henv
  · rw [heq]
    have hest : (tcpBacklogDelayed (atAccept p seg)).state = .established := by
      unfold tcpBacklogDelayed
      split_ifs <;> rfl
    refine ordered_inputTail (h.shed
      ((sheds_atAccept hs seg).trans (sheds_processEstablished hest seg))) ?_
    simp [madeConnection, initWithTCPPcb, setupPcb, Sys.post, attachedHooks]

lemma ordered_tcpInput (hw : Wf s) (h : Ordered s) (seg : Segment) : Ordered (tcpInput seg s) := by
  cases hp : s.pcb with
  | none =>
    simp only [tcpInput, hp]
    exact h
  | some p =>
    have hp' := h p hp
    by_cases hsyn : p.state = .synRcvd
    · rcases tcpInput_fresh hw seg hp hsyn with ⟨-, -, heq⟩ | ⟨q, heq⟩ | ⟨q, w, hq, -, -, -, heq⟩
      · rw [heq]
        exact ordered_acceptAndProcess hw seg hp hsyn hp'
      · rw [heq]
        exact ordered_of_none rfl
      · rw [heq]
        have hproc := sheds_tcpProcess (atInput p) seg
        rw [hq] at hproc
        exact ordered_of_some rfl
          (hp'.shed (((sheds_atInput p).trans hproc).trans ((sheds_tcpOutput _).of_tx rfl id)))
    · rcases (hw.pcb p hp).listed with ⟨hl, -⟩ | ⟨hl, -⟩
      · have htaken := hw.taken hp hsyn
        have href := ordered_tcpProcessRefusedData h htaken.recv
        have hooks := ((calm_tcpProcessRefusedData htaken.recv).steady htaken).hooks
        obtain ⟨q, hq, -, ⟨-, -, heq⟩ | ⟨-, heq⟩⟩ := tcpInput_taken hw seg hp hl hsyn
        · rw [heq]
          refine href.map rfl fun r => ?_
          split_ifs
          · exact sheds_of_tx (tx_tcpSendEmptyAck r) fun hr =>
              (state_of_core (same_tcpSendEmptyAck r).1) ▸ hr
          · exact .refl r
        · rw [heq]
          refine ordered_inputTail ?_ (by rw [hooks]; exact htaken.recv)
          exact (href q hq).shed ((sheds_atInput q).trans (sheds_tcpProcess _ seg))
      · rw [tcpInput_timeWait seg hp hl]
        exact h.map rfl fun r => sheds_tcpTimewaitInput r seg

/-! ### The events that queue a FIN -/

/-- A pcb after the delayed acknowledgement of `tcp_fasttmr`. -/
def delayedAckSent (p : Pcb o) : Pcb o :=
  if p.ackDelay then { tcpOutput (tcpAckNow p) with ackDelay := false, ackNow := false } else p

lemma fasttmrSend_eq (p : Pcb o) : fasttmrSend p = sendPendingFin (delayedAckSent p) := rfl

/-- The pcb on which an event calls `tcp_close_shutdown_fin`. -/
def finBearer (p : Pcb o) : Event → Option (Pcb o)
  | .app (.api .shutdownWrite) | .app (.api .gracefulClose) => some p
  | .handleClosepend => if p.closePend then some p else none
  | .fasttmr => if p.closePend then some (delayedAckSent p) else none
  | _ => none

/-- The FIN that an event may queue goes behind all there is. -/
def Timely (s : State o) (e : Event) : Prop := ∀ p ∈ s.pcb, ∀ q ∈ finBearer p e, FinFits q

instance (s : State o) (e : Event) : Decidable (Timely s e) :=
  inferInstanceAs (Decidable (∀ p ∈ _, ∀ q ∈ _, _))

/-- The persist timer cuts nothing off that would lie behind a FIN. -/
def Unsplit (s : State o) : Event → Prop
  | .persist _ => ∀ p ∈ s.pcb, p.list = .active → CutFits p
  | _ => True

instance (s : State o) : (e : Event) → Decidable (Unsplit s e)
  | .persist _ => inferInstanceAs (Decidable (∀ p ∈ s.pcb, p.list = .active → CutFits p))
  | .segment _ | .fasttmr | .slowtmr | .rexmitRto | .handleClosepend | .killTimewait | .killState
  | .netifIpAddrChanged | .listenerClosed | .app _ | .env _ => inferInstanceAs (Decidable True)

lemma finOrder_tcpCloseShutdownFin {p : Pcb o} (h : FinOrder p) (ht : FinFits p) :
    FinOrder (tcpCloseShutdownFin p) :=
  (tcpCloseShutdownFin_spec h ht).2.1

lemma finOrder_sendPendingFin {p : Pcb o} (h : FinOrder p) (ht : p.closePend = true → FinFits p) :
    FinOrder (sendPendingFin p) := by
  unfold sendPendingFin
  split_ifs with hc
  · exact finOrder_tcpCloseShutdownFin ⟨h.past, h.trails⟩ (ht hc)
  · exact h

lemma sheds_delayedAckSent (p : Pcb o) : Sheds p (delayedAckSent p) := by
  unfold delayedAckSent
  split_ifs
  · have hout : Sheds p (tcpOutput (tcpAckNow p)) := (sheds_tcpOutput _).of_tx rfl id
    exact ⟨hout.mem, hout.past⟩
  · exact .refl p

lemma closePend_delayedAckSent (p : Pcb o) : (delayedAckSent p).closePend = p.closePend := by
  unfold delayedAckSent
  split_ifs
  · exact closePend_of_core (same_tcpOutput (tcpAckNow p)).1
  · rfl

lemma ordered_tcpFasttmr (hw : Wf s) (h : Ordered s) (ht : Timely s .fasttmr) :
    Ordered (tcpFasttmr s) := by
  unfold tcpFasttmr
  split
  · exact h
  · next p hp =>
    split_ifs with hl
    · have hw' := StackRuns.wf_fasttmrSend hw
      have hq : (modPcb fasttmrSend s).pcb = some (fasttmrSend p) := by simp [modPcb, hp]
      have hsent : Ordered (modPcb fasttmrSend s) := by
        refine ordered_of_some hq ?_
        rw [fasttmrSend_eq]
        refine finOrder_sendPendingFin ((h p hp).shed (sheds_delayedAckSent p)) fun hc =>
          ht p hp _ ?_
        have hpend : p.closePend = true := (closePend_delayedAckSent p).symm.trans hc
        simp [finBearer, hpend]
      by_cases hs : (fasttmrSend p).state = .synRcvd
      · have href : refused (modPcb fasttmrSend s) = none := by
          simp [Stack.refused, hq, ((hw'.pcb _ hq).unread hs).2.1]
        unfold tcpProcessRefusedData
        rw [href]
        exact hsent
      · exact ordered_tcpProcessRefusedData hsent (hw'.taken hq hs).recv
    · exact h

/-! ### Timers and method calls -/

lemma ordered_terminateLocked (r : Reason) (h : Ordered s) : Ordered (terminateLocked r s) := by
  refine h.of_pcb ?_
  unfold terminateLocked clearCallbackLocked
  dsimp only
  split_ifs <;> simp [Sys.postIf, Sys.callLwip]

lemma ordered_abortLocked (r : Reason) (h : Ordered s) : Ordered (abortLocked r s) := by
  unfold abortLocked
  dsimp only
  split_ifs
  · exact h
  · refine ordered_terminateLocked r (ordered_tcpAbandon false (h.of_pcb ?_))
    unfold clearCallbackLocked
    split_ifs <;> simp [Sys.callLwip]
  · exact ordered_terminateLocked r (h.of_pcb rfl)

lemma ordered_eventPoll (h : Ordered s) (hi : s.conn.pendingClose = false) :
    Ordered (eventPoll s) := by
  have hnote := h.of_pcb (noteCall_pcb .poll s.hooks.arg s)
  unfold eventPoll tfTcpPoll
  dsimp only
  rw [updateWritableLocked_pendingClose, noteCall_conn, hi, if_neg Bool.false_ne_true]
  split_ifs
  · exact hnote
  · exact ordered_abortLocked _ hnote
  · exact hnote.of_pcb (updateWritableLocked_pcb _ _)
  · exact h

lemma ordered_pollPcb {p : Pcb o} (h : FinOrder p) (hi : s.conn.pendingClose = false) :
    Ordered (pollPcb p s) := by
  have hset : ∀ n, Ordered ({ s with pcb := some { p with polltmr := n } } : State o) :=
    fun n => ordered_of_some rfl (h.shed (sheds_of_tx rfl id))
  simp only [pollPcb]
  split_ifs
  · refine (ordered_eventPoll (hset 0) hi).map rfl fun q => ?_
    split_ifs
    · exact sheds_tcpOutput q
    · exact .refl q
  · exact hset _

lemma ordered_tcpSlowtmr (h : Ordered s) (hi : s.conn.pendingClose = false) :
    Ordered (tcpSlowtmr s) := by
  have htick : Ordered (modPcb tick s) := h.map rfl fun _ => sheds_of_tx rfl id
  have hmod : modPcb (fun pcb : Pcb o => { pcb with ticks := pcb.ticks + 1 }) s = modPcb tick s :=
    rfl
  simp only [tcpSlowtmr, hmod]
  split
  · exact htick
  · next p hp =>
    split
    · split_ifs
      · exact ordered_of_none (freeThenErr_pcb _ _)
      · exact ordered_pollPcb ((htick p hp).shed (sheds_dropStaleOoseq p)) hi
    · split_ifs
      · exact ordered_of_none rfl
      · exact htick
    · exact htick

lemma ordered_onActive {f : Pcb o → Pcb o} (h : Ordered s)
    (hf : ∀ p, s.pcb = some p → p.list = .active → FinOrder p → FinOrder (f p)) :
    Ordered (onActive f s) := by
  intro q hq
  obtain ⟨p, hp, rfl⟩ := Option.map_eq_some_iff.1 hq
  split_ifs with hl
  · exact hf p hp hl (h p hp)
  · exact h p hp

lemma ordered_writeBytes (hw : Wf s) (h : Ordered s) (bytes : Bytes) :
    Ordered (writeBytes bytes s).1 := by
  unfold writeBytes
  split_ifs
  · exact h
  · exact h
  · exact h
  · cases hp : s.pcb with
    | none => exact h
    | some p =>
      have hwrite : FinOrder (tcpWrite p bytes).1 :=
        finOrder_tcpWrite (h p hp) (hw.pcb p hp).live.2.2 bytes
      have hrw : (RawApi.write p bytes : Pcb o × Err) = tcpWrite p bytes := rfl
      rw [Option.map_some, hrw]
      generalize tcpWrite p bytes = res at hwrite
      obtain ⟨q, err⟩ := res
      have hcall : Ordered (s.callLwip (.write bytes.length) fun _ => q) :=
        ordered_of_some (by simp [Sys.callLwip, hp]) hwrite
      cases err with
      | ok =>
        dsimp only
        refine Ordered.of_pcb (s := (s.callLwip (.write bytes.length) fun _ => q).callLwip .output
          RawApi.output) ?_ (updateWritableLocked_pcb _ _)
        exact hcall.map rfl sheds_tcpOutput
      | mem => exact hcall.of_pcb (updateWritableLocked_pcb _ _)
      | _ => exact ordered_abortLocked _ hcall

lemma ordered_shutdownWrite (h : Ordered s) (ht : Timely s (.app (.api .shutdownWrite))) :
    Ordered (shutdownWrite s) := by
  unfold shutdownWrite
  split_ifs
  · exact h
  · exact h
  · exact h
  · intro q hq
    simp only [Sys.callLwip, Option.map_map] at hq
    obtain ⟨p, hp, rfl⟩ := Option.map_eq_some_iff.1 hq
    have hfit : FinFits p := ht p hp p rfl
    have hshut : FinOrder (tcpShutdownTx p) := by
      have hfin := finOrder_tcpCloseShutdownFin (h p hp) hfit
      unfold tcpShutdownTx
      split
      · exact hfin
      · exact hfin
      · exact hfin
      · exact h p hp
    exact hshut.shed (sheds_tcpOutput _)

lemma ordered_gracefulClose (hw : Wf s) (he : s.connExists = true) (h : Ordered s)
    (ht : Timely s (.app (.api .gracefulClose))) : Ordered (gracefulClose s) := by
  unfold gracefulClose
  split_ifs with hal hp
  · exact h
  · exact ordered_terminateLocked _ h
  · rcases tryGracefulCloseLocked_stack hw (hw.coherent.toAttached he (by simpa using hal)) with
      ⟨p, -, -, heq⟩ | ⟨p, hpcb, -, -, heq⟩
    · rw [heq]
      exact ordered_of_none rfl
    · rw [heq]
      have hfit : FinFits ({ p with rxClosed := true } : Pcb o) := ht p hpcb p rfl
      exact ordered_of_some rfl
        (finOrder_tcpCloseShutdownFin ⟨(h p hpcb).past, (h p hpcb).trails⟩ hfit)

lemma ordered_apiCall (hw : Wf s) (he : s.connExists = true) (h : Ordered s) (c : ApiCall)
    (ht : Timely s (.app (.api c))) :
    Ordered (apiCall s c) := by
  cases c with
  | markActive =>
    unfold apiCall markActive notifyActiveOnceLocked
    dsimp only
    split_ifs
    · exact h
    · exact h
    · exact h.map rfl fun _ => sheds_of_tx rfl id
    · exact h.map rfl fun _ => sheds_of_tx rfl id
  | setInboundDeliveryEnabled b => exact h
  | acknowledgeDeliveredBytes n => exact h.credited (credited_acknowledge n s)
  | writeBytes bytes => exact ordered_writeBytes hw h bytes
  | writeData data =>
    unfold apiCall writeData
    dsimp only
    split_ifs
    · exact h
    · exact ordered_writeBytes hw h data
  | shutdownWrite => exact ordered_shutdownWrite h ht
  | gracefulClose => exact ordered_gracefulClose hw he h ht
  | abort => exact ordered_abortLocked _ h

lemma ordered_performPackets (b : PBlock) (h : Ordered s) : Ordered (performPackets b s) := by
  cases b with
  | release p => exact h
  | decision accept =>
    cases accept with
    | true => exact h
    | false => exact ordered_abortLocked .abort h

lemma ordered_packetsPerformAsync (onPackets : Bool) (b : PBlock) (h : Ordered s) :
    Ordered (packetsPerformAsync onPackets b s) := by
  unfold packetsPerformAsync
  split_ifs
  · exact ordered_performPackets b h
  · exact h

lemma ordered_appStep (hw : Wf s) (h : Ordered s) (a : AppEvent) (ht : Timely s (.app a)) :
    Ordered (appStep s a) := by
  cases a with
  | api c =>
    simp only [appStep]
    split_ifs with hh
    · simp only [held, Bool.and_eq_true] at hh
      exact ordered_apiCall hw hh.1 h c ht
    · exact h
  | setHandlers handlers =>
    simp only [appStep]
    split_ifs <;> exact h
  | runConnectionsBlock =>
    cases hq : s.connectionsQueue with
    | nil =>
      have heq : runConnectionsBlock s = s := by simp [runConnectionsBlock, hq]
      simp only [appStep, heq]
      exact h
    | cons b rest =>
      simp only [appStep, runConnectionsBlock_eq hq]
      exact h
  | runPacketsBlock =>
    simp only [appStep, runPacketsBlock]
    split
    · exact h
    · exact ordered_performPackets _ h
  | callCompletion p onPackets =>
    simp only [appStep, callCompletion]
    split_ifs
    · exact ordered_packetsPerformAsync _ _ h
    · exact h
  | callAcceptHandler accept onPackets =>
    simp only [appStep, callAcceptHandler]
    split_ifs
    · exact ordered_packetsPerformAsync _ _ h
    · exact h
  | release =>
    simp only [appStep]
    rcases releaseConnection_cases s with heq | ⟨-, -, heq⟩ <;> rw [heq] <;> exact h
  | env env => exact h

/-- No event brings anything behind a FIN, if the FIN it may queue itself finds the queue in order
and the persist timer cuts nothing off behind one. -/
theorem ordered_step {e : Event} (hs : Sound s) (h : Ordered s) (ht : Timely s e)
    (hu : Unsplit s e) : Ordered (step s e) := by
  cases e with
  | segment seg => exact ordered_tcpInput hs.wf h seg
  | fasttmr => exact ordered_tcpFasttmr hs.wf h ht
  | slowtmr => exact ordered_tcpSlowtmr h hs.idle
  | rexmitRto =>
    refine ordered_onActive h fun p _ _ hp => hp.shed ?_
    exact (sheds_tcpRexmitRtoPrepare p).trans (sheds_tcpOutput _)
  | persist keep =>
    exact ordered_onActive h fun p hpcb hl hp => finOrder_persistFire keep hp (hu p hpcb hl)
  | handleClosepend =>
    refine ordered_onActive h fun p hpcb _ hp => finOrder_sendPendingFin hp fun hc => ht p hpcb p ?_
    simp [finBearer, hc]
  | killTimewait =>
    simp only [step, Stack.killTimewait]
    split_ifs
    · exact ordered_tcpAbandon _ h
    · exact h
  | killState =>
    simp only [step, Stack.killState]
    split_ifs
    · exact ordered_tcpAbandon _ h
    · exact h
  | netifIpAddrChanged =>
    simp only [step, Stack.netifIpAddrChanged]
    split_ifs
    · exact ordered_tcpAbandon _ h
    · exact h
  | listenerClosed => exact h.map rfl fun _ => sheds_of_tx rfl id
  | app a => exact ordered_appStep hs.wf h a ht
  | env env => exact h.map rfl fun _ => sheds_of_tx rfl id

lemma ordered_initial (h : Initial s) : Ordered s := by
  obtain ⟨syn, iss, env, ticks, tf, pcb, hpcb, -, rfl⟩ := h
  have hempty : outbound (newPcb o syn iss env ticks).tx = [] := outbound_tcpParseopt _ syn
  -- the SYN|ACK is all that is queued
  have hsyn : ∀ a ∈ outbound (tcpEnqueueFlags (newPcb o syn iss env ticks) true false).1.tx,
      a.fin = false := by
    obtain ⟨hun, hus⟩ := List.append_eq_nil_iff.1 hempty
    unfold tcpEnqueueFlags
    split_ifs <;> simp [outbound, hun, hus]
  refine ordered_of_some rfl ?_
  revert hpcb
  unfold tcpListenInput
  split
  · next p hp =>
    rw [hp] at hsyn
    rintro ⟨⟩
    have hnone : ∀ a ∈ outbound p.tx, ¬ a.fin = true := fun a ha => by simp [hsyn a ha]
    have hp' : FinOrder p := ⟨fun a ha hf => absurd hf (hnone a ha),
      fun a ha hf => absurd hf (hnone a ha)⟩
    exact hp'.shed (sheds_tcpOutput p)
  · rintro ⟨⟩

end TunForge.SendOrder
