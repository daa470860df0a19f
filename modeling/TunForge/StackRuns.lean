import TunForge.WellFormed

/-! Runs of the running stack: every event keeps it well formed, so the results about
the boundary machine hold of it. -/
namespace TunForge.StackRuns
open SerialNumber PbufChain LwipTypes TcpOut TcpIn Tcp Connection Callbacks Stack
open Boundary Termination OrdinarySteps BoundaryRule Lifecycle PcbFrames CalmSteps InputCases
  Refinement WellFormed

variable {o : Platform} {s t : State o}

lemma placed_tcpShutdownTx {pcb : Pcb o} (h : Placed pcb) :
    Placed (tcpShutdownTx pcb) ∧ (tcpShutdownTx pcb).rxClosed = pcb.rxClosed := by
  have hfin : Placed (tcpCloseShutdownFin pcb) ∧
      (tcpCloseShutdownFin pcb).rxClosed = pcb.rxClosed := by
    refine ⟨h.shutdown, ?_⟩
    rcases core_tcpCloseShutdownFin pcb with ⟨b, hc⟩ | ⟨st, -, hc⟩
    · exact congrArg Core.rxClosed hc
    · exact congrArg Core.rxClosed hc
  unfold tcpShutdownTx
  split
  · exact hfin
  · exact hfin
  · exact hfin
  · exact ⟨h, rfl⟩

lemma wf_shutdownWrite (h : Wf s) (he : s.connExists = true) : Wf (shutdownWrite s) := by
  by_cases hg : (!s.conn.alive || !s.conn.pcb) = true ∨ s.conn.state = .closed ∨
    s.conn.writeFIN = true
  · have heq : shutdownWrite s = s := by
      unfold shutdownWrite
      split_ifs with h1 h2 h3
      · rfl
      · rfl
      · rfl
      · rcases hg with hg | hg | hg
        · exact absurd hg h1
        · exact absurd hg h2
        · exact absurd hg h3
    rw [heq]
    exact h
  · simp only [not_or] at hg
    have hal : s.conn.alive = true := by
      have := hg.1
      simp only [Bool.or_eq_true, not_or] at this
      simpa using this.1
    have ha := h.coherent.toAttached he hal
    refine wf_of_ordinary h ha (ordinary_shutdownWrite (k := .hints)) fun p hp hpl => ?_
    have hsh := placed_tcpShutdownTx hpl
    refine ⟨tcpOutput (tcpShutdownTx p), ?_, hsh.1.of_core (same_tcpOutput _).1,
      (rxClosed_of_core (same_tcpOutput _).1).trans hsh.2⟩
    unfold shutdownWrite
    rw [if_neg hg.1, if_neg hg.2.1, if_neg hg.2.2]
    simp only [Sys.callLwip, hp, Option.map_some]
    rfl

lemma wf_acknowledge (h : Wf s) (n : ℕ) : Wf (acknowledgeDeliveredBytes n s) := by
  have ho : Ordinary .hints s (acknowledgeDeliveredBytes n s) := ordinary_acknowledge n
  have hcore := core_of_credited (credited_acknowledge n s)
  have hc := coherent_ordinary h.coherent ho
  cases hp : s.pcb with
  | none =>
    refine wf_of_none hc ?_
    simpa [hp] using hcore
  | some p =>
    by_cases hs : p.state = .synRcvd
    · -- a pcb nobody has taken has no connection that could acknowledge anything
      have hf : s.hooks = openedHooks := (h.pcb p hp).fresh.2 hs
      have hdead := (h.coherent.fresh hf).2.1
      have heq : acknowledgeDeliveredBytes n s = s := by simp [acknowledgeDeliveredBytes, hdead]
      rw [heq]
      exact h
    · exact wf_of_steady h (steady_of_ordinary ho hcore) hc hp hs

lemma wf_markActive (h : Wf s) (he : s.connExists = true) (hc : Coherent (markActive s)) :
    Wf (markActive s) := by
  by_cases hg : (!s.conn.alive || !s.conn.pcb) = true ∨ s.conn.state ≠ .new
  · have heq : markActive s = s := by
      unfold markActive
      split_ifs with ha hn
      · rfl
      · rfl
      · exact absurd (hg.resolve_left ha) hn
    rw [heq]
    exact h
  · simp only [not_or, Bool.not_eq_true, Bool.or_eq_false_iff, Bool.not_eq_false', ne_eq,
      not_not] at hg
    have ha := h.coherent.toAttached he hg.1.1
    obtain ⟨p, hp, hpl⟩ := placed_of_attached h ha
    rw [markActive_eq ha hg.2] at hc ⊢
    have hpcb : (notifyActiveOnceLocked (Sys.callLwip .backlogAccepted RawApi.backlogAccepted
        ({ s with conn := { s.conn with state := .active } } : State o))).pcb =
          some (tcpBacklogAccepted p) ∧
        (notifyActiveOnceLocked (Sys.callLwip .backlogAccepted RawApi.backlogAccepted
        ({ s with conn := { s.conn with state := .active } } : State o))).hooks = s.hooks := by
      unfold notifyActiveOnceLocked
      split_ifs
      · exact ⟨by simp [Sys.callLwip, hp]; rfl, rfl⟩
      · exact ⟨by simp [Sys.callLwip, Sys.postIf, hp]; rfl, rfl⟩
    refine wf_of_some hc hpcb.1 ((hpl.of_core (q := tcpBacklogAccepted p) rfl).pcbOk ?_) fun hrx =>
      ?_
    · rw [hpcb.2, ha.hooks]
      simp [attachedHooks, openedHooks]
    · have hu := h.rxClosed p hp hrx
      rcases hu with hu | hu
      · rw [ha.held] at hu
        cases hu
      · rw [ha.alive] at hu
        cases hu

lemma wf_gracefulClose (h : Wf s) (he : s.connExists = true) (hc : Coherent (gracefulClose s)) :
    Wf (gracefulClose s) := by
  revert hc
  unfold gracefulClose
  split_ifs with hal hp
  · exact fun _ => h
  · simp [h.coherent.pcb_eq] at hal hp
    simp [hp] at hal
  · exact fun hc => wf_tryGracefulCloseLocked h (h.coherent.toAttached he (by simpa using hal)) hc

lemma wf_apiCall (h : Wf s) (he : s.connExists = true) (c : ApiCall) (hc : Coherent (apiCall s c)) :
    Wf (apiCall s c) := by
  cases c with
  | markActive => exact wf_markActive h he hc
  | setInboundDeliveryEnabled b => exact wf_of_same h hc rfl rfl id
  | acknowledgeDeliveredBytes n => exact wf_acknowledge h n
  | writeBytes bytes => exact wf_writeBytes h he bytes hc
  | writeData data =>
    revert hc
    simp only [apiCall, writeData]
    split_ifs
    · exact fun _ => h
    · exact fun hc => wf_writeBytes h he data hc
  | shutdownWrite => exact wf_shutdownWrite h he
  | gracefulClose => exact wf_gracefulClose h he hc
  | abort => exact wf_abortLocked h he hc

lemma wf_decision (h : Wf s) (he : s.connExists = true) (accept : Bool)
    (hc : Coherent (performPackets (.decision accept) s)) :
    Wf (performPackets (.decision accept) s) := by
  cases accept
  · exact wf_abortLocked h he hc
  · exact h

lemma wf_appStep (h : Wf s) (e : AppEvent) : Wf (appStep s e) := by
  have hc : Coherent (appStep s e) := coherent_step h (.app e)
  revert hc
  cases e with
  | api c =>
    simp only [appStep]
    split_ifs with hh
    · simp only [held, Bool.and_eq_true] at hh
      exact fun hc => wf_apiCall h hh.1 c hc
    · exact fun _ => h
  | setHandlers handlers =>
    simp only [appStep]
    split_ifs
    · exact fun hc => wf_of_same h hc rfl rfl id
    · exact fun _ => h
  | runConnectionsBlock =>
    simp only [appStep]
    cases hq : s.connectionsQueue with
    | nil =>
      have heq : runConnectionsBlock s = s := by simp [runConnectionsBlock, hq]
      rw [heq]
      exact fun _ => h
    | cons b rest =>
      rw [runConnectionsBlock_eq hq]
      exact fun hc => wf_of_same h hc rfl rfl id
  | runPacketsBlock =>
    simp only [appStep, runPacketsBlock]
    split
    · exact fun _ => h
    · next b rest hq =>
      intro hc
      have hpop : Wf ({ s with packetsQueue := rest } : State o) :=
        wf_of_same h (coherent_popped h.coherent hq) rfl rfl id
      cases b with
      | release p => exact wf_of_same h hc rfl rfl id
      | decision accept =>
        exact wf_decision hpop (h.coherent.retained (.inr (.inr ⟨accept, by simp [hq]⟩))) accept hc
  | callCompletion p onPackets =>
    simp only [appStep, callCompletion, packetsPerformAsync]
    split_ifs
    · exact fun hc => wf_of_same h hc rfl rfl id
    · exact fun hc => wf_of_same h hc rfl rfl id
    · exact fun _ => h
  | callAcceptHandler accept onPackets =>
    simp only [appStep, callAcceptHandler, packetsPerformAsync]
    split_ifs with hp hq
    · intro hc
      have hret : Retained s := .inr (.inl hp)
      have hans : Wf ({ s with acceptPending := false } : State o) :=
        wf_of_same h (coherent_queues h.coherent rfl rfl rfl rfl rfl rfl fun _ => hret) rfl rfl id
      exact wf_decision hans (h.coherent.retained hret) accept hc
    · exact fun hc => wf_of_same h hc rfl rfl id
    · exact fun _ => h
  | release =>
    intro hc
    simp only [appStep] at hc ⊢
    rcases releaseConnection_cases s with heq | ⟨-, -, heq⟩
    · rw [heq]
      exact h
    · rw [heq] at hc ⊢
      exact wf_of_same h hc rfl rfl fun _ => .inl rfl
  | env env => exact fun hc => wf_of_same h hc rfl rfl id

/-! ### Timers and the other events of lwIP -/

lemma coherent_modPcb (h : Coherent s) (f : Pcb o → Pcb o) : Coherent (modPcb f s) :=
  coherent_ordinary h (ordinary_pcb (k := .hints) f)

lemma coherent_setPcb {p : Pcb o} (h : Coherent s) (hp : s.pcb = some p) (q : Pcb o) :
    Coherent ({ s with pcb := some q } : State o) := by
  rw [← modPcb_const hp q]
  exact coherent_modPcb h _

lemma wf_setPcb {p q : Pcb o} (h : Wf s) (hp : s.pcb = some p) (hcore : core q = core p)
    (href : q.rx.refusedData = p.rx.refusedData) : Wf ({ s with pcb := some q } : State o) := by
  refine wf_of_some (coherent_setPcb h.coherent hp q) rfl
    ((h.pcb p hp).of_core hcore href) fun hrx => ?_
  exact h.rxClosed p hp (rxClosed_of_core hcore ▸ hrx)

lemma wf_progress {f : Pcb o → Pcb o} (h : Wf s)
    (hfresh : ∀ p, p.closePend = false → core (f p) = core p ∧
      (f p).rx.refusedData = p.rx.refusedData)
    (hplaced : ∀ p, Placed p → Placed (f p) ∧ (f p).rxClosed = p.rxClosed) : Wf (modPcb f s) := by
  -- work on the pcb that leaves a fresh one alone and keeps a taken one in order
  have hc := coherent_modPcb h.coherent f
  cases hp : s.pcb with
  | none =>
    rw [modPcb_of_none hp]
    exact h
  | some p =>
    have hq : (modPcb f s).pcb = some (f p) := by simp [modPcb, hp]
    have hok := h.pcb p hp
    by_cases hs : p.state = .synRcvd
    · obtain ⟨hcore, href⟩ := hfresh p (hok.unread hs).2.2
      refine wf_of_some hc hq (hok.of_core hcore href) fun hrx => ?_
      exact h.rxClosed p hp (rxClosed_of_core hcore ▸ hrx)
    · have hne : s.hooks ≠ openedHooks := fun hf => hs (hok.fresh.1 hf)
      obtain ⟨hpl, hrx⟩ := hplaced p (placed_of_pcbOk hok hs)
      exact wf_of_some hc hq (hpl.pcbOk hne) fun hr => h.rxClosed p hp (hrx ▸ hr)

lemma placed_sendPendingFin {p : Pcb o} (h : Placed p) :
    Placed (sendPendingFin p) ∧ (sendPendingFin p).rxClosed = p.rxClosed := by
  unfold sendPendingFin
  split_ifs
  · have hp : Placed ({ p with closePend := false } : Pcb o) := ⟨h.input, h.live, h.listed⟩
    refine ⟨hp.shutdown, ?_⟩
    rcases core_tcpCloseShutdownFin ({ p with closePend := false } : Pcb o) with
      ⟨b, hc⟩ | ⟨st, -, hc⟩
    · exact congrArg Core.rxClosed hc
    · exact congrArg Core.rxClosed hc
  · exact ⟨h, rfl⟩

lemma wf_sendPendingFin (h : Wf s) : Wf (onActive sendPendingFin s) := by
  refine wf_progress h (fun p hcp => ?_) fun p hp => ?_
  · simp [sendPendingFin, hcp]
  · split_ifs
    · exact placed_sendPendingFin hp
    · exact ⟨hp, rfl⟩

lemma wf_fasttmrSend (h : Wf s) : Wf (modPcb fasttmrSend s) := by
  -- the delayed acknowledgement keeps the pcb's place
  have hack : ∀ p : Pcb o, core (if p.ackDelay then { tcpOutput (tcpAckNow p) with
      ackDelay := false, ackNow := false }
      else p) = core p := by
    intro p
    split_ifs
    · exact (same_tcpOutput (tcpAckNow p)).1
    · rfl
  refine wf_progress h (fun p hcp => ⟨?_, congrArg Inbox.refusedData (inbox_fasttmrSend p)⟩)
    fun p hp => ?_
  · have hcp' := (closePend_of_core (hack p)).trans hcp
    simp only [fasttmrSend, sendPendingFin, hcp', Bool.false_eq_true, if_false]
    exact hack p
  · obtain ⟨hpl, hrx⟩ := placed_sendPendingFin (hp.of_core (hack p))
    exact ⟨hpl, hrx.trans (rxClosed_of_core (hack p))⟩

lemma wf_tcpFasttmr (h : Wf s) : Wf (tcpFasttmr s) := by
  have hc : Coherent (tcpFasttmr s) := coherent_step h .fasttmr
  revert hc
  unfold tcpFasttmr
  split
  · exact fun _ => h
  · next pcb hpcb =>
    split_ifs
    · intro hc
      have hw := wf_fasttmrSend h
      have hq : (modPcb fasttmrSend s).pcb = some (fasttmrSend pcb) := by simp [modPcb, hpcb]
      by_cases hs : (fasttmrSend pcb).state = .synRcvd
      · have href : refused (modPcb fasttmrSend s) = none := by
          simp [refused, hq, ((hw.pcb _ hq).unread hs).2.1]
        unfold tcpProcessRefusedData
        rw [href]
        exact hw
      · have hcalm := calm_tcpProcessRefusedData (hw.taken hq hs).recv
        exact wf_of_steady hw (hcalm.steady (hw.taken hq hs)) hc hq hs
    · exact fun _ => h

lemma wf_tfTcpPoll {arg : CallbackArg} (h : Wf s) (hc : Coherent (tfTcpPoll arg s)) :
    Wf (tfTcpPoll arg s) := by
  revert hc
  unfold tfTcpPoll
  split_ifs with hg ht
  · exact fun _ => h
  · intro hc
    exact wf_abortLocked h (attached_of_guard (fun _ h => h) h.coherent hg).held hc
  · have ha := attached_of_guard (fun _ h => h) h.coherent hg
    have ho : Ordinary .hints s (updateWritableLocked (tfTcpWriteReady s) s) :=
      ordinary_updateWritableLocked _ ha.alive
    have hpcb := updateWritableLocked_pcb (tfTcpWriteReady s) s
    have hw : Wf (updateWritableLocked (tfTcpWriteReady s) s) :=
      wf_of_ordinary h ha ho fun p hp hpl => ⟨p, hpcb.trans hp, hpl, rfl⟩
    dsimp only
    split_ifs
    · intro hc
      refine wf_tryGracefulCloseLocked hw ?_ hc
      exact hw.coherent.toAttached (ho.exist.trans ha.held) (ho.alive.trans ha.alive)
    · exact fun _ => hw

lemma wf_pollPcb (h : Wf s) {pcb p : Pcb o} (hpcb : s.pcb = some pcb) (hcore : core p = core pcb)
    (href : p.rx.refusedData = pcb.rx.refusedData) : Wf (pollPcb p s) := by
  have hset : ∀ n, Wf ({ s with pcb := some { p with polltmr := n } } : State o) :=
    fun n => wf_setPcb h hpcb hcore href
  simp only [pollPcb]
  split_ifs
  · refine wf_progress ?_ (fun q _ => ?_) fun q hq => ?_
    · have hu := hset 0
      have hn : Wf (noteCall .poll s.hooks.arg
          ({ s with pcb := some { p with polltmr := 0 } } : State o)) := by
        have ho := ordinary_noteCall
          (s := ({ s with pcb := some { p with polltmr := 0 } } : State o)) (k := .hints) .poll
        refine wf_of_same hu (coherent_ordinary hu.coherent ho) (noteCall_pcb _ _ _) ho.hooks ?_
        unfold Unattended
        rw [ho.exist, ho.alive]
        exact id
      have hc : Coherent (eventPoll ({ s with pcb := some { p with polltmr := 0 } } : State o)) :=
        coherent_act hu.coherent .poll
      revert hc
      unfold eventPoll
      split_ifs
      · exact fun hc => wf_tfTcpPoll hn hc
      · exact fun _ => hu
    · split_ifs
      · exact ⟨(same_tcpOutput q).1, congrArg Inbox.refusedData (same_tcpOutput q).2⟩
      · exact ⟨rfl, rfl⟩
    · split_ifs
      · exact ⟨hq.of_core (same_tcpOutput q).1, rxClosed_of_core (same_tcpOutput q).1⟩
      · exact ⟨hq, rfl⟩
  · exact hset _

lemma wf_tcpSlowtmr (h : Wf s) : Wf (tcpSlowtmr s) := by
  have hc : Coherent (tcpSlowtmr s) := coherent_step h .slowtmr
  have hw : Wf (modPcb tick s) := wf_modPcb h (coherent_modPcb h.coherent _) fun p => ⟨rfl, rfl⟩
  revert hc
  have hmod : modPcb (fun pcb : Pcb o => { pcb with ticks := pcb.ticks + 1 }) s = modPcb tick s :=
    rfl
  simp only [tcpSlowtmr, hmod]
  split
  · exact fun _ => hw
  · next pcb hpcb =>
    split
    · split_ifs
      · refine fun hc => wf_of_none hc ?_
        exact freeThenErr_pcb _ _
      · refine fun _ => wf_pollPcb hw hpcb (core_dropStaleOoseq pcb) ?_
        unfold dropStaleOoseq
        split_ifs <;> rfl
    · split_ifs
      · exact fun hc => wf_of_none hc rfl
      · exact fun _ => hw
    · exact fun _ => hw

/-- Every event keeps the stack well formed. -/
theorem wf_step (h : Wf s) (e : Event) : Wf (step s e) := by
  have hc := coherent_step h e
  revert hc
  cases e with
  | segment seg => exact fun _ => wf_segment h seg
  | fasttmr => exact fun _ => wf_tcpFasttmr h
  | slowtmr => exact fun _ => wf_tcpSlowtmr h
  | rexmitRto =>
    refine fun hc => wf_modPcb h hc fun p => ?_
    split_ifs
    · exact ⟨(same_tcpOutput _).1, congrArg Inbox.refusedData (same_tcpOutput _).2⟩
    · exact ⟨rfl, rfl⟩
  | persist keep =>
    refine fun hc => wf_modPcb h hc fun p => ?_
    split_ifs
    · have hsame := same_persistFire keep p
      exact ⟨hsame.1, congrArg Inbox.refusedData hsame.2⟩
    · exact ⟨rfl, rfl⟩
  | handleClosepend => exact fun _ => wf_sendPendingFin h
  | killTimewait =>
    simp only [step, killTimewait]
    split_ifs with hk
    · exact fun hc => wf_of_none hc (tcpAbandon_pcb (Option.isSome_of_any hk))
    · exact fun _ => h
  | killState =>
    simp only [step, killState]
    split_ifs with hk
    · exact fun hc => wf_of_none hc (tcpAbandon_pcb (Option.isSome_of_any hk))
    · exact fun _ => h
  | netifIpAddrChanged =>
    simp only [step, netifIpAddrChanged]
    split_ifs with hk
    · exact fun hc => wf_of_none hc (tcpAbandon_pcb (Option.isSome_of_any hk))
    · exact fun _ => h
  | listenerClosed =>
    simp only [step]
    intro hc
    cases hp : s.pcb with
    | none =>
      rw [modPcb_of_none hp]
      exact h
    | some p =>
      have hok := h.pcb p hp
      exact wf_of_some hc (q := { p with listener := false }) (by simp [modPcb, hp])
        ⟨hok.input, hok.live, hok.listed, hok.fresh, hok.unread⟩ (h.rxClosed p hp)
  | app e => exact fun _ => wf_appStep h e
  | env env => exact fun hc => wf_modPcb h hc fun p => ⟨rfl, rfl⟩

lemma same_tcpListenInput {syn : Segment} {iss : Seq} {env : Env} {ticks : ℕ} {pcb : Pcb o}
    (h : tcpListenInput o syn iss env ticks = some pcb) :
    Same (newPcb o syn iss env ticks) pcb := by
  have hsame := same_tcpEnqueueFlags (newPcb o syn iss env ticks) true false
  revert h
  unfold tcpListenInput
  split
  · next p hp =>
    rw [hp] at hsame
    intro h
    cases h
    exact ⟨(same_tcpOutput p).1.trans hsame.1, (same_tcpOutput p).2.trans hsame.2⟩
  · intro h
    cases h

lemma core_tcpListenInput {syn : Segment} {iss : Seq} {env : Env} {ticks : ℕ} {pcb : Pcb o}
    (h : tcpListenInput o syn iss env ticks = some pcb) :
    core pcb = ⟨.synRcvd, .active, true, false, false, false, false⟩ ∧
    pcb.rx.refusedData = none := by
  have hsame := same_tcpListenInput h
  obtain ⟨w, -, hw⟩ := rx_tcpParseopt _ syn
  exact ⟨hsame.1.trans (core_tcpParseopt _ _), congrArg Inbox.refusedData (hsame.2.trans hw)⟩

lemma wf_initial (h : Initial s) : Wf s := by
  obtain ⟨syn, iss, env, ticks, tf, pcb, hpcb, -, rfl⟩ := h
  obtain ⟨hcore, href⟩ := core_tcpListenInput hpcb
  have hs : pcb.state = .synRcvd := congrArg Core.state hcore
  have hrx : pcb.rxClosed = false := congrArg Core.rxClosed hcore
  refine wf_of_some (coherent_opened pcb tf) rfl
    ⟨congrArg Core.inputPcb hcore, by simp [hs], ?_, ?_, ?_⟩ ?_
  · exact .inl ⟨congrArg Core.list hcore, by simp [hs]⟩
  · exact ⟨fun _ => hs, fun _ => rfl⟩
  · exact fun _ => ⟨hrx, href, congrArg Core.closePend hcore⟩
  · intro h
    rw [hrx] at h
    cases h

/-! ### An opening for concrete runs -/

def calmEnv : Env := ⟨true, true, 10, false, 6, true, false, []⟩

def calmTf : TfEnv := ⟨true, 0, true, true, false⟩

/-- A bare acknowledgement. -/
def ackSegment (seqno ackno : Seq) : Segment where
  seqno := seqno
  ackno := ackno
  syn := false
  fin := false
  rst := false
  ack := true
  wnd := 1000
  mss := none
  wndScale := none
  p := ⟨[⟨0, []⟩]⟩
  fits := by decide

def openingSyn : Segment := { ackSegment 100 0 with syn := true, ack := false, mss := some 1460 }

/-- The pcb that lwIP makes for `openingSyn`. -/
def listening (o : Platform) : State o :=
  opened ((tcpListenInput o openingSyn 6510 calmEnv 0).getD (newPcb o openingSyn 6510 calmEnv 0))
    calmTf

lemma listening_initial (o : Platform) : Initial (listening o) := by
  refine ⟨openingSyn, 6510, calmEnv, 0, calmTf, _, ?_, rfl, rfl⟩
  cases o <;> decide

/-- The handshake is completed and the delegate is shown the connection. -/
def handshake : List Event := [.segment (ackSegment 101 6511), .app .runConnectionsBlock]

end TunForge.StackRuns
