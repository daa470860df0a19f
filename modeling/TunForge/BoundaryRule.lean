import TunForge.Boundary
import TunForge.Termination
import TunForge.OrdinarySteps

/-! The induction rule of the boundary machine. Every interaction is made of a few
kinds of primitive steps; a property that these keep holds along every run. -/
namespace TunForge.BoundaryRule
open PbufChain LwipTypes Tcp Connection Callbacks Boundary Termination OrdinarySteps

variable {P : Type} {s : Sys P}

def isTermination : CBlock → Bool
  | .terminated _ => true
  | _ => false

/-- How many termination blocks have been posted. -/
def terminations (s : Sys P) : ℕ := s.log.posted.countP isTermination

/-- Something other than its owner keeps the connection object: the accept block, the handler
it passes on, or the block with the answer. -/
def Retained (s : Sys P) : Prop :=
  CBlock.accepted ∈ s.connectionsQueue ∨ s.acceptPending = true ∨
    ∃ b, PBlock.decision b ∈ s.packetsQueue

/-- The connection's fields agree with each other, and those of a living connection with the
pcb it was made for. -/
structure Coherent (s : Sys P) : Prop where
  pcb_eq : s.conn.pcb = s.conn.alive
  closed_iff : s.conn.state = .closed ↔ s.conn.alive = false
  notified_eq : s.conn.didNotifyTerminated = !s.conn.alive
  pending : s.conn.pendingClose = true → s.conn.state = .closing
  attached : s.connExists = true → s.conn.alive = true →
    s.pcb.isSome = true ∧ s.hooks = attachedHooks ∧ s.ref = ⟨true, true⟩
  once : terminations s ≤ if s.conn.alive then 0 else 1
  fresh : s.hooks = openedHooks → s.connExists = false ∧ s.conn.alive = false ∧ terminations s = 0
  hooked : s.hooks = openedHooks ∨ s.hooks = attachedHooks ∨
    (s.hooks = detachedHooks false ∧ s.pcb.isSome = false)
  retained : Retained s → s.connExists = true

lemma Coherent.toAttached (h : Coherent s) (he : s.connExists = true) (ha : s.conn.alive = true) :
    Attached s := by
  obtain ⟨hp, hh, hr⟩ := h.attached he ha
  refine ⟨he, ha, h.pcb_eq.trans ha, by simp [h.notified_eq, ha], ?_, hp, hh, hr⟩
  intro hc
  simp [h.closed_iff.1 hc] at ha

lemma Coherent.ext_or (h : Coherent s) : s.hooks.ext = true ∨ s.hooks.arg ≠ .conn := by
  rcases h.hooked with hh | hh | ⟨hh, -⟩ <;> simp [hh, openedHooks, attachedHooks, detachedHooks]

/-- A connection that is dead or gone takes no notice of its pcb being freed. -/
def Unattended (s : Sys P) : Prop := s.connExists = false ∨ s.conn.alive = false

/-- The state in which the late err callback of `tcp_abandon` and `tcp_slowtmr` is made. -/
def afterFree (gap : Bool) (s : Sys P) : Sys P :=
  if gap then releaseConnection (tcpFree s) else tcpFree s

/-- The chain that running a block passes on to the handler, and what it sends back to
packetsQueue when the handler cannot have it. -/
def passedOn : CBlock → Outcome → List Pbuf
  | .readableBytes p _ _, .called => [p]
  | _, _ => []

def sentBack : CBlock → Outcome → List PBlock
  | .readableBytes _ _ _, .called => []
  | .readableBytes p _ _, _ => [.release p]
  | _, _ => []

lemma decision_notMem_sentBack (b : CBlock) (out : Outcome) (a : Bool) :
    PBlock.decision a ∉ sentBack b out := by
  cases b <;> cases out <;> simp [sentBack]

lemma runConnectionsBlock_eq {b : CBlock} {rest : List CBlock}
    (hq : s.connectionsQueue = b :: rest) :
    runConnectionsBlock s =
      { s with
        connectionsQueue := rest
        completions := s.completions ++ passedOn b (blockOutcome b s)
        packetsQueue := s.packetsQueue ++ sentBack b (blockOutcome b s)
        acceptPending := s.acceptPending || decide (b = .accepted)
        log := { s.log with trace := s.log.trace ++ [(b, blockOutcome b s)] } } := by
  simp only [runConnectionsBlock, hq]
  cases b <;> cases blockOutcome _ s <;> simp [afterBlock, passedOn, sentBack]

/-- `I` is kept by every primitive step out of a state with `H`, where lwIP and the application
act as `ok` admits. -/
structure Preserved [RawApi P] (ok : Sys P → Action P → Prop) (H I : Sys P → Prop) : Prop where
  ordinary : ∀ {s t}, H s → I s → Ordinary .hints s t → I t
  recv : ∀ {s} p, H s → I s → ok s (.recv p) → I (eventRecv p s).1
  dropped : ∀ {s t} p err, H t → I t → ok s (.recvErr p err) → I (freeIfSome p t)
  peerFIN : ∀ {s}, H s → I s → Attached s → I (handlePeerFINLocked s)
  activate : ∀ {s}, H s → I s → Attached s → s.conn.state = .new →
    ok s (.app (.api .markActive)) → I (markActive s)
  ended : ∀ {s t} r, H s → I s → Attached s → Ended r s t → I t
  deferred : ∀ {s pcb} pcb', H s → I s → Attached s → s.pcb = some pcb →
    RawApi.close pcb = .returned pcb' .mem →
    I { closingState s with pcb := some pcb', conn := { (closingState s).conn with
      pendingClose := true } }
  freed : ∀ {s}, H s → I s → Unattended s → s.hooks.ext = true → I (lwipFreed s)
  bare : ∀ {s}, H s → I s → s.hooks.ext = false →
    I { s with pcb := none, hooks := detachedHooks false }
  lateErr : ∀ {s} gap, H s → I s → I (afterFree gap s) → ok s (.freeThenErr gap) →
    s.hooks = attachedHooks →
    I (noteCall .err .conn (afterFree gap s))
  released : ∀ {s}, H s → I s → CBlock.accepted ∉ s.connectionsQueue →
    (∀ b, PBlock.decision b ∉ s.packetsQueue) →
    I { s with connExists := false, acceptPending := false }
  accept : ∀ {s}, H s → I s → s.hooks = openedHooks → s.pcb.isSome = true → I (tunforgeAccept s).1
  ranBlock : ∀ {s} b rest, H s → I s → s.connectionsQueue = b :: rest → I (runConnectionsBlock s)
  ranRelease : ∀ {s} p rest, H s → I s → s.packetsQueue = .release p :: rest →
    I (performPackets (.release p) { s with packetsQueue := rest })
  ranDecision : ∀ {s} b rest, H s → I s → s.packetsQueue = .decision b :: rest →
    I { s with packetsQueue := rest }
  completed : ∀ {s} p onPackets, H s → I s → p ∈ s.completions → I (callCompletion p onPackets s)
  answered : ∀ {s} accept, H s → I s → s.acceptPending = true →
    I { s with acceptPending := false } ∧
    I { s with acceptPending := false, packetsQueue := s.packetsQueue ++ [.decision accept] }
  env : ∀ {s} env, H s → I s → I { s with env := env }

variable [RawApi P] {ok : Sys P → Action P → Prop} {H I : Sys P → Prop}

lemma Preserved.and (hH : Preserved ok (fun _ => True) H) (hI : Preserved ok H I) :
    Preserved ok (fun _ => True) fun s => H s ∧ I s where
  ordinary _ h o := ⟨hH.ordinary trivial h.1 o, hI.ordinary h.1 h.2 o⟩
  recv p _ h a := ⟨hH.recv p trivial h.1 a, hI.recv p h.1 h.2 a⟩
  dropped p e _ h a := ⟨hH.dropped p e trivial h.1 a, hI.dropped p e h.1 h.2 a⟩
  peerFIN _ h a := ⟨hH.peerFIN trivial h.1 a, hI.peerFIN h.1 h.2 a⟩
  activate _ h a n k := ⟨hH.activate trivial h.1 a n k, hI.activate h.1 h.2 a n k⟩
  ended r _ h a e := ⟨hH.ended r trivial h.1 a e, hI.ended r h.1 h.2 a e⟩
  deferred p _ h a e c := ⟨hH.deferred p trivial h.1 a e c, hI.deferred p h.1 h.2 a e c⟩
  freed _ h u e := ⟨hH.freed trivial h.1 u e, hI.freed h.1 h.2 u e⟩
  bare _ h e := ⟨hH.bare trivial h.1 e, hI.bare h.1 h.2 e⟩
  lateErr g _ h f a k := ⟨hH.lateErr g trivial h.1 f.1 a k, hI.lateErr g h.1 h.2 f.2 a k⟩
  released _ h c p := ⟨hH.released trivial h.1 c p, hI.released h.1 h.2 c p⟩
  accept _ h o p := ⟨hH.accept trivial h.1 o p, hI.accept h.1 h.2 o p⟩
  ranBlock b r _ h q := ⟨hH.ranBlock b r trivial h.1 q, hI.ranBlock b r h.1 h.2 q⟩
  ranRelease p r _ h q := ⟨hH.ranRelease p r trivial h.1 q, hI.ranRelease p r h.1 h.2 q⟩
  ranDecision b r _ h q := ⟨hH.ranDecision b r trivial h.1 q, hI.ranDecision b r h.1 h.2 q⟩
  completed p o _ h m := ⟨hH.completed p o trivial h.1 m, hI.completed p o h.1 h.2 m⟩
  answered a _ h q :=
    ⟨⟨(hH.answered a trivial h.1 q).1, (hI.answered a h.1 h.2 q).1⟩,
      (hH.answered a trivial h.1 q).2, (hI.answered a h.1 h.2 q).2⟩
  env e _ h := ⟨hH.env e trivial h.1, hI.env e h.1 h.2⟩

section rule

variable (h : Preserved ok (fun _ => True) I) (hco : ∀ s, I s → Coherent s)
include h hco

lemma keeps_abortLocked (hs : I s) (he : s.connExists = true) (r : Reason) :
    I (abortLocked r s) := by
  by_cases ha : s.conn.alive = true
  · have hat := (hco s hs).toAttached he ha
    exact h.ended r trivial hs hat (ended_abortLocked hat r)
  · rw [abortLocked_of_dead (by simpa using ha)]
    exact hs

omit hco in
lemma keeps_tryGracefulCloseLocked (hs : I s) (hat : Attached s) :
    I (tryGracefulCloseLocked s) := by
  rcases ended_or_deferred_tryGracefulCloseLocked hat with ⟨r, he⟩ | ⟨pcb, pcb', hpcb, hmem, he⟩
  · exact h.ended r trivial hs hat he
  · rw [he]
    exact h.deferred pcb' trivial hs hat hpcb hmem

lemma keeps_gracefulClose (hs : I s) (he : s.connExists = true) : I (gracefulClose s) := by
  have hc := hco s hs
  unfold gracefulClose
  split_ifs with ha hp
  · exact hs
  · simp [hc.pcb_eq] at ha hp
    simp [hp] at ha
  · exact keeps_tryGracefulCloseLocked h hs (hc.toAttached he (by simpa using ha))

lemma keeps_tcpFree (hs : I s) : I (tcpFree s) := by
  have hc := hco s hs
  by_cases hext : s.hooks.ext = true
  · by_cases hu : Unattended s
    · rw [tcpFree_of_silent hext ?_]
      · exact h.freed trivial hs hu hext
      · rcases hu with hu | hu
        · exact .inr (.inl hu)
        · exact .inr (.inr (by simp [hc.notified_eq, hu]))
    · simp only [Unattended, not_or, Bool.not_eq_false] at hu
      have hat := hc.toAttached hu.1 hu.2
      exact h.ended .destroyed trivial hs hat (ended_tcpFree hat)
  · rw [tcpFree_of_bare (by simpa using hext)]
    exact h.bare trivial hs (by simpa using hext)

lemma keeps_eventErr (hs : I s) (err : Err) : I (eventErr s.hooks err s) := by
  by_cases hu : Unattended s
  · rw [eventErr_of_silent (.inr (.inr hu))]
    split_ifs
    · exact h.ordinary trivial hs (ordinary_noteCall _)
    · exact hs
  · simp only [Unattended, not_or, Bool.not_eq_false] at hu
    have hat := (hco s hs).toAttached hu.1 hu.2
    exact h.ended _ trivial hs hat (ended_eventErr hat err)

omit hco in
lemma keeps_releaseConnection (hs : I s) : I (releaseConnection s) := by
  rcases releaseConnection_cases s with heq | ⟨hcq, hpq, heq⟩
  · rw [heq]
    exact hs
  · rw [heq]
    exact h.released trivial hs hcq hpq

lemma keeps_freeThenErr {gap : Bool} (hs : I s) (hok : ok s (.freeThenErr gap)) :
    I (freeThenErr gap s) := by
  have hc := hco s hs
  have hfree : I (afterFree gap s) := by
    unfold afterFree
    split_ifs
    · exact keeps_releaseConnection h (keeps_tcpFree h hco hs)
    · exact keeps_tcpFree h hco hs
  rw [freeThenErr_eq hc.ext_or]
  change I (if s.hooks.errf then noteCall .err s.hooks.arg (afterFree gap s) else afterFree gap s)
  split_ifs with herr
  · rcases hc.hooked with hh | hh | ⟨hh, -⟩
    · simp [hh, openedHooks] at herr
    · have hlate := h.lateErr gap trivial hs hfree hok hh
      rw [hh]
      exact hlate
    · simp [hh, detachedHooks] at herr
  · exact hfree

lemma keeps_writeBytes (hs : I s) (he : s.connExists = true) (bytes : Bytes) :
    I (writeBytes bytes s).1 := by
  unfold writeBytes
  split_ifs with h0 h1 hc
  · exact hs
  · exact hs
  · exact hs
  · have ha : s.conn.alive = true := by
      simp only [Bool.or_eq_true, not_or] at hc
      simpa using hc.1.1.1
    cases hw : s.pcb.map (RawApi.write · bytes) with
    | none => exact hs
    | some r =>
      obtain ⟨pcb, err⟩ := r
      have hcall : I (s.callLwip (.write bytes.length) fun _ => pcb) :=
        h.ordinary trivial hs (ordinary_callLwip _ (by simp))
      cases err with
      | ok =>
        refine h.ordinary trivial hcall ?_
        exact (ordinary_callLwip _ (by simp)).trans (ordinary_updateWritableLocked _ ha)
      | mem => exact h.ordinary trivial hcall (ordinary_updateWritableLocked _ ha)
      | _ => exact keeps_abortLocked h hco hcall he .abort

lemma keeps_markActive (hs : I s) (he : s.connExists = true)
    (hok : ok s (.app (.api .markActive))) :
    I (markActive s) := by
  by_cases hg : (!s.conn.alive || !s.conn.pcb) = true ∨ s.conn.state ≠ .new
  · have heq : markActive s = s := by
      unfold markActive
      split_ifs with ha hn
      · rfl
      · rfl
      · exact absurd (hg.resolve_left ha) hn
    rw [heq]
    exact hs
  · simp only [not_or, Bool.not_eq_true, Bool.or_eq_false_iff, Bool.not_eq_false', ne_eq,
      not_not] at hg
    exact h.activate trivial hs ((hco s hs).toAttached he hg.1.1) hg.2 hok

lemma keeps_apiCall (hs : I s) (he : s.connExists = true) (c : ApiCall)
    (hok : ok s (.app (.api c))) :
    I (apiCall s c) := by
  cases c with
  | markActive => exact keeps_markActive h hco hs he hok
  | setInboundDeliveryEnabled b =>
    refine h.ordinary trivial hs ?_
    constructor <;> simp [apiCall, setInboundDeliveryEnabled]
  | acknowledgeDeliveredBytes n => exact h.ordinary trivial hs (ordinary_acknowledge n)
  | writeBytes bytes => exact keeps_writeBytes h hco hs he bytes
  | writeData data =>
    simp only [apiCall, writeData]
    split_ifs
    · exact hs
    · exact keeps_writeBytes h hco hs he data
  | shutdownWrite => exact h.ordinary trivial hs ordinary_shutdownWrite
  | gracefulClose => exact keeps_gracefulClose h hco hs he
  | abort => exact keeps_abortLocked h hco hs he .abort

omit [RawApi P] h in
lemma attached_of_guard (hs : I s) {arg : CallbackArg}
    (hg : ¬(!tfConnFromArg arg s || !s.conn.alive || !s.conn.pcb) = true) : Attached s := by
  simp only [Bool.or_eq_true, not_or, Bool.not_eq_true, Bool.not_eq_false'] at hg
  obtain ⟨⟨harg, ha⟩, -⟩ := hg
  simp only [tfConnFromArg, Bool.and_eq_true] at harg
  exact (hco s hs).toAttached harg.2 ha

lemma keeps_eventClosed (hs : I s) : I (eventClosed s) := by
  have hc := hco s hs
  unfold eventClosed
  split
  · have hn : I (noteCall .recv s.hooks.arg s) := h.ordinary trivial hs (ordinary_noteCall _)
    unfold tfTcpRecv
    dsimp only
    split_ifs with hg hok
    · exact hn
    · exact absurd rfl hok
    · exact h.peerFIN trivial hn (attached_of_guard hco hn hg)
  · exact hs
  · split
    · exact hs
    · exact keeps_tcpFree h hco hs
    · next pcb _ hclose =>
      have hsome : s.pcb.isSome = true := by
        cases hp : s.pcb <;> simp_all
      have heq : ({ s with pcb := some pcb } : Sys P) = { s with
        pcb := s.pcb.map fun _ => pcb } := by
        obtain ⟨q, hq⟩ := Option.isSome_iff_exists.1 hsome
        simp [hq]
      rw [heq]
      exact h.ordinary trivial hs (ordinary_pcb _)

lemma keeps_recvErr {p : Option Pbuf} {err : Err} (hs : I s) (hok : ok s (.recvErr p err)) :
    I (lwipAct s (.recvErr p err)) := by
  simp only [lwipAct]
  split_ifs with hg
  · have hn : I (noteCall .recv s.hooks.arg s) := h.ordinary trivial hs (ordinary_noteCall _)
    have hd := h.dropped p err trivial hn hok
    unfold tfTcpRecv
    rw [if_pos hg.2]
    split_ifs with hc
    · exact hd
    · have hat := attached_of_guard hco hn hc
      have hex : (freeIfSome p (noteCall .recv s.hooks.arg s)).connExists = true := by
        cases p <;> exact hat.held
      exact keeps_abortLocked h hco hd hex .abort
  · exact hs

lemma keeps_eventPoll (hs : I s) : I (eventPoll s) := by
  unfold eventPoll
  split_ifs
  · have hn : I (noteCall .poll s.hooks.arg s) := h.ordinary trivial hs (ordinary_noteCall _)
    unfold tfTcpPoll
    split_ifs with hg ht
    · exact hn
    · exact keeps_abortLocked h hco hn (attached_of_guard hco hn hg).held .abort
    · have hat := attached_of_guard hco hn hg
      have hw : Ordinary .hints (noteCall .poll s.hooks.arg s)
          (updateWritableLocked (tfTcpWriteReady (noteCall .poll s.hooks.arg s))
            (noteCall .poll s.hooks.arg s)) :=
        ordinary_updateWritableLocked _ hat.alive
      have hI := h.ordinary trivial hn hw
      dsimp only
      split_ifs
      · refine keeps_tryGracefulCloseLocked h hI ((hco _ hI).toAttached ?_ ?_)
        · exact hw.exist.trans hat.held
        · exact hw.alive.trans hat.alive
      · exact hI
  · exact hs

lemma keeps_lwipAct (hs : I s) (hp : s.pcb.isSome = true) {a : Action P} (hok : ok s a) :
    I (lwipAct s a) := by
  cases a with
  | lwip f => exact h.ordinary trivial hs (ordinary_pcb f)
  | accept =>
    simp only [lwipAct]
    split_ifs with ha
    · refine h.accept trivial hs ?_ hp
      rcases (hco s hs).hooked with hh | hh | ⟨hh, -⟩
      · exact hh
      · simp [hh, attachedHooks] at ha
      · simp [hh, detachedHooks] at ha
    · exact hs
  | recv p => exact h.recv p trivial hs hok
  | closed => exact keeps_eventClosed h hco hs
  | recvErr p err => exact keeps_recvErr h hco hs hok
  | sent len => exact h.ordinary trivial hs (ordinary_eventSent len)
  | poll => exact keeps_eventPoll h hco hs
  | err err => exact keeps_eventErr h hco hs err
  | free => exact keeps_tcpFree h hco hs
  | freeThenErr gap => exact keeps_freeThenErr h hco hs hok
  | app e => exact hs

lemma keeps_decision (hs : I s) (he : s.connExists = true) (accept : Bool) :
    I (performPackets (.decision accept) s) := by
  cases accept
  · exact keeps_abortLocked h hco hs he .abort
  · exact hs

lemma keeps_runPacketsBlock (hs : I s) : I (runPacketsBlock s) := by
  unfold runPacketsBlock
  split
  · exact hs
  · next b rest hq =>
    cases b with
    | release p => exact h.ranRelease p rest trivial hs hq
    | decision accept =>
      refine keeps_decision h hco (h.ranDecision accept rest trivial hs hq) ?_ accept
      exact (hco s hs).retained (.inr (.inr ⟨accept, by simp [hq]⟩))

lemma keeps_callAcceptHandler (hs : I s) (accept onPackets : Bool) :
    I (callAcceptHandler accept onPackets s) := by
  unfold callAcceptHandler packetsPerformAsync
  split_ifs with hp hq
  · refine keeps_decision h hco (h.answered accept trivial hs hp).1 ?_ accept
    exact (hco s hs).retained (.inr (.inl hp))
  · exact (h.answered accept trivial hs hp).2
  · exact hs

lemma keeps_appStep (hs : I s) {e : AppEvent} (hok : ok s (.app e)) : I (appStep s e) := by
  cases e with
  | api c =>
    simp only [appStep]
    split_ifs with hh
    · simp only [held, Bool.and_eq_true] at hh
      exact keeps_apiCall h hco hs hh.1 c hok
    · exact hs
  | setHandlers handlers =>
    simp only [appStep]
    split_ifs
    · refine h.ordinary trivial hs ?_
      constructor <;> simp
    · exact hs
  | runConnectionsBlock =>
    simp only [appStep]
    cases hq : s.connectionsQueue with
    | nil => simpa [runConnectionsBlock, hq] using hs
    | cons b rest => exact h.ranBlock b rest trivial hs hq
  | runPacketsBlock => exact keeps_runPacketsBlock h hco hs
  | callCompletion p onPackets =>
    simp only [appStep]
    by_cases hm : p ∈ s.completions
    · exact h.completed p onPackets trivial hs hm
    · simpa [callCompletion, hm] using hs
  | callAcceptHandler accept onPackets => exact keeps_callAcceptHandler h hco hs accept onPackets
  | release => exact keeps_releaseConnection h hs
  | env env => exact h.env env trivial hs

lemma keeps_act (hs : I s) {a : Action P} (hok : ok s a) : I (act s a) := by
  cases a with
  | app e => exact keeps_appStep h hco hs hok
  | _ =>
    simp only [act]
    split_ifs with hp
    · exact keeps_lwipAct h hco hs hp hok
    · exact hs

/-- What every primitive step keeps holds along every run of the boundary machine. -/
theorem keeps_run {as : List (Action P)} (hs : I s) (hok : Runs.Along act ok s as) :
    I (Runs.run act s as) :=
  Runs.invariant act I (fun _ _ hI ha => keeps_act h hco hI ha) hs hok

end rule

end TunForge.BoundaryRule
