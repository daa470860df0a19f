import TunForge.Lifecycle

/-! Fields that hardly any operation writes: the time of acceptance, which only
`initWithTCPPcb:` sets, and the writable flag with the values posted for it, which
only `updateWritableLocked:` moves. -/
namespace TunForge.SideFrames
open PbufChain LwipTypes Tcp Connection Callbacks Boundary Termination OrdinarySteps BoundaryRule
  Lifecycle

variable {P : Type} {s : Sys P}

def edge : CBlock → Option Bool
  | .writableChanged newValue => some newValue
  | _ => none

/-- The values posted by `updateWritableLocked:`, in order. -/
def edges (s : Sys P) : List Bool := s.log.posted.filterMap edge

structure Aside where
  since : ℕ
  writable : Bool
  edges : List Bool

def aside (s : Sys P) : Aside := ⟨s.conn.newStateStartMs, s.conn.writable, edges s⟩

/-! ### Operations that leave them alone -/

@[simp] lemma aside_callLwip (c : LwipCall) (f : P → P) (s : Sys P) :
    aside (s.callLwip c f) = aside s := rfl

@[simp] lemma aside_free (m : Freed) (s : Sys P) : aside (s.free m) = aside s := rfl

lemma aside_post {b : CBlock} (hb : edge b = none) (s : Sys P) : aside (s.post b) = aside s := by
  simp [aside, edges, Sys.post, hb]

lemma aside_postIf {b : CBlock} (hb : edge b = none) (set : Bool) (s : Sys P) :
    aside (s.postIf set b) = aside s := by
  cases set <;> simp [aside, edges, Sys.postIf, hb]

@[simp] lemma aside_freeIfSome (p : Option Pbuf) (s : Sys P) :
    aside (freeIfSome p s) = aside s := by
  cases p <;> rfl

@[simp] lemma aside_noteCall (cb : Callback) (arg : CallbackArg) (s : Sys P) :
    aside (noteCall cb arg s) = aside s := by
  unfold noteCall
  split_ifs <;> rfl

@[simp] lemma aside_clearCallbackLocked (s : Sys P) : aside (clearCallbackLocked s) = aside s := by
  unfold clearCallbackLocked
  split_ifs <;> rfl

@[simp] lemma aside_terminateLocked (r : Reason) (s : Sys P) :
    aside (terminateLocked r s) = aside s := by
  unfold terminateLocked
  dsimp only
  split_ifs
  · rfl
  · rw [aside_postIf rfl]
    exact aside_clearCallbackLocked _
  · rw [aside_postIf rfl]
    rfl

@[simp] lemma aside_tfTcpExtargDestroy (s : Sys P) : aside (tfTcpExtargDestroy s) = aside s := by
  have hdes : ∀ t : Sys P, aside (receivedPcbDestroyed t) = aside t := by
    intro t
    unfold receivedPcbDestroyed
    split_ifs
    · rfl
    · exact aside_terminateLocked _ _
  unfold tfTcpExtargDestroy
  dsimp only
  split_ifs
  · exact hdes _
  · rfl

@[simp] lemma aside_tcpFree (s : Sys P) : aside (tcpFree s) = aside s := by
  unfold tcpFree
  split_ifs
  · exact aside_tfTcpExtargDestroy s
  · rfl

@[simp] lemma aside_eventErr (hooks : Hooks) (err : Err) (s : Sys P) :
    aside (eventErr hooks err s) = aside s := by
  have herr : ∀ t : Sys P, aside (tfTcpErr hooks.arg err t) = aside t := by
    intro t
    unfold tfTcpErr
    split_ifs
    · exact aside_terminateLocked _ _
    · exact aside_terminateLocked _ _
    · rfl
  unfold eventErr
  split_ifs
  · exact (herr _).trans (aside_noteCall _ _ s)
  · rfl

@[simp] lemma aside_releaseConnection (s : Sys P) : aside (releaseConnection s) = aside s := by
  unfold releaseConnection
  split_ifs <;> rfl

@[simp] lemma aside_freeThenErr (gap : Bool) (s : Sys P) : aside (freeThenErr gap s) = aside s := by
  unfold freeThenErr
  cases gap <;> simp

@[simp] lemma aside_handlePeerFINLocked (s : Sys P) : aside (handlePeerFINLocked s) = aside s := by
  unfold handlePeerFINLocked
  split_ifs
  · rfl
  · rw [aside_postIf rfl]
    rfl

@[simp] lemma aside_updateInflightAckBytes (delta : ℤ) (s : Sys P) :
    aside (updateInflightAckBytes delta s) = aside s := rfl

@[simp] lemma aside_closeSucceeded (s : Sys P) : aside (closeSucceeded s) = aside s := by
  unfold closeSucceeded
  simp only [aside_terminateLocked]
  rfl

lemma aside_handOver {b : CBlock} (hb : edge b = none) (tot : ℕ) (s : Sys P) :
    aside (handOver b tot s) = aside s :=
  aside_post hb s

@[simp] lemma aside_runConnectionsBlock (s : Sys P) : aside (runConnectionsBlock s) = aside s := by
  cases hq : s.connectionsQueue with
  | nil => simp [runConnectionsBlock, hq]
  | cons b rest =>
    rw [runConnectionsBlock_eq hq]
    rfl

section

variable [RawApi P]

@[simp] lemma aside_tcpAbandon (gap : Bool) (s : Sys P) : aside (tcpAbandon gap s) = aside s := by
  unfold tcpAbandon
  split
  · rfl
  · split_ifs <;> simp

@[simp] lemma aside_abortLocked (r : Reason) (s : Sys P) : aside (abortLocked r s) = aside s := by
  unfold abortLocked tcpAbort
  dsimp only
  split_ifs
  · rfl
  · simp only [aside_terminateLocked, aside_tcpAbandon, aside_callLwip]
    exact aside_clearCallbackLocked _
  · simp only [aside_terminateLocked]
    rfl

@[simp] lemma aside_tryGracefulCloseLocked (s : Sys P) :
    aside (tryGracefulCloseLocked s) = aside s := by
  unfold tryGracefulCloseLocked
  dsimp only
  split_ifs
  · rfl
  · simp
  · split
    · rfl
    · simp only [aside_closeSucceeded, aside_tcpFree, aside_callLwip]
      rfl
    · split
      · simp only [aside_closeSucceeded, aside_callLwip]
        rfl
      · rfl
      · simp only [aside_abortLocked, aside_callLwip]
        rfl

@[simp] lemma aside_gracefulClose (s : Sys P) : aside (gracefulClose s) = aside s := by
  unfold gracefulClose
  split_ifs <;> simp

@[simp] lemma aside_markActive (s : Sys P) : aside (markActive s) = aside s := by
  have hnotify : ∀ t : Sys P, aside (notifyActiveOnceLocked t) = aside t := by
    intro t
    unfold notifyActiveOnceLocked
    split_ifs
    · rfl
    · rw [aside_postIf rfl]
      rfl
  unfold markActive
  split_ifs
  · rfl
  · rfl
  · exact hnotify _

lemma aside_recvedLoop (fuel remaining : ℕ) (s : Sys P) :
    aside (recvedLoop fuel remaining s) = aside s := by
  induction fuel generalizing remaining s with
  | zero => rfl
  | succ fuel ih =>
    unfold recvedLoop
    split_ifs
    · rfl
    · rw [ih]
      rfl

@[simp] lemma aside_acknowledge (n : ℕ) (s : Sys P) :
    aside (acknowledgeDeliveredBytes n s) = aside s := by
  unfold acknowledgeDeliveredBytes
  dsimp only
  split_ifs
  · rfl
  · rfl
  · rfl
  · rw [aside_updateInflightAckBytes]
    exact aside_recvedLoop _ _ s

@[simp] lemma aside_deliver (p : Pbuf) (s : Sys P) : aside (deliver p s) = aside s := by
  unfold deliver
  dsimp only
  split_ifs
  · rw [aside_handOver rfl]
    rfl
  · rfl
  · rw [aside_handOver rfl, aside_acknowledge]
    rfl
  · rfl
  · rfl

@[simp] lemma aside_tfTcpRecv (arg : CallbackArg) (p : Option Pbuf) (err : Err) (s : Sys P) :
    aside (tfTcpRecv arg p err s).1 = aside s := by
  cases p with
  | none =>
    unfold tfTcpRecv
    split_ifs <;> simp
  | some p =>
    unfold tfTcpRecv
    dsimp only
    split_ifs <;> simp

@[simp] lemma aside_eventRecv (p : Pbuf) (s : Sys P) : aside (eventRecv p s).1 = aside s := by
  unfold eventRecv
  split
  · exact (aside_tfTcpRecv _ _ _ _).trans (aside_noteCall _ _ s)
  · rfl

@[simp] lemma aside_eventClosed (s : Sys P) : aside (eventClosed s) = aside s := by
  unfold eventClosed
  split
  · simp
  · rfl
  · split
    · rfl
    · simp
    · rfl

@[simp] lemma aside_shutdownWrite (s : Sys P) : aside (shutdownWrite s) = aside s := by
  unfold shutdownWrite
  split_ifs <;> rfl

lemma aside_performPackets (b : PBlock) (s : Sys P) : aside (performPackets b s) = aside s := by
  cases b with
  | release p => rfl
  | decision accept =>
    cases accept with
    | true => rfl
    | false => exact aside_abortLocked .abort s

@[simp] lemma aside_runPacketsBlock (s : Sys P) : aside (runPacketsBlock s) = aside s := by
  unfold runPacketsBlock
  split
  · rfl
  · exact aside_performPackets _ _

lemma aside_packetsPerformAsync (onPackets : Bool) (b : PBlock) (s : Sys P) :
    aside (packetsPerformAsync onPackets b s) = aside s := by
  unfold packetsPerformAsync
  split_ifs
  · exact aside_performPackets b s
  · rfl

@[simp] lemma aside_callCompletion (p : Pbuf) (onPackets : Bool) (s : Sys P) :
    aside (callCompletion p onPackets s) = aside s := by
  unfold callCompletion
  split_ifs
  · exact aside_packetsPerformAsync _ _ _
  · rfl

@[simp] lemma aside_callAcceptHandler (accept onPackets : Bool) (s : Sys P) :
    aside (callAcceptHandler accept onPackets s) = aside s := by
  unfold callAcceptHandler
  split_ifs
  · exact aside_packetsPerformAsync _ _ _
  · rfl

end

end TunForge.SideFrames
