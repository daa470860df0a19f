import TunForge.Callbacks

/-! What each operation that can end a connection comes to, for a connection that
is attached to its pcb and for one that is not. -/
namespace TunForge.Termination
open PbufChain LwipTypes Tcp Connection Callbacks

variable {P : Type} {s : Sys P}

/-- The effect of a termination on the connection and on connectionsQueue. -/
def closeConn (reason : Reason) (s : Sys P) : Sys P :=
  Sys.postIf s.conn.handlers.onTerminated (.terminated reason)
    { s with conn := { s.conn with
        pcb := false, alive := false, state := .closed, terminationReason := reason
        didNotifyTerminated := true, pendingClose := false } }

/-- lwIP's half of a connection whose pcb, with its ext-arg, has been freed. -/
def lwipFreed (s : Sys P) : Sys P :=
  { s with
    pcb := none, hooks := detachedHooks false, ref := ⟨false, false⟩
    extHeld := false, extGiven := s.extGiven + 1 }

/-- One operation ends a living connection with reason `r`: the connection and connectionsQueue
see exactly `closeConn`; the pcb either stays as it was, callbacks included, or is freed with
its ext-arg reference given back; everything else is left alone. -/
structure Ended (r : Reason) (s t : Sys P) : Prop where
  conn : t.conn = (closeConn r s).conn
  queue : t.connectionsQueue = (closeConn r s).connectionsQueue
  posted : t.log.posted = (closeConn r s).log.posted
  packets : t.packetsQueue = s.packetsQueue ∧ t.completions = s.completions
  accept : t.acceptPending = s.acceptPending
  exist : t.connExists = s.connExists
  attaches : t.log.lwip.count .attach = s.log.lwip.count .attach
  trace : t.log.trace = s.log.trace
  env : t.env = s.env
  freed : t.log.freed = s.log.freed
  calls : ∃ cs, t.log.calls = s.log.calls ++ cs ∧ ∀ c ∈ cs, c.2 = s.owners ∧ s.hooks.arg = .conn
  pcb : (t.pcb.isSome = true ∧ t.hooks = s.hooks ∧ t.extHeld = s.extHeld ∧
    t.extGiven = s.extGiven) ∨
    (t.pcb = none ∧ t.hooks = detachedHooks false ∧ t.extHeld = false ∧ t.extGiven = s.extGiven + 1)

/-- A living connection whose object exists: its pcb exists and carries its callbacks. -/
structure Attached (s : Sys P) : Prop where
  held : s.connExists = true
  alive : s.conn.alive = true
  pcb : s.conn.pcb = true
  notified : s.conn.didNotifyTerminated = false
  state : s.conn.state ≠ .closed
  isSome : s.pcb.isSome = true
  hooks : s.hooks = attachedHooks
  ref : s.ref = ⟨true, true⟩

lemma terminateLocked_of_notified {r : Reason} (h : s.conn.didNotifyTerminated = true) :
    terminateLocked r s = s := by
  simp [terminateLocked, h]

lemma terminateLocked_of_detached {r : Reason} (h : s.conn.didNotifyTerminated = false)
    (hp : s.conn.pcb = false) : terminateLocked r s = closeConn r s := by
  simp [terminateLocked, closeConn, h, hp]

lemma closeSucceeded_of_notified (h : s.conn.didNotifyTerminated = true) (hp : s.conn.pcb = false)
    (hc : s.conn.pendingClose = false) : closeSucceeded s = s := by
  have hs : { s with conn := { s.conn with pcb := false, pendingClose := false } } = s := by
    obtain ⟨_, _, _, conn, _⟩ := s
    cases conn
    simp_all
  rw [closeSucceeded, hs, terminateLocked_of_notified h]

lemma closeSucceeded_of_alive (h : s.conn.didNotifyTerminated = false) :
    closeSucceeded s = closeConn .close s := by
  simp [closeSucceeded, terminateLocked, closeConn, h]

lemma tcpFree_of_bare (h : s.hooks.ext = false) :
    tcpFree s = { s with pcb := none, hooks := detachedHooks false } := by
  simp [tcpFree, h]

lemma tcpFree_of_silent (h : s.hooks.ext = true)
    (hs : s.ref.object = false ∨ s.connExists = false ∨ s.conn.didNotifyTerminated = true) :
    tcpFree s = lwipFreed s := by
  rcases hs with hs | hs | hs <;>
    simp [tcpFree, h, tfTcpExtargDestroy, receivedPcbDestroyed, lwipFreed, hs]

lemma tcpFree_of_attached (h : Attached s) : tcpFree s = lwipFreed (closeConn .destroyed s) := by
  simp [tcpFree, tfTcpExtargDestroy, receivedPcbDestroyed, lwipFreed, terminateLocked, closeConn,
    Sys.postIf, h.hooks, h.ref, h.held, h.notified, attachedHooks]

lemma ended_tcpFree (h : Attached s) : Ended .destroyed s (tcpFree s) := by
  rw [tcpFree_of_attached h]
  constructor <;> simp [lwipFreed, closeConn, Sys.postIf]

/-- The reason that `tf_tcp_err` derives from the error code. -/
def errReason (err : Err) : Reason := if err = .rst then .reset else .abort

lemma eventErr_of_attached (h : Attached s) (err : Err) :
    eventErr s.hooks err s = closeConn (errReason err) (noteCall .err .conn s) := by
  simp [eventErr, noteCall, tfTcpErr, tfConnFromArg, terminateLocked, closeConn, errReason,
    h.hooks, h.ref, h.held, h.alive, h.notified, attachedHooks]

lemma ended_eventErr (h : Attached s) (err : Err) :
    Ended (errReason err) s (eventErr s.hooks err s) := by
  have hisSome := h.isSome
  rw [eventErr_of_attached h]
  constructor <;> simp [closeConn, Sys.postIf, noteCall, h.hooks, attachedHooks, hisSome]

lemma eventErr_of_silent {hooks : Hooks} {err : Err}
    (hs : hooks.arg ≠ .conn ∨ s.ref.object = false ∨ s.connExists = false ∨ s.conn.alive = false) :
    eventErr hooks err s = if hooks.errf then noteCall .err hooks.arg s else s := by
  unfold eventErr
  split_ifs with he
  · unfold noteCall
    rcases hs with hs | hs | hs |
      hs <;> simp [tfTcpErr, tfConnFromArg, hs] <;> split_ifs <;> simp_all
  · rfl

lemma eventErr_pcb (hooks : Hooks) (err : Err) (s : Sys P) :
    (eventErr hooks err s).pcb = s.pcb := by
  have hterm : ∀ (t : Sys P) (r : Reason), t.conn.pcb = false →
      (terminateLocked r t).pcb = t.pcb := by
    intro t r ht
    by_cases hn : t.conn.didNotifyTerminated = true
    · rw [terminateLocked_of_notified hn]
    · rw [terminateLocked_of_detached (by simpa using hn) ht]
      rfl
  unfold eventErr tfTcpErr noteCall
  split_ifs <;> first | rfl | exact hterm _ _ rfl

lemma releaseConnection_cases (s : Sys P) :
    releaseConnection s = s ∨
      (CBlock.accepted ∉ s.connectionsQueue ∧ (∀ b, PBlock.decision b ∉ s.packetsQueue) ∧
        releaseConnection s = { s with connExists := false, acceptPending := false }) := by
  unfold releaseConnection
  split_ifs with h
  · exact .inl rfl
  · push Not at h
    refine .inr ⟨h.1, fun b => ?_, rfl⟩
    cases b
    · exact h.2.1
    · exact h.2.2

/-- Freeing a pcb and then reporting the abort: the report changes nothing, because the bridge
object has been invalidated by then. -/
lemma freeThenErr_eq {gap : Bool} (h : s.hooks.ext = true ∨ s.hooks.arg ≠ .conn) :
    freeThenErr gap s =
      let t := if gap then releaseConnection (tcpFree s) else tcpFree s
      if s.hooks.errf then noteCall .err s.hooks.arg t else t := by
  have hrel : ∀ t : Sys P, (releaseConnection t).ref = t.ref := by
    intro t
    rcases releaseConnection_cases t with ht | ⟨-, -, ht⟩ <;> rw [ht]
  have href : s.hooks.ext = true → (tcpFree s).ref.object = false := by
    intro hext
    simp only [tcpFree, hext, if_true, tfTcpExtargDestroy, receivedPcbDestroyed, terminateLocked,
      clearCallbackLocked, Sys.postIf, Sys.callLwip]
    split_ifs <;> rfl
  unfold freeThenErr
  refine eventErr_of_silent ?_
  rcases h with h | h
  · right; left
    cases gap
    · exact href h
    · simpa [hrel] using href h
  · exact .inl h

def closingState (s : Sys P) : Sys P :=
  ({ s with conn := { s.conn with state := .closing } } : Sys P).callLwip .close id

lemma closingState_attached (h : Attached s) : Attached (closingState s) := by
  refine ⟨h.held, h.alive, h.pcb, h.notified, by simp [closingState, Sys.callLwip], ?_, h.hooks,
    h.ref⟩
  simpa [closingState, Sys.callLwip] using h.isSome

lemma attached_initWithTCPPcb (hp : s.pcb.isSome = true) : Attached (initWithTCPPcb s) := by
  constructor <;> simp [initWithTCPPcb, setupPcb, Sys.callLwip, newConn, hp]

section

variable [RawApi P]

lemma abortLocked_of_dead {r : Reason} (h : s.conn.alive = false) : abortLocked r s = s := by
  simp [abortLocked, h]

lemma abortLocked_of_attached (h : Attached s) (r : Reason) :
    abortLocked r s = lwipFreed (closeConn r ((s.callLwip .detach id).callLwip .abort id)) := by
  obtain ⟨pcb, hpcb⟩ := Option.isSome_iff_exists.1 h.isSome
  simp only [abortLocked, h.alive, h.state, clearCallbackLocked, h.pcb, tcpAbort, tcpAbandon, hpcb,
    Sys.callLwip, h.hooks, Bool.not_true, decide_false, Bool.or_self, Bool.false_eq_true, if_false,
      if_true,
    Option.map_some]
  split <;>
    simp [tcpFree, freeThenErr, detachedHooks, attachedHooks, tfTcpExtargDestroy, eventErr,
      terminateLocked, h.notified, lwipFreed, closeConn, Sys.postIf]

lemma ended_abortLocked (h : Attached s) (r : Reason) : Ended r s (abortLocked r s) := by
  rw [abortLocked_of_attached h]
  constructor <;> simp [lwipFreed, closeConn, Sys.postIf, Sys.callLwip]

/-- The outcomes of a close attempt: the pcb freed inside `tcp_close`, which the destroy callback
reports first; closed and left to lwIP; to be retried; or given up by an abort. -/
lemma tryGracefulCloseLocked_cases (h : Attached s) :
    (∃ pcb, s.pcb = some pcb ∧ RawApi.close pcb = .freed ∧
      tryGracefulCloseLocked s = lwipFreed (closeConn .destroyed (closingState s))) ∨
    (∃ pcb pcb', s.pcb = some pcb ∧ RawApi.close pcb = .returned pcb' .ok ∧
      tryGracefulCloseLocked s = closeConn .close { closingState s with pcb := some pcb' }) ∨
    (∃ pcb pcb', s.pcb = some pcb ∧ RawApi.close pcb = .returned pcb' .mem ∧
      tryGracefulCloseLocked s =
        { closingState s with
          pcb := some pcb', conn := { (closingState s).conn with pendingClose := true } }) ∨
    (∃ pcb pcb' err, s.pcb = some pcb ∧ RawApi.close pcb = .returned pcb' err ∧ err ≠ .ok ∧
      err ≠ .mem ∧
      tryGracefulCloseLocked s = abortLocked .abort { closingState s with pcb := some pcb' }) := by
  obtain ⟨pcb, hpcb⟩ := Option.isSome_iff_exists.1 h.isSome
  have hopen : (!s.conn.alive || decide (s.conn.state = .closed)) = false := by
    simp [h.alive, h.state]
  have hcl := closingState_attached h
  cases hc : RawApi.close pcb with
  | freed =>
    refine .inl ⟨pcb, hpcb, hc, ?_⟩
    have hfree : tcpFree (closingState s) = lwipFreed (closeConn .destroyed (closingState s)) :=
      tcpFree_of_attached hcl
    have hdone : closeSucceeded (tcpFree (closingState s)) = tcpFree (closingState s) := by
      rw [hfree]
      exact closeSucceeded_of_notified rfl rfl rfl
    rw [← hfree, ← hdone]
    simp [tryGracefulCloseLocked, hopen, h.pcb, hpcb, hc, closingState]
  | returned pcb' err =>
    right
    by_cases hok : err = .ok
    · subst hok
      refine .inl ⟨pcb, pcb', hpcb, hc, ?_⟩
      rw [← closeSucceeded_of_alive (by exact hcl.notified)]
      simp [tryGracefulCloseLocked, hopen, h.pcb, hpcb, hc, closingState, Sys.callLwip]
    · right
      by_cases hmem : err = .mem
      · subst hmem
        refine .inl ⟨pcb, pcb', hpcb, hc, ?_⟩
        simp [tryGracefulCloseLocked, hopen, h.pcb, hpcb, hc, closingState, Sys.callLwip]
      · refine .inr ⟨pcb, pcb', err, hpcb, hc, hok, hmem, ?_⟩
        cases err <;> first
          | exact absurd rfl hok
          | exact absurd rfl hmem
          | simp [tryGracefulCloseLocked, hopen, h.pcb, hpcb, hc, closingState, Sys.callLwip]

lemma ended_or_deferred_tryGracefulCloseLocked (h : Attached s) :
    (∃ r, Ended r s (tryGracefulCloseLocked s)) ∨
    ∃ pcb pcb', s.pcb = some pcb ∧ RawApi.close pcb = .returned pcb' .mem ∧
    tryGracefulCloseLocked s =
      { closingState s with pcb := some pcb', conn := { (closingState s).conn with
        pendingClose := true } } := by
  -- a close attempt ends the connection, or leaves it to be retried by the poll callback
  have hcl := closingState_attached h
  rcases tryGracefulCloseLocked_cases h with ⟨pcb, hpcb, -, heq⟩ | ⟨pcb, pcb', -, -, heq⟩ |
    ⟨pcb, pcb', hpcb, hmem, heq⟩ | ⟨pcb, pcb', err, -, -, -, -, heq⟩
  · refine .inl ⟨.destroyed, ?_⟩
    rw [heq]
    constructor <;> simp [lwipFreed, closeConn, Sys.postIf, closingState, Sys.callLwip]
  · refine .inl ⟨.close, ?_⟩
    rw [heq]
    constructor <;> simp [closeConn, Sys.postIf, closingState, Sys.callLwip]
  · exact .inr ⟨pcb, pcb', hpcb, hmem, heq⟩
  · refine .inl ⟨.abort, ?_⟩
    have hret : Attached { closingState s with pcb := some pcb' } :=
      ⟨hcl.held, hcl.alive, hcl.pcb, hcl.notified, hcl.state, rfl, hcl.hooks, hcl.ref⟩
    rw [heq, abortLocked_of_attached hret]
    constructor <;> simp [lwipFreed, closeConn, Sys.postIf, closingState, Sys.callLwip]

/-! ### Accepting -/

/-- The new connection, before the delegate is asked for. -/
def madeConnection (s : Sys P) : Sys P :=
  initWithTCPPcb (s.callLwip .backlogDelayed RawApi.backlogDelayed)

/-- The end of a connection that was made but has no delegate to go to: its pcb is aborted, which
reports the destruction, and the object goes. Whether the late err callback was made as well
depends on the state of the pcb. -/
def orphaned (calls : List (Callback × ℕ)) (s : Sys P) : Sys P :=
  let t := lwipFreed (closeConn .destroyed ((madeConnection s).callLwip .abort id))
  { t with connExists := false, log := { t.log with calls := calls } }

/-- `tunforge_accept` on a fresh pcb: refused because there is no stack, made and dropped again
because there is no delegate, or offered to the delegate. -/
lemma tunforgeAccept_cases (hf : s.hooks = openedHooks) (hp : s.pcb.isSome = true) :
    (s.env.stack = false ∧ tunforgeAccept s =
      ({ (s.callLwip .backlogDelayed RawApi.backlogDelayed).callLwip .abort id with
        pcb := none, hooks := detachedHooks false }, .abrt)) ∨
    (s.env.stack = true ∧ s.env.delegate = false ∧
      ∃ cs, (cs = [] ∨ cs = [(Callback.err, 1)]) ∧
        tunforgeAccept s = (orphaned (s.log.calls ++ cs) s, .abrt)) ∨
    (s.env.stack = true ∧ s.env.delegate = true ∧
      tunforgeAccept s = ((madeConnection s).post .accepted, .ok)) := by
  obtain ⟨pcb, hpcb⟩ := Option.isSome_iff_exists.1 hp
  cases hst : s.env.stack with
  | false =>
    refine .inl ⟨rfl, ?_⟩
    simp only [tunforgeAccept, Sys.callLwip, hst, tcpAbort, tcpAbandon, hpcb, Option.map_some,
      Bool.not_false, if_true]
    split_ifs <;> simp [tcpFree, freeThenErr, eventErr, hf, openedHooks]
  | true =>
    right
    have hmade : Attached (madeConnection s) :=
      attached_initWithTCPPcb (by simpa [Sys.callLwip] using hp)
    have henv : (madeConnection s).env = s.env := rfl
    cases hdel : s.env.delegate with
    | true =>
      refine .inr ⟨rfl, rfl, ?_⟩
      simp [tunforgeAccept, Sys.callLwip, hst, hdel, madeConnection, initWithTCPPcb, setupPcb]
    | false =>
      have hab : Attached ((madeConnection s).callLwip .abort id) :=
        ⟨hmade.held, hmade.alive, hmade.pcb, hmade.notified, hmade.state,
          by simpa [Sys.callLwip] using hmade.isSome, hmade.hooks, hmade.ref⟩
      have hacc : tunforgeAccept s = ({ tcpAbort (madeConnection s) with connExists := false },
        .abrt) := by
        simp [tunforgeAccept, Sys.callLwip, hst, hdel, madeConnection, initWithTCPPcb, setupPcb]
      have hpcb' : ((madeConnection s).callLwip .abort id).pcb =
          some (RawApi.backlogDelayed pcb) := by
        simp [madeConnection, initWithTCPPcb, setupPcb, Sys.callLwip, hpcb]
      refine .inl ⟨rfl, rfl, ?_⟩
      rw [hacc]
      simp only [tcpAbort, tcpAbandon, hpcb']
      split_ifs
      · refine ⟨[], .inl rfl, ?_⟩
        rw [tcpFree_of_attached hab]
        simp [orphaned, lwipFreed, closeConn, Sys.postIf, Sys.callLwip, madeConnection,
          initWithTCPPcb, setupPcb]
      · refine ⟨[(.err, 1)], .inr rfl, ?_⟩
        rw [freeThenErr_eq (.inl (by rw [hab.hooks]; rfl)), hab.hooks, tcpFree_of_attached hab]
        simp [orphaned, lwipFreed, closeConn, Sys.postIf, Sys.callLwip, madeConnection,
          initWithTCPPcb, setupPcb, attachedHooks, noteCall, Sys.owners]

lemma tunforgeAccept_made (hf : s.hooks = openedHooks) (hp : s.pcb.isSome = true)
    (hst : s.env.stack = true) (hdel : s.env.delegate = true) :
    (tunforgeAccept s).1 = (madeConnection s).post .accepted := by
  rcases tunforgeAccept_cases hf hp with ⟨h, -⟩ | ⟨-, h, -⟩ | ⟨-, -, h⟩
  · rw [hst] at h
    cases h
  · rw [hdel] at h
    cases h
  · rw [h]

end

end TunForge.Termination
