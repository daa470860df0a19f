import TunForge.SendOrder
import TunForge.SendOutputs

/-! Segments for the running stack and for the send engine: an application that takes the data it is
offered leaves the stack with the pcb that the send engine computes. -/
namespace TunForge.SendSegments
open SerialNumber PbufChain LwipTypes TcpOut TcpIn Tcp Connection Callbacks Stack
open PcbFrames CalmSteps InputCases ReceiveSteps SendOrder SendAgreement SendOutputs
open SendEngine (Sender Received)

variable {o : Platform} {x y z : State o}

/-- The stack has a pcb exactly as long as the send engine has a sender, and the pcb is the
sender's. -/
def Agree : Option (Pcb o) → Option (Sender o) → Prop
  | some p, some s => ∃ env, Shows env p s.pcb
  | none, none => True
  | _, _ => False

/-! ### Callbacks -/

/-- An active connection takes its data without copying, so nothing is acknowledged on the way. -/
def ZeroCopy (x : State o) : Prop :=
  x.conn.state = .active → x.conn.handlers.onReadableBytes = true

/-- The callbacks of a segment leave the pcb, and what they depend on, alone. -/
structure Unmoved (x y : State o) : Prop where
  pcb : y.pcb = x.pcb
  hooks : y.hooks = x.hooks
  state : y.conn.state = x.conn.state
  handlers : y.conn.handlers = x.conn.handlers

lemma Unmoved.refl (x : State o) : Unmoved x x := ⟨rfl, rfl, rfl, rfl⟩

lemma Unmoved.trans (h : Unmoved x y) (h' : Unmoved y z) : Unmoved x z :=
  ⟨h'.pcb.trans h.pcb, h'.hooks.trans h.hooks, h'.state.trans h.state, h'.handlers.trans h.handlers⟩

lemma ZeroCopy.unmoved (hz : ZeroCopy x) (h : Unmoved x y) : ZeroCopy y := by
  unfold ZeroCopy
  rw [h.state, h.handlers]
  exact hz

lemma unmoved_noteCall (cb : Callback) (arg : CallbackArg) (x : State o) :
    Unmoved x (noteCall cb arg x) := by
  unfold noteCall
  split_ifs
  · exact ⟨rfl, rfl, rfl, rfl⟩
  · exact .refl x

lemma unmoved_updateWritable (v : Bool) (x : State o) : Unmoved x (updateWritableLocked v x) := by
  unfold updateWritableLocked
  split_ifs
  · exact .refl x
  · exact ⟨rfl, rfl, rfl, rfl⟩

lemma unmoved_eventSent (len : ℕ) (x : State o) : Unmoved x (eventSent len x) := by
  have hnote := unmoved_noteCall .sent x.hooks.arg x
  unfold eventSent tfTcpSent
  split_ifs
  · exact hnote
  · exact (hnote.trans (unmoved_updateWritable _ _)).trans ⟨rfl, rfl, rfl, rfl⟩
  · exact .refl x

lemma unmoved_sentLoop (fuel acked : ℕ) (x : State o) : Unmoved x (sentLoop fuel acked x) := by
  induction fuel generalizing acked x with
  | zero => exact .refl x
  | succ fuel ih =>
    unfold sentLoop
    split_ifs
    · exact .refl x
    · exact (unmoved_eventSent _ x).trans (ih _ _)
    · exact unmoved_eventSent _ x

lemma unmoved_deliver (c : Pbuf) (h : x.conn.handlers.onReadableBytes = true) :
    Unmoved x (deliver c x) := by
  have hset : (updateInflightAckBytes c.totLen x).conn.handlers.onReadableBytes = true := h
  unfold deliver
  dsimp only
  rw [if_pos hset]
  split_ifs
  · exact ⟨rfl, rfl, rfl, rfl⟩
  · exact ⟨rfl, rfl, rfl, rfl⟩

lemma unmoved_tfTcpRecv (arg : CallbackArg) (c : Pbuf) (hz : ZeroCopy x) :
    Unmoved x (tfTcpRecv arg (some c) .ok x).1 := by
  unfold tfTcpRecv freeIfSome
  dsimp only
  split_ifs with hgone hok hempty hshut
  · exact ⟨rfl, rfl, rfl, rfl⟩
  · exact absurd rfl hok
  · exact ⟨rfl, rfl, rfl, rfl⟩
  · exact .refl x
  · refine unmoved_deliver c (hz ?_)
    unfold shouldAllowRecv at hshut
    simp only [Bool.not_eq_true, Bool.not_eq_false', Bool.and_eq_true, decide_eq_true_eq] at hshut
    exact hshut.1.2

lemma unmoved_eventRecv (hh : x.hooks.recv = .tf) (hz : ZeroCopy x) (c : Pbuf) :
    Unmoved x (eventRecv c x).1 := by
  have hnote := unmoved_noteCall .recv x.hooks.arg x
  have hrecv := unmoved_tfTcpRecv x.hooks.arg c (hz.unmoved hnote)
  unfold eventRecv
  rw [hh]
  exact hnote.trans ⟨hrecv.pcb, hrecv.hooks, hrecv.state, hrecv.handlers⟩

lemma offerData_pcb (fuel : ℕ) (c : Pbuf) {q : Pcb o} (hp : x.pcb = some q)
    (hrx : q.rxClosed = false) (hh : x.hooks.recv = .tf) (hz : ZeroCopy x) :
    Unmoved x (offerData fuel c x) ∨ ∃ r, (offerData fuel c x).pcb =
      some (setRefused (some r) q) := by
  induction fuel generalizing c x with
  | zero => exact .inl (.refl x)
  | succ fuel ih =>
    unfold offerData
    rw [hp]
    dsimp only
    rw [hrx, if_neg Bool.false_ne_true]
    have hrecv := unmoved_eventRecv hh hz (offerSplit o c).1
    generalize eventRecv (offerSplit o c).1 x = r at hrecv ⊢
    obtain ⟨y, err⟩ := r
    have hy : y.pcb = some q := hrecv.pcb.trans hp
    cases err with
    | ok =>
      dsimp only
      cases (offerSplit o c).2 with
      | none => exact .inl hrecv
      | some rest =>
        rcases ih rest hy (hrecv.hooks ▸ hh) (hz.unmoved hrecv) with h | h
        · exact .inl (hrecv.trans h)
        · exact .inr h
    | abrt => exact .inl hrecv
    | _ =>
      refine .inr ⟨⟨rejoin (offerSplit o c).1 (offerSplit o c).2, false⟩, ?_⟩
      simp only [modPcb, hy, Option.map_some]

/-! ### The end of `tcp_input` -/

lemma refused_of_kept {q : Pcb o} {r : Refused} (hp : y.pcb = some q)
    (hr : q.rx.refusedData = some r) (hcl : q.closed = false) (fin : Bool) :
    refused (finishInput (if fin ∧ y.pcb.isSome then handleFin y else y)) ≠ none := by
  have hout : ∀ q : Pcb o, (tcpOutput { q with inputPcb := false }).rx.refusedData =
    q.rx.refusedData :=
    fun q => congrArg Inbox.refusedData (same_tcpOutput ({ q with inputPcb := false } : Pcb o)).2
  have hfinish : ∀ (z : State o) (q : Pcb o), z.pcb = some q → q.closed = false →
      refused (finishInput z) = q.rx.refusedData := by
    intro z q hz hq
    rw [finishInput_of_open hz hq]
    simp [refused, modPcb, hz, hout]
  split_ifs
  · have hkept : (handleFin y).pcb = some (setRefused (some { r with fin := true }) q) := by
      simp [handleFin, refused, modPcb, hp, hr]
    rw [hfinish _ _ hkept hcl]
    exact Option.some_ne_none _
  · rw [hfinish y q hp hcl, hr]
    exact Option.some_ne_none r

/-- What the send engine makes of the outcome of `tcp_process`. -/
def afterProcess (r : Received o) : Option (Sender o) :=
  if r.gone ∨ (r.sender.pcb.rxClosed = true ∧ r.recvData ≠ none) then none
  else some (SendEngine.inputDone r)

lemma finishInput_pcb {q : Pcb o} (hp : y.pcb = some q) (hcl : q.closed = false)
    (href : q.rx.refusedData = none) {fin : Bool} (hh : fin = true → y.hooks.recv = .tf) :
    (finishInput (if fin ∧ y.pcb.isSome then handleFin y else y)).pcb =
      some (tcpOutput { (if fin then correctFin q else q) with inputPcb := false }) := by
  -- the FIN is announced and `tcp_input` ends, for a pcb without refused data
  cases fin with
  | false =>
    rw [if_neg (by simp), finishInput_of_open hp hcl]
    simp [modPcb, hp]
  | true =>
    have hnull : (modPcb correctFin y).hooks.recv ≠ .recvNull := by
      change y.hooks.recv ≠ .recvNull
      rw [hh rfl]
      exact RecvFn.noConfusion
    have hfin : (handleFin y).pcb = some (correctFin q) := by
      have hnone : refused y = none := by simp [refused, hp, href]
      unfold handleFin deliverFin
      rw [hnone]
      dsimp only
      rw [eventClosed_pcb hnull]
      simp [modPcb, hp]
    have hopen : (correctFin q).closed = false := by
      unfold correctFin
      split_ifs <;> exact hcl
    rw [if_pos ⟨rfl, by simp [hp]⟩, finishInput_of_open hfin hopen]
    simp [modPcb, hfin]

lemma agree_finishInput {s₀ : Sender o} {r : Processed o} {r' : Received o}
    (h : Heard (surroundings s₀ [settled r']) r r') (hp : y.pcb = some r.pcb)
    (hh : r.gotFin = true → y.hooks.recv = .tf)
    (href : refused (finishInput (if r.gotFin ∧ y.pcb.isSome then handleFin y else y)) = none) :
    Agree (finishInput (if r.gotFin ∧ y.pcb.isSome then handleFin y else y)).pcb
      (some (SendEngine.inputDone r')) := by
  have hcl : r.pcb.closed = false := by
    obtain ⟨⟨⟨t, b, heq⟩, -, -⟩, -, -, -⟩ := h
    rw [heq]
  cases hr : r.pcb.rx.refusedData with
  | some d => exact absurd href (refused_of_kept hp hr hcl r.gotFin)
  | none =>
    rw [finishInput_pcb hp hcl hr hh]
    exact ⟨_, (tuned_inputDone h (foretells_surroundings s₀ (settled r') [])).shows⟩

lemma offered_of_rxClosed {q : Pcb o} (hp : y.pcb = some q) (hrx : q.rxClosed = true) {c : Pbuf}
    (hc : c.cells ≠ []) : (offered (some c) y).pcb = none := by
  have hab : offered (some c) y = tcpAbandon y.env.releaseInGap y := by
    obtain ⟨n, hn⟩ := Nat.exists_eq_succ_of_ne_zero (List.length_pos_of_ne_nil hc).ne'
    unfold offered Pbuf.clen
    dsimp only
    rw [hn]
    unfold offerData
    simp [hp, hrx]
  rw [hab]
  exact tcpAbandon_pcb (by simp [hp])

lemma agree_offered {s₀ : Sender o} {r : Processed o} {r' : Received o}
    (h : Heard (surroundings s₀ [settled r']) r r') (hstays : r'.gone = false)
    (hp : y.pcb = some r.pcb) (hh : y.hooks.recv = .tf ∨ (r.recvData = none ∧ r.gotFin = false))
    (hz : ZeroCopy y) (hne : ∀ c, r.recvData = some c → c.cells ≠ [])
    (href : refused (finishInput (if r.gotFin ∧ (offered r.recvData y).pcb.isSome then
      handleFin (offered r.recvData y) else offered r.recvData y)) = none) :
    Agree (finishInput (if r.gotFin ∧ (offered r.recvData y).pcb.isSome then
      handleFin (offered r.recvData y) else offered r.recvData y)).pcb (afterProcess r') := by
  -- what the segment brought is offered to the application
  have hrx : r'.sender.pcb.rxClosed = r.pcb.rxClosed := by
    obtain ⟨⟨⟨t, b, heq⟩, -, -⟩, -, -, -⟩ := h
    rw [heq]
  have hcl : r.pcb.closed = false := by
    obtain ⟨⟨⟨t, b, heq⟩, -, -⟩, -, -, -⟩ := h
    rw [heq]
  cases hd : r.recvData with
  | none =>
    have hgo : afterProcess r' = some (SendEngine.inputDone r') :=
      if_neg (by simp [hstays, ← h.recvData, hd])
    rw [hd] at href
    rw [hgo]
    refine agree_finishInput h hp (fun hfin => ?_) href
    exact hh.resolve_right fun hno => by simp [hno.2] at hfin
  | some c =>
    have htf : y.hooks.recv = .tf := hh.resolve_right fun hno => by simp [hd] at hno
    rw [hd] at href
    by_cases hclosed : r.pcb.rxClosed = true
    · have hnone := offered_of_rxClosed hp hclosed (hne c hd)
      have hgo : afterProcess r' = none :=
        if_pos (.inr ⟨hrx.trans hclosed, by simp [← h.recvData, hd]⟩)
      rw [hgo, if_neg (by simp [hnone]), finishInput_of_none hnone, hnone]
      trivial
    · have hgo : afterProcess r' = some (SendEngine.inputDone r') :=
        if_neg (by simp [hstays, hrx, hclosed])
      rw [hgo]
      rcases offerData_pcb c.clen c hp (by simpa using hclosed) htf hz with hmoved | ⟨d, hkept⟩
      · exact agree_finishInput h (hmoved.pcb.trans hp) (fun _ => hmoved.hooks ▸ htf) href
      · exact absurd href (refused_of_kept hkept rfl hcl r.gotFin)

lemma cells_of_processing {q : Pcb o} {seg : Segment} {r : Processed o} (h : Processing q seg r)
    (hr : r.reset = false) (hcl : r.pcb.closed = false) {c : Pbuf} (hc : r.recvData = some c) :
    c.cells ≠ [] := by
  cases h with
  | text b hseq _ hd => exact Pbuf.cells_ne_nil_of_size (hseq.size (hd ▸ hc))
  | reset _ _ hreset =>
    rw [hr] at hreset
    cases hreset
  | finished _ _ _ _ hclosed =>
    rw [hcl] at hclosed
    cases hclosed
  | noted _ hd | queued _ _ _ hd | purged _ _ _ hd =>
    rw [hd] at hc
    cases hc

lemma agree_inputTail {s₀ : Sender o} {r : Processed o} {r' : Received o}
    (h : Ends (surroundings s₀ [settled r']) r r')
    (hh : x.hooks.recv = .tf ∨ (r.recvData = none ∧ r.gotFin = false)) (hz : ZeroCopy x)
    (hproc : r.recvData = none ∨ ∃ q seg, Processing (o := o) q seg r)
    (href : refused (inputTail r x) = none) : Agree (inputTail r x).pcb (afterProcess r') := by
  -- `tcp_input` after `tcp_process`, if nothing is left refused
  have hsent := unmoved_sentLoop r.recvAcked r.recvAcked ({ x with pcb := some r.pcb } : State o)
  rcases h with ⟨hgone, hends⟩ | ⟨hstays, hreset, hheard⟩
  · have hnone : (inputTail r x).pcb = none := by
      by_cases hreset : r.reset = true
      · simp only [inputTail, hreset, if_true]
        rfl
      · have hclosed := hends.resolve_left hreset
        rw [inputTail_eq (by simpa using hreset)]
        dsimp only
        rw [if_pos (by simp [closeRequested, hsent.pcb, hclosed])]
        rfl
    rw [hnone, afterProcess, if_pos (.inl hgone)]
    trivial
  · have hcl : r.pcb.closed = false := by
      obtain ⟨⟨⟨t, b, heq⟩, -, -⟩, -, -, -⟩ := hheard
      rw [heq]
    rw [inputTail_eq hreset] at href ⊢
    dsimp only at href ⊢
    rw [if_neg (by simp [closeRequested, hsent.pcb, hcl])] at href ⊢
    refine agree_offered hheard hstays hsent.pcb ?_ (ZeroCopy.unmoved ?_ hsent)
      (fun c hc => ?_) href
    · rw [hsent.hooks]
      exact hh
    · exact hz
    · rcases hproc with hnone | ⟨q, seg, hproc⟩
      · rw [hnone] at hc
        cases hc
      · exact cells_of_processing hproc hreset hcl hc

/-! ### Segments -/

section Segments

variable {p : Pcb o} {s : Sender o}

lemma tcpInput_unrefused (hp : y.pcb = some p) (hl : p.list = .active)
    (href : p.rx.refusedData = none) (seg : Segment) : tcpInput seg y = inputActive p seg y := by
  have hnone : tcpProcessRefusedData y = y := by simp [tcpProcessRefusedData, refused, hp, href]
  simp [tcpInput, hp, hl, hnone, href]

lemma tuned_entering {env : Env} (h : Tuned env p s.pcb) :
    Tuned env (atInput p) (entering s).pcb := by
  obtain ⟨⟨t, b, rfl⟩, hm, hr⟩ := h
  exact ⟨⟨t, b, rfl⟩, hm, hr⟩

lemma completesHandshake_eq {env : Env} {q : Pcb o} (h : Tuned env p q) (seg : Segment) :
    completesHandshake p seg = completesHandshake q seg := by
  unfold completesHandshake
  rw [h.state_eq, h.tx_eq]

lemma tuned_accepted {env : Env} (seg : Segment) (h : Tuned env (atInput p) (entering s).pcb) :
    Tuned (o := o) env { tcpBacklogDelayed (atAccept p seg) with state := .established }
      { (SendEngine.preamble (entering s) seg).pcb with state := .established } := by
  obtain ⟨⟨t, b, heq⟩, hm, hr⟩ := (h.noteActivity seg).setState .established
  have hback : ∃ b', ({ tcpBacklogDelayed (atAccept p seg) with state := .established } : Pcb o) =
      { ({ noteActivity (atInput p) seg with state := .established } : Pcb o) with
        backlogPend := b' } := by
    unfold tcpBacklogDelayed
    split_ifs
    · exact ⟨true, rfl⟩
    · exact ⟨_, rfl⟩
  obtain ⟨b', hback⟩ := hback
  rw [hback, heq]
  exact ⟨⟨t, b', rfl⟩, hm, hr⟩

lemma agree_accept {seg : Segment} (hw : Wf y) (hp : y.pcb = some p) (hrst : seg.rst = false)
    (hc : completesHandshake (atInput p) seg = true)
    (ht : Tuned (surroundings s [settled (SendEngine.tcpProcess (entering s) seg)]) p s.pcb)
    (haccept : (y.env.stack && y.env.delegate) = true)
    (href : refused (acceptAndProcess (noteActivity (atInput p) seg) seg y) = none) :
    Agree (acceptAndProcess (noteActivity (atInput p) seg) seg y).pcb
      (afterProcess (SendEngine.tcpProcess (entering s) seg)) := by
  -- the segment that completes the handshake, if there is a stack with a delegate to accept
  have ht' := tuned_entering ht
  have hst : p.state = .synRcvd := by
    simp only [completesHandshake, Bool.and_eq_true, decide_eq_true_eq] at hc
    exact hc.1.1.1
  have hsyn : seg.syn = false := by
    simp only [completesHandshake, Bool.and_eq_true, Bool.not_eq_true'] at hc
    exact hc.1.1.2
  have hlis : (SendEngine.preamble (entering s) seg).pcb.listener = p.listener := by
    have hsame : p.listener = s.pcb.listener := by
      obtain ⟨⟨t, b, rfl⟩, -, -⟩ := ht
      rfl
    rw [hsame]
    exact congrArg Core.listener (core_noteActivity (entering s).pcb seg)
  rw [tcpProcess_of_completes hrst ((completesHandshake_eq ht' seg).symm.trans hc)] at ht' ⊢
  rcases acceptAndProcess_cases hw seg hp hst with ⟨hl, heq⟩ | ⟨-, hno, -⟩ | ⟨hl, -, -, heq⟩
  · rw [heq]
    unfold SendEngine.processEstablished afterProcess
    rw [hlis, hl]
    trivial
  · rw [haccept] at hno
    cases hno
  · rw [heq] at href ⊢
    obtain ⟨hstays, hheard⟩ := heard_processEstablished (tuned_accepted seg ht') rfl
      (hlis.trans hl) seg
    have hreset := reset_processEstablished (tcpBacklogDelayed (atAccept p seg)) seg
    refine agree_inputTail (.inr ⟨hstays, hreset, hheard⟩) (.inl rfl) ?_
      (.inr ⟨tcpBacklogDelayed (atAccept p seg), seg, ?_⟩) href
    · intro hactive
      cases hactive
    · have hcore : core (tcpBacklogDelayed (atAccept p seg)) = core (atAccept p seg) := by
        unfold tcpBacklogDelayed
        split_ifs <;> rfl
      rw [core_atAccept] at hcore
      exact processing_processEstablished hsyn (congrArg Core.state hcore)
        (congrArg Core.closed hcore)

lemma fresh_silent (seg : Segment) (hst : p.state = .synRcvd) :
    (tcpProcess (atInput p) seg).recvData = none ∧ (tcpProcess (atInput p) seg).gotFin = false := by
  have hne : (atInput p).state ≠ .synSent := by
    change p.state ≠ .synSent
    rw [hst]
    exact TcpState.noConfusion
  rcases tcpProcess_cases seg hne with ⟨-, -, q, heq, -⟩ | ⟨q, w, heq, -, -⟩ | ⟨-, -, hrec, -⟩
  · rw [heq]
    exact ⟨rfl, rfl⟩
  · rw [heq]
    exact ⟨rfl, rfl⟩
  · exact absurd hst hrec.live.2.2.2.1

lemma agree_tcpInput {seg : Segment} (hw : Wf y) (hp : y.pcb = some p)
    (hfree : p.rx.refusedData = none)
    (ht : Tuned (surroundings s (outputsOf s (.segment seg))) p s.pcb) (hz : ZeroCopy y)
    (haccept : (y.env.stack && y.env.delegate) = true) (href : refused (tcpInput seg y) = none) :
    Agree (tcpInput seg y).pcb (SendEngine.tcpInput seg s) := by
  have hok := hw.pcb p hp
  have hlist : s.pcb.list = p.list := by
    obtain ⟨⟨t, b, heq⟩, -, -⟩ := ht
    rw [heq]
  have hidle : s.pcb.inputPcb = false := by
    obtain ⟨⟨t, b, heq⟩, -, -⟩ := ht
    have hin := hok.input
    rw [heq] at hin
    exact hin
  unfold outputsOf at ht
  unfold SendEngine.tcpInput
  rw [hlist] at ht ⊢
  rcases hok.listed with ⟨hl, -⟩ | ⟨hl, -⟩
  · rw [hl] at ht ⊢
    rw [tcpInput_unrefused hp hl hfree, inputActive_eq] at href ⊢
    change Agree _ (afterProcess (SendEngine.tcpProcess (entering s) seg))
    by_cases hc : (!seg.rst && completesHandshake (atInput p) seg) = true
    · rw [if_pos hc] at href ⊢
      rw [Bool.and_eq_true, Bool.not_eq_true'] at hc
      exact agree_accept hw hp hc.1 hc.2 ht haccept href
    · rw [if_neg hc] at href ⊢
      have ht' := tuned_entering ht
      rw [Bool.not_eq_true, completesHandshake_eq ht'] at hc
      have hends := ends_tcpProcess ht' rfl hc
      by_cases hst : p.state = .synRcvd
      · have hsilent := fresh_silent seg hst
        exact agree_inputTail hends (.inr hsilent) hz (.inl hsilent.1) href
      · refine agree_inputTail hends (.inl ?_) hz (.inr ⟨p, seg, ?_⟩) href
        · rw [hw.hooks_of_taken hp hst]
          rfl
        · exact processing_tcpProcess seg (hok.receives hl hst)
  · rw [hl] at ht ⊢
    rw [tcpInput_timeWait seg hp hl]
    have hprep : Prepared s (timewaitOutputs seg s ++ []) p s.pcb := by
      rw [List.append_nil]
      exact ⟨_, ht, fun _ => rfl⟩
    obtain ⟨env, hdone, -⟩ := hprep.timewaitInput seg hidle
    have hpcb : (modPcb (tcpTimewaitInput · seg) y).pcb = some (tcpTimewaitInput p seg) := by
      simp [modPcb, hp]
    rw [hpcb]
    exact ⟨env, hdone.shows⟩

end Segments

end TunForge.SendSegments
