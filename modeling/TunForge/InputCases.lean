import TunForge.CalmSteps

/-! What one incoming segment can come to, for a well-formed stack. -/
namespace TunForge.InputCases
open SerialNumber PbufChain LwipTypes TcpOut TcpIn Tcp Connection Callbacks Stack
open Boundary Termination OrdinarySteps BoundaryRule PcbFrames CalmSteps

variable {o : Platform} {s t u : State o}

/-- A pcb between two steps: no input is in progress, its list agrees with its state, and it is in
`SYN_RCVD` exactly while nobody has taken it, with nothing received yet. -/
structure PcbOk (hooks : Hooks) (pcb : Pcb o) : Prop where
  input : pcb.inputPcb = false
  live : pcb.state ≠ .closed ∧ pcb.state ≠ .listen ∧ pcb.state ≠ .synSent
  listed : (pcb.list = .active ∧ pcb.state ≠ .timeWait) ∨
    (pcb.list = .timeWait ∧ pcb.state = .timeWait)
  fresh : hooks = openedHooks ↔ pcb.state = .synRcvd
  unread : pcb.state = .synRcvd → pcb.rxClosed = false ∧ pcb.rx.refusedData = none ∧
    pcb.closePend = false

/-- A well-formed stack: the connection is coherent, the pcb in order, and only `gracefulClose`,
after which the connection is over, closes the receiving side. -/
structure Wf (s : State o) : Prop where
  coherent : Coherent s
  pcb : ∀ pcb, s.pcb = some pcb → PcbOk s.hooks pcb
  rxClosed : ∀ pcb, s.pcb = some pcb → pcb.rxClosed = true → Unattended s

lemma PcbOk.of_core {hooks : Hooks} {p q : Pcb o} (h : PcbOk hooks p) (hc : core q = core p)
    (hr : q.rx.refusedData = p.rx.refusedData) : PcbOk hooks q := by
  obtain ⟨h1, h2, h3, h4, h5⟩ := h
  rw [← state_of_core hc] at h2 h3 h4 h5
  rw [← list_of_core hc] at h3
  rw [← rxClosed_of_core hc, ← hr, ← closePend_of_core hc] at h5
  exact ⟨(inputPcb_of_core hc).trans h1, h2, h3, h4, h5⟩

lemma PcbOk.active {hooks : Hooks} {pcb : Pcb o} (h : PcbOk hooks pcb) (hl : pcb.list = .active) :
    pcb.state ≠ .timeWait := by
  rcases h.listed with ⟨-, hs⟩ | ⟨hl', -⟩
  · exact hs
  · rw [hl] at hl'
    cases hl'

lemma PcbOk.receives {hooks : Hooks} {pcb : Pcb o} (h : PcbOk hooks pcb) (hl : pcb.list = .active)
    (hs : pcb.state ≠ .synRcvd) : Receives pcb := by
  have htw := h.active hl
  have hlive := h.live
  unfold Receives
  cases hst : pcb.state <;> simp_all

lemma Wf.hooks_of_taken (h : Wf s) {pcb : Pcb o} (hpcb : s.pcb = some pcb)
    (hs : pcb.state ≠ .synRcvd) :
    s.hooks = attachedHooks := by
  rcases h.coherent.hooked with hh | hh | ⟨-, hnone⟩
  · exact absurd (((h.pcb pcb hpcb).fresh).1 hh) hs
  · exact hh
  · simp [hpcb] at hnone

lemma Wf.taken (h : Wf s) {pcb : Pcb o} (hpcb : s.pcb = some pcb) (hs : pcb.state ≠ .synRcvd) :
    Taken s :=
  ⟨by simp [hpcb], by simp [h.hooks_of_taken hpcb hs, attachedHooks]⟩

lemma steady_pcb (h : Steady s t) {p : Pcb o} (hp : s.pcb = some p) :
    ∃ q, t.pcb = some q ∧ core q = core p := by
  have hcore := h.core
  rw [hp] at hcore
  cases hq : t.pcb with
  | none => simp [hq] at hcore
  | some q => exact ⟨q, rfl, by simpa [hq] using hcore⟩

/-! ### After `tcp_process` -/

lemma freeThenErr_pcb (gap : Bool) (s : State o) : (freeThenErr gap s).pcb = none := by
  have hrel : ∀ u : State o, (releaseConnection u).pcb = u.pcb := by
    intro u
    rcases releaseConnection_cases u with h | ⟨-, -, h⟩ <;> rw [h]
  simp only [freeThenErr, eventErr_pcb]
  split_ifs
  · rw [hrel]; rfl
  · rfl

lemma tcpAbandon_pcb {gap : Bool} (hs : s.pcb.isSome = true) : (tcpAbandon gap s).pcb = none := by
  obtain ⟨pcb, hpcb⟩ := Option.isSome_iff_exists.1 hs
  simp only [tcpAbandon, hpcb]
  split_ifs
  · rfl
  · exact freeThenErr_pcb gap s

/-- The data a segment brought, offered to the application. -/
def offered (recvData : Option Pbuf) (s : State o) : State o :=
  match recvData with
  | none => s
  | some p => offerData p.clen p s

lemma inputTail_eq {r : Processed o} (h : r.reset = false) : inputTail r s =
    let s₁ := sentLoop r.recvAcked r.recvAcked ({ s with pcb := some r.pcb } : State o)
    if closeRequested s₁ then delayedClose s₁
    else
      let s₂ := offered r.recvData s₁
      finishInput (if r.gotFin ∧ s₂.pcb.isSome then handleFin s₂ else s₂) := by
  simp only [inputTail, h, Bool.false_eq_true, if_false]
  rfl

lemma offered_cases (recvData : Option Pbuf) {pcb : Pcb o} (hs : Taken s)
    (hpcb : s.pcb = some pcb) :
    Calm s (offered recvData s) ∨
    (pcb.rxClosed = true ∧ recvData.isSome = true ∧
      offered recvData s = tcpAbandon s.env.releaseInGap s) := by
  -- an open pcb is offered its data calmly; a pcb closed for receiving is abandoned over it
  cases recvData with
  | none => exact .inl (.refl s)
  | some p =>
    by_cases hrx : pcb.rxClosed = true
    · cases hc : p.clen with
      | zero =>
        refine .inl ?_
        simp only [offered, hc]
        exact .refl s
      | succ n =>
        refine .inr ⟨hrx, rfl, ?_⟩
        simp only [offered, hc]
        unfold offerData
        simp [hpcb, hrx]
    · refine .inl (calm_offerData _ p hs fun q hq => ?_)
      rw [hpcb] at hq
      cases hq
      simpa using hrx

lemma modPcb_of_none {f : Pcb o → Pcb o} (h : s.pcb = none) : modPcb f s = s := by
  unfold modPcb
  rw [h]
  obtain ⟨_, _⟩ := s
  simp_all

lemma finishInput_of_none (h : s.pcb = none) : finishInput s = s := by
  unfold finishInput
  rw [modPcb_of_none h]
  simp [closeRequested, h, modPcb_of_none]

lemma finishInput_of_open {pcb : Pcb o} (hpcb : s.pcb = some pcb) (hc : pcb.closed = false) :
    finishInput s = modPcb tcpOutput (modPcb (fun pcb => { pcb with inputPcb := false }) s) := by
  unfold finishInput
  rw [if_neg]
  simp [closeRequested, modPcb, hpcb, hc]

/-- How `tcp_input` goes on after `tcp_process`, for a taken pcb: it obeys a reset, carries out
the end of the connection, abandons a pcb that gets data after it was closed, or talks calmly to
the connection and sends what is due. -/
lemma inputTail_cases {r : Processed o} (hs : s.hooks.recv ≠ .recvNull) :
    let u : State o := { s with pcb := some r.pcb }
    (r.reset = true ∧ inputTail r s = removeAndFree (eventErr u.hooks .rst u)) ∨
    (r.reset = false ∧ r.pcb.closed = true ∧ ∃ v, Calm u v ∧ inputTail r s = delayedClose v) ∨
    (r.reset = false ∧ r.pcb.rxClosed = true ∧ r.recvData.isSome = true ∧
      ∃ v, Calm u v ∧ inputTail r s = tcpAbandon v.env.releaseInGap v) ∨
    (r.reset = false ∧ r.pcb.closed = false ∧ ∃ v, Calm u v ∧
      inputTail r s = modPcb tcpOutput (modPcb (fun pcb => { pcb with inputPcb := false }) v)) := by
  intro u
  have hu : Taken u := ⟨rfl, hs⟩
  by_cases hreset : r.reset = true
  · exact .inl ⟨hreset, by simp [inputTail, hreset, u]⟩
  right
  have hreset' : r.reset = false := by simpa using hreset
  have hsent : Calm u (sentLoop r.recvAcked r.recvAcked u) := calm_sentLoop _ _ hu
  rw [inputTail_eq hreset']
  generalize hv : sentLoop r.recvAcked r.recvAcked u = v at hsent
  have hst := hsent.steady hu
  have htv := hst.taken hu
  obtain ⟨q, hq, hcore⟩ := steady_pcb hst (p := r.pcb) rfl
  have hrx := rxClosed_of_core hcore
  have hcl := closed_of_core hcore
  have hclose : closeRequested v = r.pcb.closed := by simp [closeRequested, hq, hcl]
  simp only [u] at hv
  simp only [hclose]
  by_cases hc : r.pcb.closed = true
  · exact .inl ⟨hreset', hc, v, hsent, by simp [hc]⟩
  right
  have hc' : r.pcb.closed = false := by simpa using hc
  simp only [hc', Bool.false_eq_true, if_false]
  rcases offered_cases r.recvData htv hq with hoff | ⟨hrxc, hdata, hoff⟩
  · refine .inr ⟨hreset', trivial, ?_⟩
    have hfin : Calm u (if r.gotFin ∧
        (offered r.recvData v).pcb.isSome then handleFin (offered r.recvData v)
        else offered r.recvData v) := by
      split_ifs
      · exact (hsent.trans hoff).trans (calm_handleFin ((hoff.steady htv).taken htv))
      · exact hsent.trans hoff
    obtain ⟨q', hq', hcore'⟩ := steady_pcb (hfin.steady hu) (p := r.pcb) rfl
    exact ⟨_, hfin, finishInput_of_open hq' ((closed_of_core hcore').trans hc')⟩
  · refine .inl ⟨hreset', hrx ▸ hrxc, hdata, v, hsent, ?_⟩
    have hnone : (tcpAbandon v.env.releaseInGap v).pcb = none := tcpAbandon_pcb htv.isSome
    rw [hoff, if_neg (by simp [hnone]), finishInput_of_none hnone]

/-! ### Whole segments -/

/-- The pcb as `tcp_input` hands it to `tcp_process`. -/
def atInput (pcb : Pcb o) : Pcb o := { pcb with inputPcb := true, closed := false }

lemma receives_atInput {p q : Pcb o} (hcore : core q = core p) (h : Receives p) :
    Receives (atInput q) := by
  have hst : (atInput q).state = p.state := congrArg Core.state hcore
  unfold Receives at h ⊢
  rwa [hst]

lemma inputActive_eq (pcb : Pcb o) (seg : Segment) (s : State o) : inputActive pcb seg s =
    if (!seg.rst && completesHandshake (atInput pcb) seg) = true then
      acceptAndProcess (noteActivity (atInput pcb) seg) seg s
    else inputTail (tcpProcess (atInput pcb) seg) s := rfl

lemma tcpInput_timeWait {pcb : Pcb o} (seg : Segment) (hpcb : s.pcb = some pcb)
    (hl : pcb.list = .timeWait) :
    tcpInput seg s = modPcb (tcpTimewaitInput · seg) s := by
  simp [tcpInput, hpcb, hl]

/-- A segment for a pcb that has been taken: while data stays refused one with text is dropped,
and otherwise it is processed. -/
lemma tcpInput_taken (hw : Wf s) {pcb : Pcb o} (seg : Segment) (hpcb : s.pcb = some pcb)
    (hl : pcb.list = .active) (hs : pcb.state ≠ .synRcvd) :
    ∃ q, (tcpProcessRefusedData s).pcb = some q ∧ core q = core pcb ∧
      ((q.rx.refusedData.isSome = true ∧ 0 < seg.tcplen ∧ tcpInput seg s =
          modPcb (fun pcb => if pcb.rx.rcvAnnWnd = 0 then tcpSendEmptyAck pcb else pcb)
            (tcpProcessRefusedData s)) ∨
        (¬(q.rx.refusedData.isSome = true ∧ 0 < seg.tcplen) ∧
          tcpInput seg s = inputTail (tcpProcess (atInput q) seg) (tcpProcessRefusedData s))) := by
  have htaken := hw.taken hpcb hs
  have hcalm : Calm s (tcpProcessRefusedData s) := calm_tcpProcessRefusedData htaken.recv
  obtain ⟨q, hq, hcore⟩ := steady_pcb (hcalm.steady htaken) hpcb
  have hst : q.state = pcb.state := (state_of_core hcore)
  refine ⟨q, hq, hcore, ?_⟩
  by_cases hd : q.rx.refusedData.isSome = true ∧ 0 < seg.tcplen
  · refine .inl ⟨hd.1, hd.2, ?_⟩
    simp only [tcpInput, hpcb, hl, hq]
    rw [if_pos hd]
  · refine .inr ⟨hd, ?_⟩
    have hno : completesHandshake (atInput q) seg = false := by
      simp [completesHandshake, atInput, hst, hs]
    simp only [tcpInput, hpcb, hl, hq]
    rw [if_neg hd]
    rw [inputActive_eq, hno]
    simp

def atAccept (pcb : Pcb o) (seg : Segment) : Pcb o :=
  tcpBacklogAccepted { noteActivity (atInput pcb) seg with state := .established }

lemma core_atAccept (pcb : Pcb o) (seg : Segment) :
    core (atAccept pcb seg) = { core pcb with
      state := .established, inputPcb := true, closed := false } := by
  change { core (noteActivity (atInput pcb) seg) with state := .established } = _
  rw [core_noteActivity]
  rfl

lemma core_processEstablished {pcb : Pcb o} (seg : Segment) (h : pcb.state = .established) :
    ∃ st, (st = .established ∨ st = .closeWait) ∧
      core (processEstablished pcb seg).pcb = { core pcb with state := st } := by
  have heq : ({ pcb with state := .established } : Pcb o) = pcb := by
    obtain ⟨_, _⟩ := pcb
    simp_all
  unfold processEstablished
  rw [heq]
  dsimp only
  rcases core_tcpReceive pcb seg with hc | ⟨-, hf, hc⟩
  · split_ifs
    · exact ⟨.closeWait, .inr rfl, by rw [← hc]; rfl⟩
    · exact ⟨.established, .inl rfl, by rw [hc, ← h]; rfl⟩
  · rw [if_pos hf]
    refine ⟨.closeWait, .inr rfl, ?_⟩
    change { core (tcpReceive pcb seg).pcb with state := .closeWait } = _
    rw [hc]

lemma reset_tcpReceive (pcb : Pcb o) (seg : Segment) : (tcpReceive pcb seg).reset = false := by
  simp only [tcpReceive, tcpReceiveText]
  split_ifs <;> rfl

lemma reset_processEstablished (pcb : Pcb o) (seg : Segment) :
    (processEstablished pcb seg).reset = false := by
  unfold processEstablished
  dsimp only
  split_ifs <;> exact reset_tcpReceive _ _

/-- A segment for a pcb nobody has taken: it completes the handshake, resets it, or is only
noted. -/
lemma tcpInput_fresh (hw : Wf s) {pcb : Pcb o} (seg : Segment) (hpcb : s.pcb = some pcb)
    (hs : pcb.state = .synRcvd) :
    (seg.rst = false ∧ completesHandshake (atInput pcb) seg = true ∧
      tcpInput seg s = acceptAndProcess (noteActivity (atInput pcb) seg) seg s) ∨
    (∃ q, tcpInput seg s = removeAndFree { s with pcb := some q }) ∨
    (∃ (q : Pcb o) (w : ℕ), tcpProcess (atInput pcb) seg = { pcb := q } ∧
      core q = core (atInput pcb) ∧ inbox q = { inbox pcb with rcvWnd := w } ∧
      (w = pcb.rx.rcvWnd ∨ w = o.tcpWnd) ∧
      tcpInput seg s = { s with pcb := some (tcpOutput { q with inputPcb := false }) }) := by
  have hok := hw.pcb pcb hpcb
  have hl : pcb.list = .active := by
    rcases hok.listed with ⟨hl, -⟩ | ⟨-, ht⟩
    · exact hl
    · rw [hs] at ht
      cases ht
  have hhooks : s.hooks = openedHooks := hok.fresh.2 hs
  have href : pcb.rx.refusedData = none := (hok.unread hs).2.1
  have hproc : tcpProcessRefusedData s = s := by simp [tcpProcessRefusedData, refused, hpcb, href]
  have hin : tcpInput seg s = inputActive pcb seg s := by simp [tcpInput, hpcb, hl, hproc, href]
  rw [hin, inputActive_eq]
  by_cases hc : (!seg.rst && completesHandshake (atInput pcb) seg) = true
  · rw [if_pos hc]
    rw [Bool.and_eq_true, Bool.not_eq_true'] at hc
    exact .inl ⟨hc.1, hc.2, rfl⟩
  rw [if_neg hc]
  right
  have hsyn : (atInput pcb).state ≠ .synSent := by simp [atInput, hs]
  rcases tcpProcess_cases seg hsyn with
    ⟨-, -, q, heq, -⟩ | ⟨q, w, heq, hcore, hinb, hw'⟩ | ⟨-, -, hrec, -⟩
  · refine .inl ⟨q, ?_⟩
    rw [heq]
    simp [inputTail, eventErr, hhooks, openedHooks]
  · refine .inr ⟨q, w, heq, hcore, hinb, hw'.imp_right And.right, ?_⟩
    have hcl : q.closed = false := (closed_of_core hcore)
    rw [heq, inputTail_eq rfl]
    simp only [sentLoop, offered, closeRequested, Option.any_some, hcl, Bool.false_eq_true,
      false_and, if_false]
    rw [finishInput_of_open rfl hcl]
    simp [modPcb, hcl]
  · simp [Receives, atInput, hs] at hrec

/-- The segment that completes the handshake: without a listener, a stack or a delegate the pcb
is given up; otherwise the connection is made and the segment goes on as an established one's. -/
lemma acceptAndProcess_cases (hw : Wf s) {pcb : Pcb o} (seg : Segment) (hpcb : s.pcb = some pcb)
    (hs : pcb.state = .synRcvd) :
    let pcb' := noteActivity (atInput pcb) seg
    let u : State o := { s with pcb := some (atAccept pcb seg) }
    (pcb.listener = false ∧
      acceptAndProcess pcb' seg s = { s with pcb := none, hooks := detachedHooks false }) ∨
    (pcb.listener = true ∧ (s.env.stack && s.env.delegate) = false ∧
      acceptAndProcess pcb' seg s = (tunforgeAccept u).1) ∨
    (pcb.listener = true ∧ s.env.stack = true ∧ s.env.delegate = true ∧
      acceptAndProcess pcb' seg s =
        inputTail (processEstablished (tcpBacklogDelayed (atAccept pcb seg)) seg)
          ((madeConnection u).post .accepted)) := by
  intro pcb' u
  have hhooks : s.hooks = openedHooks := (hw.pcb pcb hpcb).fresh.2 hs
  have hlis : pcb'.listener = pcb.listener :=
    congrArg Core.listener (core_noteActivity (atInput pcb) seg)
  cases hl : pcb.listener with
  | false =>
    refine .inl ⟨rfl, ?_⟩
    unfold acceptAndProcess
    rw [hlis, hl]
    simp [tcpAbandon, RawApi.inTimeWait, freeThenErr, tcpFree, eventErr, hhooks, openedHooks]
  | true =>
    right
    have hu : ({ s with pcb := some (tcpBacklogAccepted { pcb' with state := .established }) } :
      State o) = u := rfl
    unfold acceptAndProcess
    rw [if_neg (by simp [hlis, hl]), hu]
    rcases tunforgeAccept_cases (s := u) hhooks rfl with
      ⟨hst, heq⟩ | ⟨hst, hdel, cs, -, heq⟩ | ⟨hst, hdel, heq⟩ <;> rw [heq]
    · refine .inl ⟨rfl, ?_, rfl⟩
      have hst' : s.env.stack = false := hst
      simp [hst']
    · refine .inl ⟨rfl, ?_, rfl⟩
      have hdel' : s.env.delegate = false := hdel
      simp [hdel']
    · exact .inr ⟨rfl, hst, hdel, rfl⟩

end TunForge.InputCases
