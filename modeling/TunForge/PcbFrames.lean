import TunForge.Tcp

/-! What the operations on a pcb leave alone: its place in the protocol, and the
received data it holds. -/
namespace TunForge.PcbFrames
open SerialNumber PbufChain LwipTypes TcpOut TcpIn Tcp

variable {o : Platform}

/-- Where a pcb stands: its state and list, and the flags that decide about its end. -/
structure Core where
  state : TcpState
  list : PcbList
  listener : Bool
  rxClosed : Bool
  inputPcb : Bool
  closed : Bool
  closePend : Bool

def core (pcb : Pcb o) : Core :=
  ⟨pcb.state, pcb.list, pcb.listener, pcb.rxClosed, pcb.inputPcb, pcb.closed, pcb.closePend⟩

/-- The received data a pcb holds, with its place in the sequence space and the window. -/
structure Inbox where
  rcvNxt : Seq
  rcvWnd : ℕ
  ooseq : List RxSeg
  refusedData : Option Refused

def inbox (pcb : Pcb o) : Inbox := ⟨pcb.rx.rcvNxt, pcb.rx.rcvWnd, pcb.rx.ooseq, pcb.rx.refusedData⟩

def Same (p q : Pcb o) : Prop := core q = core p ∧ inbox q = inbox p

lemma Same.refl (p : Pcb o) : Same p p := ⟨rfl, rfl⟩

lemma Same.trans {p q r : Pcb o} (h : Same p q) (h' : Same q r) : Same p r :=
  ⟨h'.1.trans h.1, h'.2.trans h.2⟩

section

variable {p q : Pcb o} (h : core q = core p)
include h

lemma state_of_core : q.state = p.state := congrArg Core.state h

lemma list_of_core : q.list = p.list := congrArg Core.list h

lemma listener_of_core : q.listener = p.listener := congrArg Core.listener h

lemma rxClosed_of_core : q.rxClosed = p.rxClosed := congrArg Core.rxClosed h

lemma inputPcb_of_core : q.inputPcb = p.inputPcb := congrArg Core.inputPcb h

lemma closed_of_core : q.closed = p.closed := congrArg Core.closed h

lemma closePend_of_core : q.closePend = p.closePend := congrArg Core.closePend h

end

lemma same_tcpSendEmptyAck (pcb : Pcb o) : Same pcb (tcpSendEmptyAck pcb) := by
  unfold tcpSendEmptyAck
  split_ifs <;> exact ⟨rfl, rfl⟩

lemma same_tcpAckNow (pcb : Pcb o) : Same pcb (tcpAckNow pcb) := ⟨rfl, rfl⟩

lemma same_tcpAck (pcb : Pcb o) : Same pcb (tcpAck pcb) := by
  unfold tcpAck
  split_ifs <;> exact ⟨rfl, rfl⟩

lemma same_tcpOutput (pcb : Pcb o) : Same pcb (tcpOutput pcb) := by
  unfold tcpOutput outputNow
  split_ifs
  · exact .refl pcb
  · exact ⟨rfl, rfl⟩
  · exact same_tcpSendEmptyAck pcb
  · exact ⟨rfl, rfl⟩
  · exact ⟨rfl, rfl⟩
  · exact ⟨rfl, rfl⟩

lemma same_tcpEnqueueFlags (pcb : Pcb o) (syn fin : Bool) :
    Same pcb (tcpEnqueueFlags pcb syn fin).1 := by
  unfold tcpEnqueueFlags
  split_ifs <;> exact ⟨rfl, rfl⟩

lemma same_tcpSendFin (pcb : Pcb o) : Same pcb (tcpSendFin pcb).1 := by
  unfold tcpSendFin
  split
  · split_ifs
    · exact ⟨rfl, rfl⟩
    · exact same_tcpEnqueueFlags pcb false true
  · exact same_tcpEnqueueFlags pcb false true

lemma same_tcpWrite (pcb : Pcb o) (data : Bytes) : Same pcb (tcpWrite pcb data).1 := by
  unfold tcpWrite
  split
  · dsimp only
    split
    · exact ⟨rfl, rfl⟩
    · split <;> exact ⟨rfl, rfl⟩
  · exact ⟨rfl, rfl⟩
  · exact .refl pcb

lemma tcpSplitUnsentSeg_cases (keep split : ℕ) (pcb : Pcb o) :
    (tcpSplitUnsentSeg keep split pcb).1 = pcb ∨
      ∃ useg rest, pcb.tx.unsent = useg :: rest ∧ 0 < split ∧ split < useg.data.length ∧
        pcb.env.mem = true ∧ tcpSplitUnsentSeg keep split pcb =
          ({ pcb with tx := splitFirst keep split useg rest pcb.tx }, .ok) := by
  -- a split does nothing, or it replaces the first unsent segment by two
  unfold tcpSplitUnsentSeg
  cases hu : pcb.tx.unsent with
  | nil => exact .inl rfl
  | cons useg rest =>
    dsimp only
    by_cases h0 : split = 0
    · exact .inl (by rw [if_pos h0])
    by_cases h1 : useg.data.length ≤ split
    · exact .inl (by rw [if_neg h0, if_pos h1])
    cases hmem : pcb.env.mem with
    | false => exact .inl (by rw [if_neg h0, if_neg h1]; rfl)
    | true =>
      refine .inr ⟨useg, rest, rfl, Nat.pos_of_ne_zero h0, not_le.1 h1, rfl, ?_⟩
      rw [if_neg h0, if_neg h1]
      rfl

lemma same_tcpSplitUnsentSeg (keep split : ℕ) (pcb : Pcb o) :
    Same pcb (tcpSplitUnsentSeg keep split pcb).1 := by
  rcases tcpSplitUnsentSeg_cases keep split pcb with heq | ⟨useg, rest, -, -, -, -, heq⟩
  · rw [heq]
    exact .refl pcb
  · rw [heq]
    exact ⟨rfl, rfl⟩

lemma tcpZeroWindowProbe_eq (pcb : Pcb o) : ∃ edge nxt, (tcpZeroWindowProbe pcb).1 =
    { pcb with
      rx := { pcb.rx with rcvAnnRightEdge := edge }
      tx := { pcb.tx with sndNxt := nxt } } := by
  unfold tcpZeroWindowProbe
  split
  · exact ⟨_, _, rfl⟩
  · split_ifs
    · exact ⟨_, _, rfl⟩
    · exact ⟨_, _, rfl⟩
    · exact ⟨_, _, rfl⟩

lemma same_tcpZeroWindowProbe (pcb : Pcb o) : Same pcb (tcpZeroWindowProbe pcb).1 := by
  obtain ⟨edge, nxt, heq⟩ := tcpZeroWindowProbe_eq pcb
  rw [heq]
  exact ⟨rfl, rfl⟩

lemma same_persistFire (keep : ℕ) (pcb : Pcb o) : Same pcb (persistFire keep pcb) := by
  unfold persistFire
  split_ifs
  · exact same_tcpZeroWindowProbe pcb
  · have hsplit := same_tcpSplitUnsentSeg keep (pcb.tx.sndWnd % 2 ^ 16) pcb
    generalize tcpSplitUnsentSeg keep (pcb.tx.sndWnd % 2 ^ 16) pcb = res at hsplit
    obtain ⟨q, err⟩ := res
    cases err with
    | ok => exact hsplit.trans (same_tcpOutput q)
    | _ => exact hsplit

lemma same_tcpBacklogDelayed (pcb : Pcb o) : Same pcb (tcpBacklogDelayed pcb) := by
  unfold tcpBacklogDelayed
  split_ifs <;> exact ⟨rfl, rfl⟩

lemma same_tcpReceiveAck (pcb : Pcb o) (seg : Segment) : Same pcb (tcpReceiveAck pcb seg).1 := by
  simp only [tcpReceiveAck]
  split_ifs
  · exact ⟨rfl, rfl⟩
  · exact ⟨rfl, rfl⟩
  · exact ⟨rfl, rfl⟩
  · exact same_tcpSendEmptyAck _
  · exact .refl pcb

lemma same_tcpTimewaitInput (pcb : Pcb o) (seg : Segment) :
    Same pcb (tcpTimewaitInput pcb seg) := by
  simp only [tcpTimewaitInput]
  split_ifs
  · exact .refl pcb
  · exact .refl pcb
  · exact same_tcpOutput (tcpAckNow _)
  · exact same_tcpOutput (tcpAckNow _)
  · exact ⟨rfl, rfl⟩
  · exact .refl pcb

lemma core_tcpParseopt (pcb : Pcb o) (seg : Segment) : core (tcpParseopt pcb seg) = core pcb := by
  unfold tcpParseopt
  cases seg.mss <;> cases seg.wndScale <;> simp only <;> try rfl
  all_goals split_ifs <;> rfl

/-- Options leave the received data alone, except that the first window scale option sets the
window back to its maximum. -/
lemma rx_tcpParseopt (pcb : Pcb o) (seg : Segment) :
    ∃ w, (w = pcb.rx.rcvWnd ∨ w = o.tcpWnd) ∧
    inbox (tcpParseopt pcb seg) = { inbox pcb with rcvWnd := w } := by
  unfold tcpParseopt
  by_cases hc : (o.lwipWndScale && seg.syn && !pcb.wndScale) = true
  · cases seg.mss <;> cases seg.wndScale <;> simp only [hc, if_true]
    · exact ⟨_, .inl rfl, rfl⟩
    · exact ⟨_, .inr rfl, rfl⟩
    · exact ⟨_, .inl rfl, rfl⟩
    · exact ⟨_, .inr rfl, rfl⟩
  · refine ⟨_, .inl rfl, ?_⟩
    cases seg.mss <;> cases seg.wndScale <;> simp only [hc] <;> rfl

lemma inbox_tcpParseopt (pcb : Pcb o) {seg : Segment} (h : seg.syn = false) :
    inbox (tcpParseopt pcb seg) = inbox pcb := by
  unfold tcpParseopt
  rw [h]
  cases seg.mss <;> cases seg.wndScale <;> simp <;> rfl

lemma core_noteActivity (pcb : Pcb o) (seg : Segment) : core (noteActivity pcb seg) = core pcb := by
  unfold noteActivity
  rw [core_tcpParseopt]
  split_ifs <;> rfl

lemma rx_noteActivity (pcb : Pcb o) (seg : Segment) :
    ∃ w, (w = pcb.rx.rcvWnd ∨ w = o.tcpWnd) ∧
    inbox (noteActivity pcb seg) = { inbox pcb with rcvWnd := w } := by
  unfold noteActivity
  split_ifs
  · exact rx_tcpParseopt pcb seg
  · exact rx_tcpParseopt ({ pcb with tmr := pcb.ticks } : Pcb o) seg

lemma inbox_noteActivity (pcb : Pcb o) {seg : Segment} (h : seg.syn = false) :
    inbox (noteActivity pcb seg) = inbox pcb := by
  unfold noteActivity
  rw [inbox_tcpParseopt _ h]
  split_ifs <;> rfl

lemma tcpUpdateRcvAnnWnd_eq (mss : ℕ) (rx : Rx) :
    ∃ w, (tcpUpdateRcvAnnWnd o mss rx).1 = { rx with rcvAnnWnd := w } := by
  simp only [tcpUpdateRcvAnnWnd]
  split_ifs
  · exact ⟨_, rfl⟩
  · exact ⟨_, rfl⟩
  · exact ⟨_, rfl⟩

def creditedWnd (pcb : Pcb o) (len : ℕ) : ℕ :=
  let wnd := (pcb.rx.rcvWnd + len) % o.wndMod
  if pcb.wndMax < wnd ∨ wnd < pcb.rx.rcvWnd then pcb.wndMax else wnd

lemma tcpRecved_eq (pcb : Pcb o) (len : ℕ) : tcpRecved pcb len =
    let r := tcpUpdateRcvAnnWnd o pcb.mss { pcb.rx with rcvWnd := creditedWnd pcb len }
    if tcpWndUpdateThreshold o ≤ r.2 then tcpOutput (tcpAckNow { pcb with rx := r.1 })
    else { pcb with rx := r.1 } :=
  rfl

lemma tcpRecved_frame (pcb : Pcb o) (len : ℕ) : core (tcpRecved pcb len) = core pcb ∧
    inbox (tcpRecved pcb len) = { inbox pcb with rcvWnd := creditedWnd pcb len } := by
  obtain ⟨w, hw⟩ := tcpUpdateRcvAnnWnd_eq (o := o) pcb.mss { pcb.rx with
    rcvWnd := creditedWnd pcb len }
  rw [tcpRecved_eq]
  simp only [hw]
  split_ifs
  · have hout := same_tcpOutput (o := o) (tcpAckNow
      { pcb with rx := { pcb.rx with rcvWnd := creditedWnd pcb len, rcvAnnWnd := w } })
    exact ⟨hout.1, hout.2⟩
  · exact ⟨rfl, rfl⟩

lemma core_dropStaleOoseq (pcb : Pcb o) : core (dropStaleOoseq pcb) = core pcb := by
  unfold dropStaleOoseq
  split_ifs <;> rfl

/-! ### Closing the sending side -/

lemma inbox_tcpCloseShutdownFin (pcb : Pcb o) : inbox (tcpCloseShutdownFin pcb) = inbox pcb := by
  have hsame := same_tcpSendFin pcb
  unfold tcpCloseShutdownFin
  split
  · rfl
  · split
    · next hs =>
      rw [hs] at hsame
      rw [(same_tcpOutput _).2]
      split_ifs <;> exact hsame.2
    · next hs =>
      rw [hs] at hsame
      exact hsame.2

/-- Closing the sending side moves the state along `closeTarget`, or leaves it and perhaps the
FIN pending. -/
lemma core_tcpCloseShutdownFin (pcb : Pcb o) :
    (∃ b, core (tcpCloseShutdownFin pcb) = { core pcb with closePend := b }) ∨
    ∃ st, closeTarget pcb.state = some st ∧ core (tcpCloseShutdownFin pcb) = { core pcb with
      state := st } := by
  have hsame := same_tcpSendFin pcb
  unfold tcpCloseShutdownFin
  split
  · exact .inl ⟨pcb.closePend, rfl⟩
  · next st hst =>
    split
    · next hs =>
      rw [hs] at hsame
      refine .inr ⟨st, hst, ?_⟩
      rw [(same_tcpOutput _).1, ← hsame.1]
      split_ifs <;> rfl
    · next hs =>
      rw [hs] at hsame
      refine .inl ⟨true, ?_⟩
      rw [← hsame.1]
      rfl

/-! ### The state machine -/

lemma gotFin_drainOoseq {mss : ℕ} (segs : List RxSeg) (st : InSeq)
    (h : st.queuedFin = true → st.gotFin = true) :
    (drainOoseq o mss st segs).queuedFin = true → (drainOoseq o mss st segs).gotFin = true := by
  induction segs generalizing st with
  | nil => exact h
  | cons seg rest ih =>
    unfold drainOoseq
    split_ifs
    · refine ih _ ?_
      simp only [Bool.or_eq_true]
      exact Or.imp_left h
    · exact h

lemma gotFin_receiveInSequence {mss : ℕ} {rx : Rx} {inseg : RxSeg}
    (h : (receiveInSequence o mss rx inseg).queuedFin = true) :
    (receiveInSequence o mss rx inseg).gotFin = true := by
  revert h
  unfold receiveInSequence
  dsimp only
  exact gotFin_drainOoseq _ _ (by simp)

lemma core_tcpReceiveText (pcb : Pcb o) (seg : Segment) :
    core (tcpReceiveText pcb seg).pcb = core pcb ∨
    (pcb.state = .established ∧ (tcpReceiveText pcb seg).gotFin = true ∧
      core (tcpReceiveText pcb seg).pcb = { core pcb with state := .closeWait }) := by
  have hack : ∀ q : Pcb o, core
      (if lt (trimFirstEdge pcb.rx.rcvNxt seg).seqno pcb.rx.rcvNxt then tcpAckNow q else q)
      = core q := by
    intro q
    split_ifs <;> rfl
  unfold tcpReceiveText
  dsimp only
  generalize hq : (if lt (trimFirstEdge pcb.rx.rcvNxt seg).seqno pcb.rx.rcvNxt then tcpAckNow pcb
    else pcb) = q
  have hcore : core q = core pcb := by rw [← hq, hack]
  have hstate : q.state = pcb.state := (state_of_core hcore)
  split_ifs with hb hin hfin
  · refine .inr ⟨hstate ▸ hfin.2, gotFin_receiveInSequence hfin.1, ?_⟩
    rw [(same_tcpAck _).1, ← hcore]
    rfl
  · refine .inl ?_
    rw [(same_tcpAck _).1, ← hcore]
    rfl
  · refine .inl ?_
    rw [(same_tcpSendEmptyAck _).1, ← hcore]
    rfl
  · refine .inl ?_
    rw [(same_tcpSendEmptyAck _).1, ← hcore]

lemma core_tcpReceive (pcb : Pcb o) (seg : Segment) : core (tcpReceive pcb seg).pcb = core pcb ∨
    (pcb.state = .established ∧ (tcpReceive pcb seg).gotFin = true ∧
      core (tcpReceive pcb seg).pcb = { core pcb with state := .closeWait }) := by
  have hsame := same_tcpReceiveAck pcb seg
  have hstate := (state_of_core hsame.1)
  unfold tcpReceive
  dsimp only
  split_ifs
  · rcases core_tcpReceiveText (tcpReceiveAck pcb seg).1 seg with h | ⟨h1, h2, h3⟩
    · exact .inl (h.trans hsame.1)
    · refine .inr ⟨hstate ▸ h1, h2, ?_⟩
      rw [← hsame.1]
      exact h3
  · exact .inl hsame.1
  · exact .inl hsame.1

lemma gotFin_tcpReceive {pcb : Pcb o} {seg : Segment} (h : (tcpReceive pcb seg).gotFin = true) :
    pcb.state.rank < TcpState.rank .closeWait := by
  have hstate := (state_of_core (same_tcpReceiveAck pcb seg).1)
  revert h
  unfold tcpReceive
  dsimp only
  split_ifs with hc
  · intro _
    rw [← hstate]
    exact hc.2
  · simp
  · simp

/-- The acknowledgement in `seg` completes what we sent, our FIN included. -/
def ourFinAcked (pcb : Pcb o) (seg : Segment) : Bool := finAcked (tcpReceive pcb seg).pcb seg

/-- The moves between states in which a pcb stays on the active list. -/
inductive Advance : TcpState → TcpState → Prop
  | stay (st : TcpState) : Advance st st
  | peerFin : Advance .established .closeWait
  | bothFin : Advance .finWait1 .closing
  | finAcked : Advance .finWait1 .finWait2

/-- The segment closes the second direction, so the pcb goes to `TIME_WAIT`. -/
def ClosesBoth (pcb : Pcb o) (seg : Segment) : Prop :=
  (pcb.state = .finWait2 ∧ (tcpReceive pcb seg).gotFin = true) ∨
  (pcb.state = .finWait1 ∧ (tcpReceive pcb seg).gotFin = true ∧ ourFinAcked pcb seg = true) ∨
  (pcb.state = .closing ∧ ourFinAcked pcb seg = true)

lemma core_enterTimeWait (pcb : Pcb o) :
    core (enterTimeWait pcb) = { core pcb with state := .timeWait, list := .timeWait } := by
  unfold enterTimeWait tcpPcbPurge tcpBacklogAccepted
  split_ifs <;> rfl

lemma inbox_enterTimeWait {pcb : Pcb o}
    (h : pcb.state ≠ .closed ∧ pcb.state ≠ .timeWait ∧ pcb.state ≠ .listen) :
    inbox (enterTimeWait pcb) = { inbox pcb with ooseq := [], refusedData := none } := by
  unfold enterTimeWait tcpPcbPurge
  rw [if_pos h]
  rfl

/-- The states in which `tcp_process` hands a segment to `tcp_receive`. -/
def Receives (pcb : Pcb o) : Prop :=
  pcb.state = .established ∨ pcb.state = .closeWait ∨ pcb.state = .finWait1 ∨
    pcb.state = .finWait2 ∨
  pcb.state = .closing ∨ pcb.state = .lastAck

lemma Receives.live {pcb : Pcb o} (h : Receives pcb) : pcb.state ≠ .closed ∧ pcb.state ≠ .listen ∧
    pcb.state ≠ .synSent ∧ pcb.state ≠ .synRcvd ∧ pcb.state ≠ .timeWait := by
  rcases h with h | h | h | h | h | h <;> simp [h]

lemma Receives.advance {p q : Pcb o} (h : Receives p) (ha : Advance p.state q.state) :
    Receives q := by
  unfold Receives at h ⊢
  generalize p.state = a at h ha
  generalize q.state = b at ha
  cases ha <;> simp_all

/-- What `tcp_process` makes of a segment it hands to `tcp_receive`: the pcb advances on the
active list, enters `TIME_WAIT` with all it still held purged, or is done. -/
lemma processState_cases {pcb : Pcb o} (seg : Segment) (h : Receives pcb) :
    ∃ q, processState pcb seg = { tcpReceive pcb seg with pcb := q } ∧
      ((∃ st, Advance pcb.state st ∧ core q = { core pcb with state := st } ∧
          inbox q = inbox (tcpReceive pcb seg).pcb ∧
          ((tcpReceive pcb seg).gotFin = true → st = .closeWait ∨ st = .closing)) ∨
        (ClosesBoth pcb seg ∧ core q = { core pcb with state := .timeWait, list := .timeWait } ∧
          inbox q = { inbox (tcpReceive pcb seg).pcb with ooseq := [], refusedData := none }) ∨
        (pcb.state = .lastAck ∧ ourFinAcked pcb seg = true ∧
          core q = { core pcb with closed := true } ∧
          inbox q = inbox (tcpReceive pcb seg).pcb)) := by
  have hrec := core_tcpReceive pcb seg
  have hrank := @gotFin_tcpReceive _ pcb seg
  have hkeep : pcb.state ≠ .established → core (tcpReceive pcb seg).pcb = core pcb := by
    intro hne
    rcases hrec with h | ⟨h, -⟩
    · exact h
    · exact absurd h hne
  unfold ClosesBoth ourFinAcked
  revert hrec hrank hkeep
  unfold Receives at h
  generalize hr : tcpReceive pcb seg = r
  intro hrec hrank hkeep
  have hset : ∀ st, core ({ tcpAckNow r.pcb with state := st } : Pcb o) = { core pcb with
    state := st } := by
    intro st
    rcases hrec with h | ⟨-, -, h⟩
    · rw [← h]; rfl
    · change { core r.pcb with state := st } = _
      rw [h]
  have hlive : pcb.state ≠ .established → r.pcb.state = pcb.state :=
    fun hne => (state_of_core (hkeep hne))
  -- the pcb enters `TIME_WAIT` from a state that is neither closed, listening nor `TIME_WAIT`
  have htw : pcb.state ≠ .established → pcb.state ≠ .closed ∧ pcb.state ≠ .timeWait ∧
      pcb.state ≠ .listen →
      ∀ p : Pcb o, Same r.pcb p →
        core (enterTimeWait p) = { core pcb with state := .timeWait, list := .timeWait } ∧
        inbox (enterTimeWait p) = { inbox r.pcb with ooseq := [], refusedData := none } := by
    intro hne hp p hsame
    have hst : p.state = pcb.state := (state_of_core hsame.1).trans (hlive hne)
    rw [core_enterTimeWait, hsame.1, hkeep hne, inbox_enterTimeWait (hst ▸ hp), hsame.2]
    exact ⟨rfl, rfl⟩
  rcases h with hs | hs | hs | hs | hs | hs <;> simp only [processState, hs, hr]
  · by_cases hf : r.gotFin = true
    · rw [if_pos hf]
      exact ⟨_, rfl, .inl ⟨.closeWait, .peerFin, hset _, rfl, fun _ => .inl rfl⟩⟩
    · rw [if_neg hf]
      refine ⟨r.pcb, rfl, .inl ⟨.established, .stay _, ?_, rfl, fun h => absurd h hf⟩⟩
      rcases hrec with h | ⟨-, h, -⟩
      · rw [h, ← hs]; rfl
      · exact absurd h hf
  · have hf : ¬ r.gotFin = true := fun hf => by simpa [hs, TcpState.rank] using hrank hf
    rw [if_neg hf]
    exact ⟨r.pcb, rfl, .inl ⟨.closeWait, .stay _, by rw [hkeep (by simp [hs]), ← hs]; rfl, rfl,
      fun _ => .inl rfl⟩⟩
  · by_cases hf : r.gotFin = true
    · rw [if_pos hf]
      by_cases ha : finAcked r.pcb seg = true
      · rw [if_pos ha]
        refine ⟨_, rfl, .inr (.inl ⟨.inr (.inl ⟨trivial, hf, ha⟩), ?_⟩)⟩
        exact htw (by simp [hs]) (by simp [hs]) _ (same_tcpAckNow _)
      · rw [if_neg ha]
        exact ⟨_, rfl, .inl ⟨.closing, .bothFin, hset _, rfl, fun _ => .inr rfl⟩⟩
    · rw [if_neg hf]
      by_cases ha : finAcked r.pcb seg = true
      · rw [if_pos ha]
        exact ⟨_, rfl, .inl ⟨.finWait2, .finAcked, hset _, rfl, fun h => absurd h hf⟩⟩
      · rw [if_neg ha]
        exact ⟨r.pcb, rfl, .inl ⟨.finWait1, .stay _, by rw [hkeep (by simp [hs]), ← hs]; rfl, rfl,
          fun h => absurd h hf⟩⟩
  · by_cases hf : r.gotFin = true
    · rw [if_pos hf]
      refine ⟨_, rfl, .inr (.inl ⟨.inl ⟨trivial, hf⟩, ?_⟩)⟩
      exact htw (by simp [hs]) (by simp [hs]) _ (same_tcpAckNow _)
    · rw [if_neg hf]
      exact ⟨r.pcb, rfl, .inl ⟨.finWait2, .stay _, by rw [hkeep (by simp [hs]), ← hs]; rfl, rfl,
        fun h => absurd h hf⟩⟩
  · by_cases ha : finAcked r.pcb seg = true
    · rw [if_pos ha]
      refine ⟨_, rfl, .inr (.inl ⟨.inr (.inr ⟨trivial, ha⟩), ?_⟩)⟩
      exact htw (by simp [hs]) (by simp [hs]) _ (.refl _)
    · rw [if_neg ha]
      exact ⟨r.pcb, rfl, .inl ⟨.closing, .stay _, by rw [hkeep (by simp [hs]), ← hs]; rfl, rfl,
        fun _ => .inr rfl⟩⟩
  · have hcore := hkeep (by simp [hs])
    by_cases ha : finAcked r.pcb seg = true
    · rw [if_pos ha]
      exact ⟨_, rfl, .inr (.inr ⟨trivial, ha, by rw [← hcore]; rfl, rfl⟩)⟩
    · rw [if_neg ha]
      have hf : ¬ r.gotFin = true := fun hf => by simpa [hs, TcpState.rank] using hrank hf
      exact ⟨r.pcb, rfl, .inl ⟨.lastAck, .stay _, by rw [hcore, ← hs]; rfl, rfl,
        fun h => absurd h hf⟩⟩

lemma receives_noteActivity {pcb : Pcb o} (seg : Segment) (h : Receives pcb) :
    Receives (noteActivity pcb seg) := by
  have hst := (state_of_core (core_noteActivity pcb seg))
  unfold Receives at h ⊢
  rwa [hst]

/-- What `tcp_process` does with a segment: obey a reset, note it at most, or process its
acknowledgement and text. -/
lemma tcpProcess_cases {pcb : Pcb o} (seg : Segment) (h : pcb.state ≠ .synSent) :
    (seg.rst = true ∧ resetAcceptable pcb seg = true ∧
      ∃ q, tcpProcess pcb seg = { pcb := q, reset := true } ∧ Same pcb q) ∨
    (∃ q w, tcpProcess pcb seg = { pcb := q } ∧ core q = core pcb ∧
      inbox q = { inbox pcb with rcvWnd := w } ∧
      (w = pcb.rx.rcvWnd ∨ (pcb.state = .synRcvd ∧ w = o.tcpWnd))) ∨
    (seg.rst = false ∧ seg.syn = false ∧ Receives pcb ∧
      tcpProcess pcb seg = processState (noteActivity pcb seg) seg) := by
  have hcore := core_noteActivity pcb seg
  have hst := (state_of_core hcore)
  unfold tcpProcess
  split_ifs with hrst hacc hin hsyn
  · exact .inl ⟨hrst, hacc, _, rfl, rfl, rfl⟩
  · exact .inr (.inl ⟨_, _, rfl, rfl, rfl, .inl rfl⟩)
  · exact .inr (.inl ⟨_, _, rfl, rfl, rfl, .inl rfl⟩)
  · exact .inr (.inl ⟨_, _, rfl, rfl, rfl, .inl rfl⟩)
  · by_cases hrec : Receives pcb
    · refine .inr (.inr ⟨by simpa using hrst, ?_, hrec, rfl⟩)
      by_contra hs
      refine hsyn ⟨by simpa using hs, h, ?_⟩
      rintro hr
      simp [Receives, hr] at hrec
    · refine .inr (.inl ?_)
      by_cases hr : pcb.state = .synRcvd
      · have hr' : (noteActivity pcb seg).state = .synRcvd := hst.trans hr
        obtain ⟨w, hw, hin⟩ := rx_noteActivity pcb seg
        have hw' : w = pcb.rx.rcvWnd ∨ (pcb.state = .synRcvd ∧ w = o.tcpWnd) :=
          hw.imp_right fun h => ⟨hr, h⟩
        unfold processState
        rw [hr']
        dsimp only
        split_ifs
        · refine ⟨{ noteActivity pcb seg with tx := tcpRexmit (noteActivity pcb seg).tx }, w, ?_,
            hcore, hin, hw'⟩
          simp [hr']
        · exact ⟨_, w, rfl, hcore, hin, hw'⟩
      · have hns : seg.syn = false := by
          by_contra hs
          exact hsyn ⟨by simpa using hs, h, hr⟩
        refine ⟨noteActivity pcb seg, _, ?_, hcore, inbox_noteActivity pcb hns, .inl rfl⟩
        unfold Receives at hrec
        unfold processState
        split <;> simp_all

lemma place_tcpProcess {pcb : Pcb o} (seg : Segment) (h : Receives pcb) :
    ((tcpProcess pcb seg).pcb.rxClosed = pcb.rxClosed ∧
      (tcpProcess pcb seg).pcb.listener = pcb.listener ∧
      (tcpProcess pcb seg).pcb.inputPcb = pcb.inputPcb) ∧
    (((tcpProcess pcb seg).pcb.list = pcb.list ∧ (tcpProcess pcb seg).pcb.closed = pcb.closed ∧
        Advance pcb.state (tcpProcess pcb seg).pcb.state) ∨
      ((tcpProcess pcb seg).pcb.list = .timeWait ∧ (tcpProcess pcb seg).pcb.closed = pcb.closed ∧
        (tcpProcess pcb seg).pcb.state = .timeWait ∧ ClosesBoth (noteActivity pcb seg) seg) ∨
      ((tcpProcess pcb seg).pcb.list = pcb.list ∧ (tcpProcess pcb seg).pcb.closed = true ∧
        (tcpProcess pcb seg).pcb.state = pcb.state ∧ pcb.state = .lastAck ∧
        ourFinAcked (noteActivity pcb seg) seg = true)) := by
  have hstay : ∀ q : Pcb o, core q = core pcb →
      (q.rxClosed = pcb.rxClosed ∧ q.listener = pcb.listener ∧ q.inputPcb = pcb.inputPcb) ∧
      q.list = pcb.list ∧ q.closed = pcb.closed ∧ Advance pcb.state q.state := by
    intro q hq
    exact ⟨⟨rxClosed_of_core hq, listener_of_core hq, inputPcb_of_core hq⟩, list_of_core hq,
      closed_of_core hq, state_of_core hq ▸ .stay _⟩
  have hne : pcb.state ≠ .synSent := h.live.2.2.1
  rcases tcpProcess_cases seg hne with
    ⟨-, -, q, heq, hsame⟩ | ⟨q, w, heq, hcore, -⟩ | ⟨-, -, -, heq⟩
  · rw [heq]
    obtain ⟨h1, h2⟩ := hstay q hsame.1
    exact ⟨h1, .inl h2⟩
  · rw [heq]
    obtain ⟨h1, h2⟩ := hstay q hcore
    exact ⟨h1, .inl h2⟩
  · have hcore := core_noteActivity pcb seg
    obtain ⟨q, hq, hcases⟩ := processState_cases seg (receives_noteActivity seg h)
    rw [heq, hq]
    rw [hcore, (state_of_core hcore)] at hcases
    simp only [core, Core.mk.injEq] at hcases
    rcases hcases with
      ⟨st, hadv, ⟨h1, h2, h3, h4, h5, h6, -⟩, -⟩ | ⟨hcb, ⟨h1, h2, h3, h4, h5, h6, -⟩, -⟩ |
      ⟨hla, hfin, ⟨h1, h2, h3, h4, h5, h6, -⟩, -⟩
    · exact ⟨⟨h4, h3, h5⟩, .inl ⟨h2, h6, h1 ▸ hadv⟩⟩
    · exact ⟨⟨h4, h3, h5⟩, .inr (.inl ⟨h2, h6, h1, hcb⟩)⟩
    · exact ⟨⟨h4, h3, h5⟩, .inr (.inr ⟨h2, h6, h1, hla, hfin⟩)⟩

lemma tcplen_of_recvData {pcb : Pcb o} {seg : Segment} (h : Receives pcb)
    (hd : (tcpProcess pcb seg).recvData.isSome = true) : 0 < seg.tcplen := by
  have hne : pcb.state ≠ .synSent := h.live.2.2.1
  have hrec : ∀ p : Pcb o, (tcpReceive p seg).recvData.isSome = true → 0 < seg.tcplen := by
    intro p
    unfold tcpReceive
    dsimp only
    split_ifs with hc
    · exact fun _ => hc.1
    · simp
    · simp
  rcases tcpProcess_cases seg hne with ⟨-, -, q, heq, -⟩ | ⟨q, w, heq, -⟩ | ⟨-, -, -, heq⟩
  · simp [heq] at hd
  · simp [heq] at hd
  · obtain ⟨q, hq, -⟩ := processState_cases seg (receives_noteActivity seg h)
    rw [heq, hq] at hd
    exact hrec _ hd

lemma inbox_sendPendingFin (pcb : Pcb o) : inbox (sendPendingFin pcb) = inbox pcb := by
  unfold sendPendingFin
  split_ifs
  · exact inbox_tcpCloseShutdownFin _
  · rfl

lemma inbox_fasttmrSend (pcb : Pcb o) : inbox (fasttmrSend pcb) = inbox pcb := by
  unfold fasttmrSend
  dsimp only
  rw [inbox_sendPendingFin]
  split_ifs
  · exact (same_tcpOutput (tcpAckNow pcb)).2
  · rfl

end TunForge.PcbFrames
