import TunForge.StackRuns

/-! The kinds of steps that inbound data takes through the running stack: what
`tcp_receive` finds in a segment, what leaves the data alone, and what ends with
the pcb gone. -/
namespace TunForge.ReceiveSteps
open SerialNumber PbufChain LwipTypes TcpOut TcpIn Tcp Connection Callbacks Stack
open Boundary Termination OrdinarySteps BoundaryRule Lifecycle PcbFrames CalmSteps InputCases
  Refinement

variable {o : Platform} {s t u : State o}

/-! ### What `tcp_receive` finds -/

def inboxOf (rx : Rx) : Inbox := ⟨rx.rcvNxt, rx.rcvWnd, rx.ooseq, rx.refusedData⟩

structure Arrival (b : Inbox) (seg : Segment) : Prop where
  text : 0 < seg.tcplen
  syn : seg.syn = false
  window : between (trimFirstEdge b.rcvNxt seg).seqno b.rcvNxt
    (b.rcvNxt + BitVec.ofNat 32 b.rcvWnd - 1) = true

def InSequence (o : Platform) (b : Inbox) (seg : Segment) (r : InSeq) : Prop :=
  Arrival b seg ∧ b.rcvNxt = (trimFirstEdge b.rcvNxt seg).seqno ∧
    ∃ mss rx, inboxOf rx = b ∧ r = receiveInSequence o mss rx (trimFirstEdge b.rcvNxt seg)

/-- `q` is the reassembly queue after an arrival out of sequence. -/
def OutOfSequence (b : Inbox) (seg : Segment) (q : List RxSeg) : Prop :=
  Arrival b seg ∧ b.rcvNxt ≠ (trimFirstEdge b.rcvNxt seg).seqno ∧
    ∃ mem, q = queueOutOfSequence mem (trimFirstEdge b.rcvNxt seg)
      (b.rcvNxt + BitVec.ofNat 32 b.rcvWnd) b.ooseq

lemma refusedData_takeInSequence (mss : ℕ) (rx : Rx) (seg : RxSeg) :
    (takeInSequence o mss rx seg).refusedData = rx.refusedData := by
  obtain ⟨w, hw⟩ := tcpUpdateRcvAnnWnd_eq (o := o) mss { rx with
    rcvNxt := rx.rcvNxt + BitVec.ofNat 32 seg.tcplen
    rcvWnd := wndSub o rx.rcvWnd seg.tcplen }
  simp [takeInSequence, hw]

lemma refusedData_drainOoseq (mss : ℕ) (segs : List RxSeg) (st : InSeq) :
    (drainOoseq o mss st segs).rx.refusedData = st.rx.refusedData := by
  induction segs generalizing st with
  | nil => rfl
  | cons seg rest ih =>
    unfold drainOoseq
    split_ifs
    · rw [ih]
      exact refusedData_takeInSequence mss st.rx seg
    · rfl

lemma refusedData_receiveInSequence (mss : ℕ) (rx : Rx) (inseg : RxSeg) :
    (receiveInSequence o mss rx inseg).rx.refusedData = rx.refusedData := by
  unfold receiveInSequence
  dsimp only
  rw [refusedData_drainOoseq]
  exact refusedData_takeInSequence mss rx _

lemma tcpReceiveText_inbox (pcb : Pcb o) {seg : Segment} (htext : 0 < seg.tcplen)
    (hsyn : seg.syn = false) :
    ((tcpReceiveText pcb seg).recvData = none ∧ (tcpReceiveText pcb seg).gotFin = false ∧
      inbox (tcpReceiveText pcb seg).pcb = inbox pcb) ∨
    (∃ r, InSequence o (inbox pcb) seg r ∧ (tcpReceiveText pcb seg).recvData = r.recvData ∧
      (tcpReceiveText pcb seg).gotFin = r.gotFin ∧
      inbox (tcpReceiveText pcb seg).pcb = inboxOf r.rx) ∨
    (∃ q, OutOfSequence (inbox pcb) seg q ∧ (tcpReceiveText pcb seg).recvData = none ∧
      (tcpReceiveText pcb seg).gotFin = false ∧
      inbox (tcpReceiveText pcb seg).pcb = { inbox pcb with ooseq := q }) := by
  -- the text of a segment is ignored, put in sequence, or queued
  unfold tcpReceiveText
  dsimp only
  generalize hq : (if lt (trimFirstEdge pcb.rx.rcvNxt seg).seqno pcb.rx.rcvNxt then tcpAckNow pcb
    else pcb) = q
  have hrx : q.rx = pcb.rx := by
    rw [← hq]
    split_ifs <;> rfl
  have hin : inbox q = inbox pcb := by simp [inbox, hrx]
  rw [hrx]
  by_cases hwin : between (trimFirstEdge pcb.rx.rcvNxt seg).seqno pcb.rx.rcvNxt
      (pcb.rx.rcvNxt + BitVec.ofNat 32 pcb.rx.rcvWnd - 1) = true
  · have harr : Arrival (inbox pcb) seg := ⟨htext, hsyn, hwin⟩
    rw [if_pos hwin]
    by_cases hseq : pcb.rx.rcvNxt = (trimFirstEdge pcb.rx.rcvNxt seg).seqno
    · rw [if_pos hseq]
      refine .inr (.inl ⟨_, ⟨harr, hseq, q.mss, pcb.rx, rfl, rfl⟩, rfl, rfl, ?_⟩)
      rw [(same_tcpAck _).2]
      rfl
    · rw [if_neg hseq]
      refine .inr (.inr ⟨_, ⟨harr, hseq, q.env.mem, rfl⟩, rfl, rfl, ?_⟩)
      rw [(same_tcpSendEmptyAck _).2]
      rfl
  · rw [if_neg hwin]
    exact .inl ⟨rfl, rfl, (same_tcpSendEmptyAck q).2.trans hin⟩

lemma tcpReceive_inbox (pcb : Pcb o) {seg : Segment} (hsyn : seg.syn = false) :
    ((tcpReceive pcb seg).recvData = none ∧ (tcpReceive pcb seg).gotFin = false ∧
      inbox (tcpReceive pcb seg).pcb = inbox pcb) ∨
    (pcb.state.rank < TcpState.rank .closeWait ∧ ∃ r, InSequence o (inbox pcb) seg r ∧
      (tcpReceive pcb seg).recvData = r.recvData ∧ (tcpReceive pcb seg).gotFin = r.gotFin ∧
      inbox (tcpReceive pcb seg).pcb = inboxOf r.rx) ∨
    (pcb.state.rank < TcpState.rank .closeWait ∧ ∃ q, OutOfSequence (inbox pcb) seg q ∧
      (tcpReceive pcb seg).recvData = none ∧ (tcpReceive pcb seg).gotFin = false ∧
      inbox (tcpReceive pcb seg).pcb = { inbox pcb with ooseq := q }) := by
  have hsame := same_tcpReceiveAck pcb seg
  have hstate := state_of_core hsame.1
  unfold tcpReceive
  dsimp only
  split_ifs with htext
  · rw [← hsame.2]
    rw [hstate] at htext
    rcases tcpReceiveText_inbox (tcpReceiveAck pcb seg).1 htext.1 hsyn with h | ⟨r, h⟩ | ⟨q, h⟩
    · exact .inl h
    · exact .inr (.inl ⟨htext.2, r, h⟩)
    · exact .inr (.inr ⟨htext.2, q, h⟩)
  · exact .inl ⟨rfl, rfl, hsame.2⟩
  · exact .inl ⟨rfl, rfl, hsame.2⟩

lemma size_chainData {recvData : Option Pbuf} (p : Pbuf) (h : ∀ q, recvData = some q → 0 < q.size)
    {q : Pbuf} (hq : chainData recvData p = some q) : 0 < q.size := by
  unfold chainData at hq
  split_ifs at hq with hp
  · have hpos := hp.trans_le p.totLen_le
    cases recvData with
    | none =>
      cases hq
      exact hpos
    | some d =>
      cases hq
      rw [Pbuf.size_cat]
      omega
  · exact h q hq

lemma size_drainOoseq {mss : ℕ} (segs : List RxSeg) (st : InSeq)
    (h : ∀ q, st.recvData = some q → 0 < q.size) {q : Pbuf}
    (hq : (drainOoseq o mss st segs).recvData = some q) : 0 < q.size := by
  induction segs generalizing st with
  | nil => exact h q hq
  | cons seg rest ih =>
    unfold drainOoseq at hq
    split_ifs at hq
    · exact ih _ (fun d hd => size_chainData seg.p h hd) hq
    · exact h q hq

lemma InSequence.size {b : Inbox} {seg : Segment} {r : InSeq} (h : InSequence o b seg r) {q : Pbuf}
    (hq : r.recvData = some q) : 0 < q.size := by
  obtain ⟨-, -, mss, rx, -, rfl⟩ := h
  unfold receiveInSequence at hq
  exact size_drainOoseq _ _ (fun d hd => size_chainData _ (by simp) hd) hq

lemma gotFin_drainOoseq {mss : ℕ} (segs : List RxSeg) (st : InSeq)
    (h : (drainOoseq o mss st segs).gotFin = true) :
    st.gotFin = true ∨ segs.any RxSeg.fin = true := by
  induction segs generalizing st with
  | nil => exact .inl h
  | cons seg rest ih =>
    unfold drainOoseq at h
    split_ifs at h
    · rcases ih _ h with h | h
      · rcases Bool.or_eq_true_iff.1 h with h | h
        · exact .inl h
        · exact .inr (by simp [h])
      · exact .inr (by simp [h])
    · exact .inl h

lemma fin_dropCovered (segs : List RxSeg) (inseg : RxSeg) :
    ((dropCovered inseg segs).1.fin = true → inseg.fin = true ∨ segs.any RxSeg.fin = true) ∧
      ((dropCovered inseg segs).2.any RxSeg.fin = true → segs.any RxSeg.fin = true) := by
  induction segs generalizing inseg with
  | nil => simp [dropCovered]
  | cons seg rest ih =>
    unfold dropCovered
    split_ifs
    · obtain ⟨h1, h2⟩ := ih { inseg with fin := inseg.fin || seg.fin }
      refine ⟨fun h => ?_, fun h => by simp [h2 h]⟩
      rcases h1 h with h | h
      · rcases Bool.or_eq_true_iff.1 h with h | h
        · exact .inl h
        · exact .inr (by simp [h])
      · exact .inr (by simp [h])
    · exact ⟨.inl, id⟩

lemma fin_adjustOoseq (inseg : RxSeg) (ooseq : List RxSeg) :
    ((adjustOoseq inseg ooseq).1.fin = true → inseg.fin = true ∨ ooseq.any RxSeg.fin = true) ∧
      ((adjustOoseq inseg ooseq).2.any RxSeg.fin = true → ooseq.any RxSeg.fin = true) := by
  have hcut : ∀ (seg : RxSeg) (seqno : Seq), (RxSeg.cutAt seg seqno).fin = seg.fin := fun _ _ => rfl
  unfold adjustOoseq
  split_ifs with hfin
  · exact ⟨.inl, by simp⟩
  · obtain ⟨h1, h2⟩ := fin_dropCovered ooseq inseg
    generalize dropCovered inseg ooseq = d at h1 h2 ⊢
    obtain ⟨c, rest⟩ := d
    cases rest with
    | nil => exact ⟨h1, by simp⟩
    | cons n rest =>
      dsimp only
      split_ifs
      · exact ⟨hcut c n.seqno ▸ h1, h2⟩
      · exact ⟨h1, h2⟩

lemma InSequence.gotFin {b : Inbox} {seg : Segment} {r : InSeq} (h : InSequence o b seg r)
    (hr : r.gotFin = true) :
    seg.fin = true ∨ b.ooseq.any RxSeg.fin = true := by
  obtain ⟨-, -, mss, rx, rfl, rfl⟩ := h
  have htrim : (trimFirstEdge (inboxOf rx).rcvNxt seg).fin = seg.fin := by
    unfold trimFirstEdge
    dsimp only
    split_ifs <;> rfl
  have hcut : (cutToRcvWnd rx.rcvWnd (trimFirstEdge (inboxOf rx).rcvNxt seg)).fin = true →
      seg.fin = true := by
    unfold cutToRcvWnd
    split_ifs
    · intro h
      cases h
    · exact fun h => htrim ▸ h
  unfold receiveInSequence at hr
  dsimp only at hr
  have hor := gotFin_drainOoseq _ _ hr
  split_ifs at hor with hnil
  · exact .inl (hcut (hor.resolve_right (by simp)))
  · obtain ⟨h1, h2⟩ := fin_adjustOoseq
      (cutToRcvWnd rx.rcvWnd (trimFirstEdge (inboxOf rx).rcvNxt seg)) rx.ooseq
    rcases hor with h | h
    · exact (h1 h).imp hcut id
    · exact .inr (h2 h)

/-- The acknowledgement in `seg` is for everything that has left. -/
def acksAllSent (pcb : Pcb o) (seg : Segment) : Bool := seg.ack && seg.ackno == pcb.tx.sndNxt

lemma sndNxt_tcpReceive (pcb : Pcb o) (seg : Segment) :
    (tcpReceive pcb seg).pcb.tx.sndNxt = pcb.tx.sndNxt := by
  have hempty : ∀ p : Pcb o, (tcpSendEmptyAck p).tx = p.tx := by
    intro p
    unfold tcpSendEmptyAck
    split_ifs <;> rfl
  have hwnd : ∀ tx : Tx, (updateSndWnd tx seg).sndNxt = tx.sndNxt := by
    intro tx
    unfold updateSndWnd
    dsimp only
    split_ifs <;> rfl
  have hrexmit : ∀ tx : Tx, (tcpRexmit tx).sndNxt = tx.sndNxt := by
    intro tx
    unfold tcpRexmit
    split <;> rfl
  have hack : (tcpReceiveAck pcb seg).1.tx.sndNxt = pcb.tx.sndNxt := by
    simp only [tcpReceiveAck]
    split_ifs
    · exact (hrexmit _).trans (hwnd _)
    · exact hwnd _
    · exact hwnd _
    · rw [hempty]
      exact hwnd _
    · rfl
  have htext : ∀ p : Pcb o, (tcpReceiveText p seg).pcb.tx = p.tx := by
    intro p
    unfold tcpReceiveText tcpAck tcpAckNow
    dsimp only
    split_ifs <;> simp [hempty]
  rw [← hack]
  unfold tcpReceive
  dsimp only
  split_ifs
  · rw [htext]
  · rfl
  · rfl

lemma acksAllSent_of_ourFinAcked {p : Pcb o} {seg : Segment}
    (h : ourFinAcked (noteActivity (atInput p) seg) seg = true) : acksAllSent p seg = true := by
  have hopt : ∀ q : Pcb o, (tcpParseopt q seg).tx.sndNxt = q.tx.sndNxt := by
    intro q
    unfold tcpParseopt
    cases seg.mss <;> cases seg.wndScale <;> simp only <;> split_ifs <;> rfl
  have hnote : (noteActivity (atInput p) seg).tx.sndNxt = p.tx.sndNxt := by
    unfold noteActivity
    rw [hopt]
    split_ifs <;> rfl
  unfold ourFinAcked finAcked at h
  rw [sndNxt_tcpReceive, hnote] at h
  unfold acksAllSent
  simp only [Bool.and_eq_true] at h ⊢
  exact h.1

/-- What `tcp_process` makes of a segment for a pcb that receives, as far as inbound data goes. -/
inductive Processing (p : Pcb o) (seg : Segment) (r : Processed o) : Prop
  | reset (hrst : seg.rst = true) (hacc : resetAcceptable p seg = true) (hr : r.reset = true)
      (hin : inbox r.pcb = inbox p)
  | noted (hr : r.reset = false) (hd : r.recvData = none) (hf : r.gotFin = false)
      (hcl : r.pcb.closed = false) (hl : r.pcb.list = p.list) (hin : inbox r.pcb = inbox p)
  | finished (hst : p.state = .lastAck) (hrst : seg.rst = false) (hack : acksAllSent p seg = true)
      (hr : r.reset = false) (hcl : r.pcb.closed = true) (hl : r.pcb.list = p.list)
      (hin : inbox r.pcb = inbox p)
  | text (b : InSeq) (hseq : InSequence o (inbox p) seg b) (hr : r.reset = false)
      (hd : r.recvData = b.recvData) (hf : r.gotFin = b.gotFin) (hcl : r.pcb.closed = false)
      (hplace : (r.pcb.list = p.list ∧ inbox r.pcb = inboxOf b.rx) ∨
        (r.pcb.list = .timeWait ∧ b.gotFin = true ∧ (p.state = .finWait1 ∨ p.state = .finWait2) ∧
          inbox r.pcb = { inboxOf b.rx with ooseq := [], refusedData := none }))
  | queued (q : List RxSeg) (hseq : OutOfSequence (inbox p) seg q) (hr : r.reset = false)
      (hd : r.recvData = none) (hf : r.gotFin = false) (hcl : r.pcb.closed = false)
      (hl : r.pcb.list = p.list) (hin : inbox r.pcb = { inbox p with ooseq := q })
  | purged (hst : p.state = .closing) (hack : acksAllSent p seg = true)
      (hr : r.reset = false) (hd : r.recvData = none) (hf : r.gotFin = false)
      (hcl : r.pcb.closed = false) (hl : r.pcb.list = .timeWait)
      (hin : inbox r.pcb = { inbox p with ooseq := [], refusedData := none })

lemma reset_processState (pcb : Pcb o) (seg : Segment) (h : Receives pcb) :
    (processState pcb seg).reset = false := by
  obtain ⟨q, hq, -⟩ := processState_cases seg h
  rw [hq]
  exact reset_tcpReceive pcb seg

lemma processing_processState {p : Pcb o} (seg : Segment) (h : Receives p) (hrst : seg.rst = false)
    (hsyn : seg.syn = false) :
    Processing p seg (processState (noteActivity (atInput p) seg) seg) := by
  -- a segment whose acknowledgement and text are looked at
  have hrec : Receives (noteActivity (atInput p) seg) :=
    receives_noteActivity seg (receives_atInput rfl h)
  have hcore := core_noteActivity (atInput p) seg
  have hin : inbox (noteActivity (atInput p) seg) = inbox p := inbox_noteActivity (atInput p) hsyn
  have hst : (noteActivity (atInput p) seg).state = p.state := congrArg Core.state hcore
  have hr := reset_processState _ seg hrec
  obtain ⟨q, hq, hcases⟩ := processState_cases seg hrec
  have hinb := tcpReceive_inbox (noteActivity (atInput p) seg) hsyn
  have hrank := @gotFin_tcpReceive _ (noteActivity (atInput p) seg) seg
  rw [hcore, hst] at hcases
  rw [hin, hst] at hinb
  rw [hst] at hrank
  unfold ClosesBoth at hcases
  rw [hst] at hcases
  rw [hq] at hr ⊢
  rcases hcases with ⟨st, -, hc, hb, -⟩ | ⟨hcb, hc, hb⟩ | ⟨hla, hack, hc, hb⟩
  · have hcl : q.closed = false := congrArg Core.closed hc
    have hl : q.list = p.list := congrArg Core.list hc
    rcases hinb with ⟨hd, hf, hi⟩ | ⟨-, b, hseq, hd, hf, hi⟩ | ⟨-, ooseq, hseq, hd, hf, hi⟩
    · exact .noted hr hd hf hcl hl (hb.trans hi)
    · exact .text b hseq hr hd hf hcl (.inl ⟨hl, hb.trans hi⟩)
    · exact .queued ooseq hseq hr hd hf hcl hl (hb.trans hi)
  · have hcl : q.closed = false := congrArg Core.closed hc
    have hl : q.list = .timeWait := congrArg Core.list hc
    rcases hinb with ⟨hd, hf, hi⟩ | ⟨hlow, b, hseq, hd, hf, hi⟩ | ⟨hlow, ooseq, hseq, hd, hf, hi⟩
    · rcases hcb with ⟨-, hfin⟩ | ⟨-, hfin, -⟩ | ⟨hclosing, hack⟩
      · rw [hf] at hfin
        cases hfin
      · rw [hf] at hfin
        cases hfin
      · exact .purged hclosing (acksAllSent_of_ourFinAcked hack) hr hd hf hcl hl (by rw [hb, hi])
    · have hst' : p.state = .finWait1 ∨ p.state = .finWait2 := by
        rcases hcb with ⟨hs, -⟩ | ⟨hs, -⟩ | ⟨hs, -⟩
        · exact .inr hs
        · exact .inl hs
        · simp [hs, TcpState.rank] at hlow
      have hfin : b.gotFin = true := by
        rcases hcb with ⟨-, hfin⟩ | ⟨-, hfin, -⟩ | ⟨hs, -⟩
        · exact hf ▸ hfin
        · exact hf ▸ hfin
        · simp [hs, TcpState.rank] at hlow
      exact .text b hseq hr hd hf hcl (.inr ⟨hl, hfin, hst', by rw [hb, hi]⟩)
    · rcases hcb with ⟨-, hfin⟩ | ⟨-, hfin, -⟩ | ⟨hs, -⟩
      · rw [hf] at hfin
        cases hfin
      · rw [hf] at hfin
        cases hfin
      · simp [hs, TcpState.rank] at hlow
  · have hcl : q.closed = true := congrArg Core.closed hc
    rcases hinb with ⟨hd, hf, hi⟩ | ⟨hlow, -⟩ | ⟨hlow, -⟩
    · exact .finished hla hrst (acksAllSent_of_ourFinAcked hack) hr hcl (congrArg Core.list hc)
        (hb.trans hi)
    · simp [hla, TcpState.rank] at hlow
    · simp [hla, TcpState.rank] at hlow

lemma processing_tcpProcess {p : Pcb o} (seg : Segment) (h : Receives p) :
    Processing p seg (tcpProcess (atInput p) seg) := by
  have hrec : Receives (atInput p) := receives_atInput rfl h
  rcases tcpProcess_cases seg hrec.live.2.2.1 with
    ⟨hrst, hacc, q, heq, hsame⟩ | ⟨q, w, heq, hc, hin, hw⟩ |
    ⟨hrst, hsyn, -, heq⟩
  · rw [heq]
    exact .reset hrst hacc rfl hsame.2
  · rw [heq]
    refine .noted rfl rfl rfl (congrArg Core.closed hc) (congrArg Core.list hc) ?_
    rcases hw with rfl | ⟨hsr, -⟩
    · exact hin
    · exact absurd hsr hrec.live.2.2.2.1
  · rw [heq]
    exact processing_processState seg h hrst hsyn

lemma processing_processEstablished {p : Pcb o} {seg : Segment} (hsyn : seg.syn = false)
    (h : p.state = .established) (hcl : p.closed = false) :
    Processing p seg (processEstablished p seg) := by
  -- the segment that completes the handshake is processed as an established pcb's
  have hp : ({ p with state := .established } : Pcb o) = p := by
    obtain ⟨_, _⟩ := p
    simp_all
  obtain ⟨st, -, hc⟩ := core_processEstablished seg h
  have hl : (processEstablished p seg).pcb.list = p.list := congrArg Core.list hc
  have hcl' : (processEstablished p seg).pcb.closed = false := (congrArg Core.closed hc).trans hcl
  have hr := reset_processEstablished p seg
  have hd : (processEstablished p seg).recvData = (tcpReceive p seg).recvData := by
    unfold processEstablished
    rw [hp]
    dsimp only
    split_ifs <;> rfl
  have hf : (processEstablished p seg).gotFin = (tcpReceive p seg).gotFin := by
    unfold processEstablished
    rw [hp]
    dsimp only
    split_ifs <;> rfl
  have hi : inbox (processEstablished p seg).pcb = inbox (tcpReceive p seg).pcb := by
    unfold processEstablished
    rw [hp]
    dsimp only
    split_ifs <;> rfl
  rcases tcpReceive_inbox p hsyn with
    ⟨h1, h2, h3⟩ | ⟨-, b, hseq, h1, h2, h3⟩ | ⟨-, q, hseq, h1, h2, h3⟩
  · exact .noted hr (hd.trans h1) (hf.trans h2) hcl' hl (hi.trans h3)
  · exact .text b hseq hr (hd.trans h1) (hf.trans h2) hcl' (.inl ⟨hl, hi.trans h3⟩)
  · exact .queued q hseq hr (hd.trans h1) (hf.trans h2) hcl' hl (hi.trans h3)

end TunForge.ReceiveSteps
