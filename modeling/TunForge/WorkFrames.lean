import TunForge.InputCases

/-! What lwIP's work on a pcb leaves of it, its received data aside: the segment size
stays within what can be agreed on, a pcb open for sending stays open until the
application closes it, and its place in the listener's backlog is kept until the
pcb leaves the active list. -/
namespace TunForge.WorkFrames
open SerialNumber PbufChain LwipTypes TcpOut TcpIn Tcp PcbFrames InputCases

variable {o : Platform}

/-- The segment size is positive and no larger than our own. -/
def MssOk (p : Pcb o) : Prop := 0 < p.mss ∧ p.mss ≤ tcpMss

/-- No FIN of ours has been queued or is waiting to be. -/
def SendOpen (p : Pcb o) : Prop :=
  (p.state = .synRcvd ∨ p.state = .established ∨ p.state = .closeWait) ∧ p.closePend = false

/-- The pcb counts among the pending ones of its listener. -/
def slotted (p : Pcb o) : Bool := p.listener && p.backlogPend

/-- A pcb waiting for its handshake is not closing, and counts for its listener. -/
def FreshOk (p : Pcb o) : Prop :=
  p.state = .synRcvd → p.closePend = false ∧ (p.listener = true → p.backlogPend = true)

lemma FreshOk.of_taken {p : Pcb o} (h : p.state ≠ .synRcvd) : FreshOk p := fun hs => absurd hs h

/-- Work on a pcb that leaves all this in order. Only on entering the TIME-WAIT list does a pcb
give up its slot. -/
structure Keeps (p q : Pcb o) : Prop where
  mss : MssOk p → MssOk q
  sends : SendOpen p → SendOpen q
  listener : q.listener = p.listener
  fresh : FreshOk p → FreshOk q
  waits : p.list = .timeWait → q.list = .timeWait
  slot : FreshOk p → q.list ≠ .timeWait → q.backlogPend = p.backlogPend
  purged : FreshOk p → q.list = .timeWait → slotted q = true → p.list = .timeWait ∧ slotted p = true

lemma Keeps.refl (p : Pcb o) : Keeps p p :=
  ⟨id, id, rfl, id, id, fun _ _ => rfl, fun _ h hs => ⟨h, hs⟩⟩

lemma keeps_env (env : Env) (p : Pcb o) : Keeps p { p with env := env } :=
  ⟨id, id, rfl, id, id, fun _ _ => rfl, fun _ h hs => ⟨h, hs⟩⟩

lemma Keeps.trans {p q r : Pcb o} (h : Keeps p q) (h' : Keeps q r) : Keeps p r where
  mss := h'.mss ∘ h.mss
  sends := h'.sends ∘ h.sends
  listener := h'.listener.trans h.listener
  fresh := h'.fresh ∘ h.fresh
  waits := h'.waits ∘ h.waits
  slot hf hl := (h'.slot (h.fresh hf) hl).trans (h.slot hf fun hq => hl (h'.waits hq))
  purged hf hl hs := by
    obtain ⟨hq, hsq⟩ := h'.purged (h.fresh hf) hl hs
    exact h.purged hf hq hsq

lemma mssOk_of_eq {p q : Pcb o} (h : q.mss = p.mss) (hp : MssOk p) : MssOk q := by
  unfold MssOk at hp ⊢
  rwa [h]

lemma sendOpen_of_eq {p q : Pcb o} (hs : q.state = p.state) (hc : q.closePend = p.closePend)
    (hp : SendOpen p) :
    SendOpen q := by
  unfold SendOpen at hp ⊢
  rwa [hs, hc]

structure Side where
  mss : ℕ
  backlogPend : Bool
  route : Bool

def side (p : Pcb o) : Side := ⟨p.mss, p.backlogPend, p.env.route⟩

lemma mss_of_side {p q : Pcb o} (h : side q = side p) : q.mss = p.mss := congrArg Side.mss h

lemma pend_of_side {p q : Pcb o} (h : side q = side p) : q.backlogPend = p.backlogPend :=
  congrArg Side.backlogPend h

lemma route_of_side {p q : Pcb o} (h : side q = side p) : q.env.route = p.env.route :=
  congrArg Side.route h

lemma keeps_of_side {p q : Pcb o} (h : side q = side p) (hl : q.list = p.list)
    (hlis : q.listener = p.listener) (hsend : SendOpen p → SendOpen q)
    (hfresh : FreshOk p → FreshOk q) : Keeps p q where
  mss := mssOk_of_eq (mss_of_side h)
  sends := hsend
  listener := hlis
  fresh := hfresh
  waits := hl.trans
  slot _ _ := pend_of_side h
  purged _ hq hsl := by
    refine ⟨hl.symm.trans hq, ?_⟩
    unfold slotted at hsl ⊢
    rwa [hlis, pend_of_side h] at hsl

lemma keeps_of_eq {p q : Pcb o} (h : side q = side p) (hs : q.state = p.state)
    (hc : q.closePend = p.closePend) (hl : q.list = p.list) (hlis : q.listener = p.listener) :
    Keeps p q := by
  refine keeps_of_side h hl hlis (sendOpen_of_eq hs hc) fun hf => ?_
  unfold FreshOk at hf ⊢
  rwa [hs, hc, hlis, pend_of_side h]

lemma keeps_of_core {p q : Pcb o} (h : core q = core p) (hs : side q = side p) : Keeps p q :=
  keeps_of_eq hs (state_of_core h) (closePend_of_core h) (list_of_core h) (listener_of_core h)

/-- What a method call leaves of a pcb that has been accepted. -/
structure Stays (p q : Pcb o) : Prop where
  side : side q = side p
  listener : q.listener = p.listener
  fresh : FreshOk q

lemma stays_of_core {p q : Pcb o} (h : core q = core p) (hs : side q = side p)
    (ht : p.state ≠ .synRcvd) : Stays p q :=
  ⟨hs, listener_of_core h, .of_taken (state_of_core h ▸ ht)⟩

lemma Stays.trans {p q r : Pcb o} (h : Stays p q) (h' : Stays q r) : Stays p r :=
  ⟨h'.side.trans h.side, h'.listener.trans h.listener, h'.fresh⟩

/-! ### Output -/

@[simp] lemma side_tcpSendEmptyAck (p : Pcb o) : side (tcpSendEmptyAck p) = side p := by
  unfold tcpSendEmptyAck
  split_ifs <;> rfl

lemma side_outputNow (p : Pcb o) : side (outputNow p) = side p := by
  unfold outputNow
  split_ifs
  · rfl
  · exact side_tcpSendEmptyAck p
  · rfl
  · rfl
  · rfl

@[simp] lemma side_tcpOutput (p : Pcb o) : side (tcpOutput p) = side p := by
  have hnow := side_outputNow p
  unfold tcpOutput
  split_ifs
  · rfl
  · simp only [side, Side.mk.injEq, Env.next_route] at hnow ⊢
    exact ⟨hnow.1, hnow.2.1, trivial⟩

lemma side_tcpSplitUnsentSeg (keep n : ℕ) (p : Pcb o) :
    side (tcpSplitUnsentSeg keep n p).1 = side p := by
  rcases tcpSplitUnsentSeg_cases keep n p with heq | ⟨useg, rest, -, -, -, -, heq⟩ <;> rw [heq]
  rfl

lemma side_tcpZeroWindowProbe (p : Pcb o) : side (tcpZeroWindowProbe p).1 = side p := by
  obtain ⟨edge, nxt, heq⟩ := tcpZeroWindowProbe_eq p
  rw [heq]
  rfl

lemma side_persistFire (keep : ℕ) (p : Pcb o) : side (persistFire keep p) = side p := by
  unfold persistFire
  split_ifs
  · exact side_tcpZeroWindowProbe p
  · have hsplit := side_tcpSplitUnsentSeg keep (p.tx.sndWnd % 2 ^ 16) p
    generalize tcpSplitUnsentSeg keep (p.tx.sndWnd % 2 ^ 16) p = res at hsplit
    obtain ⟨q, err⟩ := res
    cases err with
    | ok => exact (side_tcpOutput q).trans hsplit
    | _ => exact hsplit

lemma side_tcpEnqueueFlags (p : Pcb o) (syn fin : Bool) :
    side (tcpEnqueueFlags p syn fin).1 = side p := by
  unfold tcpEnqueueFlags
  split_ifs <;> rfl

lemma side_tcpSendFin (p : Pcb o) : side (tcpSendFin p).1 = side p := by
  unfold tcpSendFin
  split
  · split_ifs
    · rfl
    · exact side_tcpEnqueueFlags p false true
  · exact side_tcpEnqueueFlags p false true

lemma side_tcpWrite (p : Pcb o) (data : Bytes) : side (tcpWrite p data).1 = side p := by
  unfold tcpWrite
  split
  · dsimp only
    split
    · rfl
    · split <;> rfl
  · rfl
  · rfl

lemma keeps_tcpOutput (p : Pcb o) : Keeps p (tcpOutput p) :=
  keeps_of_core (same_tcpOutput p).1 (side_tcpOutput p)

lemma side_tcpRecved (p : Pcb o) (len : ℕ) : side (tcpRecved p len) = side p := by
  rw [tcpRecved_eq]
  dsimp only
  split_ifs
  · exact side_tcpOutput _
  · rfl

lemma side_dropStaleOoseq (p : Pcb o) : side (dropStaleOoseq p) = side p := by
  unfold dropStaleOoseq
  split_ifs <;> rfl

lemma keeps_tcpTimewaitInput (p : Pcb o) (seg : Segment) : Keeps p (tcpTimewaitInput p seg) := by
  refine keeps_of_core (same_tcpTimewaitInput p seg).1 ?_
  simp only [tcpTimewaitInput]
  split_ifs
  · rfl
  · rfl
  · exact side_tcpOutput _
  · exact side_tcpOutput _
  · rfl
  · rfl

/-! ### Closing -/

lemma place_tcpCloseShutdownFin (p : Pcb o) : (tcpCloseShutdownFin p).list = p.list ∧
    ((tcpCloseShutdownFin p).state = .synRcvd → p.state = .synRcvd) := by
  rcases core_tcpCloseShutdownFin p with ⟨b, hc⟩ | ⟨st, hst, hc⟩
  · have hs : (tcpCloseShutdownFin p).state = p.state := congrArg Core.state hc
    exact ⟨congrArg Core.list hc, fun h => hs ▸ h⟩
  · have hs : (tcpCloseShutdownFin p).state = st := congrArg Core.state hc
    refine ⟨congrArg Core.list hc, fun h => ?_⟩
    rw [hs] at h
    subst h
    revert hst
    cases p.state <;> simp [closeTarget]

lemma listener_tcpCloseShutdownFin (p : Pcb o) : (tcpCloseShutdownFin p).listener = p.listener := by
  rcases core_tcpCloseShutdownFin p with ⟨b, hc⟩ | ⟨st, -, hc⟩ <;> exact congrArg Core.listener hc

lemma side_tcpCloseShutdownFin (p : Pcb o) : (tcpCloseShutdownFin p).mss = p.mss ∧
    ((tcpCloseShutdownFin p).backlogPend = true → p.backlogPend = true) ∧
    (p.state ≠ .synRcvd → side (tcpCloseShutdownFin p) = side p) := by
  -- closing gives up a slot only while the handshake is still to be completed
  have hfin := side_tcpSendFin p
  unfold tcpCloseShutdownFin
  generalize tcpSendFin p = r at hfin
  obtain ⟨q, err⟩ := r
  have hmss : q.mss = p.mss := mss_of_side hfin
  have hpend : q.backlogPend = p.backlogPend := pend_of_side hfin
  cases closeTarget p.state with
  | none => exact ⟨rfl, id, fun _ => rfl⟩
  | some next =>
    dsimp only
    split
    · next heq =>
      obtain ⟨rfl, -⟩ := Prod.mk.inj heq
      rw [mss_of_side (side_tcpOutput _), pend_of_side (side_tcpOutput _), side_tcpOutput]
      split_ifs with hs
      · refine ⟨hmss, fun h => ?_, fun hne => absurd hs hne⟩
        simp only [tcpBacklogAccepted, Bool.and_eq_true] at h
        rw [← hpend]
        exact h.1
      · exact ⟨hmss, fun h => hpend ▸ h, fun _ => hfin⟩
    · next heq =>
      obtain ⟨rfl, -⟩ := Prod.mk.inj heq
      exact ⟨hmss, fun h => hpend ▸ h, fun _ => hfin⟩

lemma stays_tcpCloseShutdownFin {p : Pcb o} (h : p.state ≠ .synRcvd) :
    Stays p (tcpCloseShutdownFin p) :=
  ⟨(side_tcpCloseShutdownFin p).2.2 h, listener_tcpCloseShutdownFin p,
    .of_taken fun hs => h ((place_tcpCloseShutdownFin p).2 hs)⟩

lemma keeps_sendPendingFin (p : Pcb o) : Keeps p (sendPendingFin p) := by
  unfold sendPendingFin
  split_ifs with h
  case neg => exact .refl p
  have hshut : ¬ p.closePend = false := by simp [h]
  obtain ⟨hmss, hpend, hside⟩ := side_tcpCloseShutdownFin ({ p with closePend := false } : Pcb o)
  obtain ⟨hlist, hstate⟩ := place_tcpCloseShutdownFin ({ p with closePend := false } : Pcb o)
  have hlis := listener_tcpCloseShutdownFin ({ p with closePend := false } : Pcb o)
  refine ⟨mssOk_of_eq hmss, fun hp => absurd hp.2 hshut, hlis, fun hf hs => ?_, hlist.trans,
    fun hf hl => ?_, fun _ hl hs => ⟨hlist.symm.trans hl, ?_⟩⟩
  · exact absurd (hf (hstate hs)).1 hshut
  · exact pend_of_side (hside fun hs => absurd (hf hs).1 hshut)
  · simp only [slotted, hlis, Bool.and_eq_true] at hs ⊢
    exact ⟨hs.1, hpend hs.2⟩

lemma keeps_fasttmrSend (p : Pcb o) : Keeps p (fasttmrSend p) := by
  unfold fasttmrSend
  dsimp only
  refine Keeps.trans ?_ (keeps_sendPendingFin _)
  split_ifs
  · have hout := keeps_tcpOutput (tcpAckNow p)
    exact ⟨hout.mss, hout.sends, hout.listener, hout.fresh, hout.waits, hout.slot, hout.purged⟩
  · exact .refl p

/-! ### Input -/

lemma side_tcpReceiveAck (p : Pcb o) (seg : Segment) : side (tcpReceiveAck p seg).1 = side p := by
  simp only [tcpReceiveAck]
  split_ifs
  · rfl
  · rfl
  · rfl
  · exact side_tcpSendEmptyAck _
  · rfl

lemma side_tcpAck (p : Pcb o) : side (tcpAck p) = side p := by
  unfold tcpAck
  split_ifs <;> rfl

lemma side_tcpReceiveText (p : Pcb o) (seg : Segment) :
    side (tcpReceiveText p seg).pcb = side p := by
  unfold tcpReceiveText
  dsimp only
  generalize hq : (if lt (trimFirstEdge p.rx.rcvNxt seg).seqno p.rx.rcvNxt then tcpAckNow p else p)
    = q
  have hside : side q = side p := by
    rw [← hq]
    split_ifs <;> rfl
  split_ifs
  · exact (side_tcpAck _).trans hside
  · exact (side_tcpAck _).trans hside
  · exact (side_tcpSendEmptyAck _).trans hside
  · exact (side_tcpSendEmptyAck _).trans hside

lemma side_tcpReceive (p : Pcb o) (seg : Segment) : side (tcpReceive p seg).pcb = side p := by
  have hack := side_tcpReceiveAck p seg
  unfold tcpReceive
  dsimp only
  split_ifs
  · exact (side_tcpReceiveText _ seg).trans hack
  · exact hack
  · exact hack

lemma side_enterTimeWait {p : Pcb o} (h : p.state ≠ .closed ∧ p.state ≠ .timeWait ∧
    p.state ≠ .listen) :
    (enterTimeWait p).mss = p.mss ∧ slotted (enterTimeWait p) = false := by
  unfold enterTimeWait tcpPcbPurge
  rw [if_pos h]
  refine ⟨rfl, ?_⟩
  simp only [slotted, tcpBacklogAccepted]
  cases p.listener <;> simp

lemma mssOk_tcpParseopt {p : Pcb o} (seg : Segment) (h : MssOk p) : MssOk (tcpParseopt p seg) := by
  have hmss : (tcpParseopt p seg).mss = (seg.mss.map fun m => if tcpMss < m ∨
      m = 0 then tcpMss else m).getD p.mss := by
    unfold tcpParseopt
    cases seg.mss <;> cases seg.wndScale <;> simp <;> split_ifs <;> rfl
  have hpos : 0 < tcpMss := by decide
  unfold MssOk at h ⊢
  rw [hmss]
  cases seg.mss with
  | none => exact h
  | some m =>
    simp only [Option.map_some, Option.getD_some]
    split_ifs <;> omega

lemma pend_tcpParseopt (p : Pcb o) (seg : Segment) :
    (tcpParseopt p seg).backlogPend = p.backlogPend := by
  unfold tcpParseopt
  cases seg.mss <;> cases seg.wndScale <;> simp <;> split_ifs <;> rfl

lemma keeps_noteActivity (p : Pcb o) (seg : Segment) : Keeps p (noteActivity p seg) := by
  have hcore := core_noteActivity p seg
  have hpend : (noteActivity p seg).backlogPend = p.backlogPend := by
    unfold noteActivity
    rw [pend_tcpParseopt]
    split_ifs <;> rfl
  have hside : Keeps p ({ noteActivity p seg with mss := p.mss, env := p.env } : Pcb o) :=
    keeps_of_core hcore (by simp [side, hpend])
  refine ⟨fun hp => mssOk_tcpParseopt seg ?_, hside.sends, hside.listener, hside.fresh, hside.waits,
    hside.slot, hside.purged⟩
  split_ifs <;> exact hp

lemma SendOpen.advance {p q : Pcb o} (h : SendOpen p) (ha : Advance p.state q.state)
    (hc : q.closePend = p.closePend) :
    SendOpen q := by
  obtain ⟨hst, hp⟩ := h
  refine ⟨?_, hc.trans hp⟩
  generalize p.state = a at hst ha
  generalize q.state = b at ha
  cases ha <;> simp_all

lemma keeps_processEstablished {p : Pcb o} (seg : Segment) (h : p.state = .established) :
    Keeps p (processEstablished p seg).pcb := by
  obtain ⟨st, hst, hc⟩ := core_processEstablished seg h
  have hs : (processEstablished p seg).pcb.state = st := congrArg Core.state hc
  have hside : side (processEstablished p seg).pcb = side p := by
    have hp : ({ p with state := .established } : Pcb o) = p := by
      obtain ⟨_, _⟩ := p
      simp_all
    unfold processEstablished
    rw [hp]
    dsimp only
    split_ifs <;> exact side_tcpReceive p seg
  refine keeps_of_side hside (congrArg Core.list hc) (congrArg Core.listener hc)
    (fun hp => ⟨.inr ?_, ?_⟩) fun _ => ?_
  · rwa [hs]
  · exact (congrArg Core.closePend hc).trans hp.2
  · refine .of_taken ?_
    rw [hs]
    rcases hst with rfl | rfl <;> simp

lemma side_processState {p : Pcb o} (seg : Segment) (h : Receives p) :
    (processState p seg).pcb.mss = p.mss ∧
      (side (processState p seg).pcb = side p ∧ (processState p seg).pcb.list = p.list ∨
        (processState p seg).pcb.list = .timeWait ∧ slotted (processState p seg).pcb = false) := by
  -- only a pcb that enters the TIME-WAIT list loses its slot
  have hside := side_tcpReceive p seg
  have hstate : (tcpReceive p seg).pcb.state = p.state ∨
      (tcpReceive p seg).pcb.state = .closeWait := by
    rcases core_tcpReceive p seg with hc | ⟨-, -, hc⟩
    · exact .inl (congrArg Core.state hc)
    · exact .inr (congrArg Core.state hc)
  have hlist : (tcpReceive p seg).pcb.list = p.list := by
    rcases core_tcpReceive p seg with hc | ⟨-, -, hc⟩ <;> exact congrArg Core.list hc
  generalize hr : tcpReceive p seg = r at hside hstate hlist
  have hlive : r.pcb.state ≠ .closed ∧ r.pcb.state ≠ .timeWait ∧ r.pcb.state ≠ .listen := by
    rcases hstate with hs | hs
    · rw [hs]
      exact ⟨h.live.1, h.live.2.2.2.2, h.live.2.1⟩
    · simp [hs]
  have hkept : ∀ {q : Pcb o}, side q = side p → q.list = r.pcb.list → q.mss = p.mss ∧
      (side q = side p ∧ q.list = p.list ∨ q.list = .timeWait ∧ slotted q = false) :=
    fun hq hl => ⟨mss_of_side hq, .inl ⟨hq, hl.trans hlist⟩⟩
  have hwait : ∀ {q : Pcb o}, side q = side p → q.state = r.pcb.state →
      (enterTimeWait q).mss = p.mss ∧
      (side (enterTimeWait q) = side p ∧ (enterTimeWait q).list = p.list ∨
        (enterTimeWait q).list = .timeWait ∧ slotted (enterTimeWait q) = false) := by
    intro q hq hs
    obtain ⟨hm, hsl⟩ := side_enterTimeWait (p := q) (by rwa [hs])
    exact ⟨hm.trans (mss_of_side hq), .inr ⟨rfl, hsl⟩⟩
  unfold processState
  rcases h with h | h | h | h | h | h <;> rw [h] <;> dsimp only <;> rw [hr]
  · split_ifs <;> exact hkept hside rfl
  · split_ifs <;> exact hkept hside rfl
  · split_ifs
    · exact hwait hside rfl
    · exact hkept hside rfl
    · exact hkept hside rfl
    · exact hkept hside rfl
  · split_ifs
    · exact hwait hside rfl
    · exact hkept hside rfl
  · split_ifs
    · exact hwait hside rfl
    · exact hkept hside rfl
  · split_ifs <;> exact hkept hside rfl

lemma keeps_processState {p : Pcb o} (seg : Segment) (h : Receives p ∨ p.state = .synRcvd) :
    Keeps p (processState p seg).pcb := by
  rcases h with h | h
  case inr =>
    unfold processState
    rw [h]
    dsimp only
    split_ifs
    · exact keeps_of_eq rfl h.symm rfl rfl rfl
    · exact .refl p
  obtain ⟨hmss, hside⟩ := side_processState seg h
  obtain ⟨q, heq, hcases⟩ := processState_cases seg h
  rw [heq] at hmss hside ⊢
  dsimp only at hmss hside ⊢
  have hlis : q.listener = p.listener := by
    rcases hcases with
      ⟨st, -, hc, -⟩ | ⟨-, hc, -⟩ | ⟨-, -, hc, -⟩ <;> exact congrArg Core.listener hc
  have hwait : p.list = .timeWait → q.list = .timeWait := by
    intro hp
    rcases hcases with ⟨st, -, hc, -⟩ | ⟨-, hc, -⟩ | ⟨-, -, hc, -⟩
    · exact (congrArg Core.list hc).trans hp
    · exact congrArg Core.list hc
    · exact (congrArg Core.list hc).trans hp
  have htaken : q.state ≠ .synRcvd := by
    rcases hcases with ⟨st, hadv, hc, -⟩ | ⟨-, hc, -⟩ | ⟨hla, -, hc, -⟩
    · have hs : q.state = st := congrArg Core.state hc
      rw [hs]
      have hne := h.live.2.2.2.1
      generalize p.state = a at hadv hne
      cases hadv <;> simp_all
    · have hs : q.state = .timeWait := congrArg Core.state hc
      simp [hs]
    · have hs : q.state = p.state := congrArg Core.state hc
      simp [hs, hla]
  have hsends : SendOpen p → SendOpen q := by
    intro hp
    rcases hcases with ⟨st, hadv, hc, -⟩ | ⟨hboth, -⟩ | ⟨hla, -⟩
    · refine hp.advance ?_ (congrArg Core.closePend hc)
      have hs : q.state = st := congrArg Core.state hc
      rwa [hs]
    -- both directions are closed only after our own FIN
    · obtain ⟨hst, -⟩ := hp
      rcases hboth with ⟨hs, -⟩ | ⟨hs, -⟩ | ⟨hs, -⟩ <;> simp [hs] at hst
    · obtain ⟨hst, -⟩ := hp
      simp [hla] at hst
  refine ⟨mssOk_of_eq hmss, hsends, hlis, fun _ => .of_taken htaken, hwait, fun _ hl => ?_,
    fun _ hl hs => ?_⟩
  · rcases hside with ⟨hside, -⟩ | ⟨hq, -⟩
    · exact pend_of_side hside
    · exact absurd hq hl
  · rcases hside with ⟨hside, hlist⟩ | ⟨-, hq⟩
    · refine ⟨hlist.symm.trans hl, ?_⟩
      unfold slotted at hs ⊢
      rwa [hlis, pend_of_side hside] at hs
    · simp [hq] at hs

lemma keeps_tcpProcess {p : Pcb o} (seg : Segment) (h : Receives p ∨ p.state = .synRcvd) :
    Keeps p (tcpProcess p seg).pcb := by
  unfold tcpProcess
  split_ifs
  · exact keeps_of_core rfl rfl
  · exact keeps_of_core rfl rfl
  · exact .refl p
  · exact keeps_of_core rfl rfl
  · refine (keeps_noteActivity p seg).trans
      (keeps_processState seg (h.imp (receives_noteActivity seg) fun hs => ?_))
    exact (state_of_core (core_noteActivity p seg)).trans hs

lemma keeps_atInput {p : Pcb o} : Keeps p (atInput p) := keeps_of_eq rfl rfl rfl rfl rfl

lemma keeps_accepted {p : Pcb o} (hs : p.state = .synRcvd) (seg : Segment) :
    Keeps p (tcpBacklogDelayed (atAccept p seg)) := by
  -- a pcb that is being accepted gives up its slot and takes it again at once
  have hk : Keeps p (noteActivity (atInput p) seg) := keeps_atInput.trans (keeps_noteActivity _ seg)
  have hlist : (noteActivity (atInput p) seg).list = p.list :=
    congrArg Core.list (core_noteActivity (atInput p) seg)
  have hpend : (noteActivity (atInput p) seg).backlogPend = p.backlogPend := by
    unfold noteActivity
    rw [pend_tcpParseopt]
    split_ifs <;> rfl
  have hlis := hk.listener
  have hmss := hk.mss
  have hsends := hk.sends
  unfold atAccept tcpBacklogAccepted tcpBacklogDelayed
  generalize noteActivity (atInput p) seg = q at hlist hpend hlis hmss hsends
  dsimp only
  split_ifs with h
  · have hslot : FreshOk p → true = p.backlogPend := fun hf => ((hf hs).2 (hlis.symm.trans h)).symm
    refine ⟨hmss, fun hp => ⟨.inr (.inl rfl), (hsends hp).2⟩, hlis, fun _ => .of_taken (by simp),
      hlist.trans, fun hf _ => hslot hf, fun hf hl _ => ⟨hlist.symm.trans hl, ?_⟩⟩
    simp [slotted, ← hslot hf, ← hlis, h]
  · have hnone : q.listener = false := by simpa using h
    refine ⟨hmss, fun hp => ⟨.inr (.inl rfl), (hsends hp).2⟩, hlis, fun _ => .of_taken (by simp),
      hlist.trans, fun _ _ => ?_, fun _ _ hsl => ?_⟩
    · simp [hnone, hpend]
    · simp [slotted, hnone] at hsl

end TunForge.WorkFrames
