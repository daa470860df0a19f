import TunForge.SendEngine
import TunForge.SendQueue
import TunForge.WorkFrames

/-! Every event of the send engine is a sequence of small moves, each of which does one thing to
the queues, the windows or the timers. Invariants are proved move by move. -/
namespace TunForge.SendEngine
open SerialNumber PbufChain LwipTypes TcpOut TcpIn Tcp Stack PcbFrames SendQueue WorkFrames

variable {o : Platform}

/-- No retransmission is held back: all that is unacknowledged comes before all that is unsent. -/
def InOrder (tx : Tx) : Prop :=
  ∀ x ∈ tx.unacked.getLast?, ∀ y ∈ tx.unsent.head?, lt x.seqno y.seqno = true

/-- The first unsent segment is not one with a FIN that a small window would split. -/
def FinWhole (tx : Tx) : Prop :=
  ∀ seg ∈ tx.unsent.head?, seg.fin = true → tx.sndWnd = 0 ∨ seg.data.length ≤ tx.sndWnd % 2 ^ 16

/-- The slow timer finds the queue in order, and splits no segment with a FIN. -/
def TickOk (s : Sender o) : Prop := InOrder s.tx ∧ (0 < s.persist.backoff → FinWhole s.tx)

/-- Of no queued segment more than one sequence number is acknowledged. -/
def Aligned (tx : Tx) : Prop := ∀ seg ∈ outbound tx, leq tx.lastack (seg.seqno + 1) = true

/-- A round trip that is being timed has taken at most `n` ticks so far. -/
def TimedWithin (n : ℕ) (s : Sender o) : Prop :=
  s.trip.rttest ≠ 0 → 0 ≤ s16 (s.pcb.ticks - s.trip.rttest) ∧ s16 (s.pcb.ticks - s.trip.rttest) ≤ n

/-- What the peer, the application and the network below are assumed to respect. -/
structure Discipline where
  ordered : Bool := false
  steadyMss : Bool := false
  wholeAcks : Bool := false
  rtt : Option ℕ := none
  routed : Bool := false

/-- The acknowledgement in a segment respects the discipline. -/
structure AckRespects (g : Discipline) (s : Sender o) (seg : Segment) : Prop where
  whole : g.wholeAcks = true → between seg.ackno (s.tx.lastack + 1) s.tx.sndNxt = true →
    Aligned (ackNewData o s.tx seg.ackno).1
  rtt : ∀ n ∈ g.rtt, TimedWithin n s

/-- The event respects the discipline. -/
def Respects (g : Discipline) : Option (Sender o) → Event → Prop
  | some s, .write _ => g.ordered = true → InOrder s.tx
  | some s, .shutdown => g.ordered = true → InOrder s.tx
  | some s, .close => g.ordered = true → InOrder s.tx
  | some s, .fasttmr => g.ordered = true → InOrder (fasttmrAck s).tx
  | some s, .slowtmr _ => g.ordered = true → TickOk s
  | some s, .segment seg =>
    (g.steadyMss = true → (tcpParseopt s.pcb seg).mss = s.pcb.mss) ∧ AckRespects g s seg
  | some _, .route ok => g.routed = true → ok = true
  | _, _ => True

instance (tx : Tx) : Decidable (InOrder tx) :=
  inferInstanceAs (Decidable (∀ x ∈ tx.unacked.getLast?, ∀ y ∈ tx.unsent.head?,
    lt x.seqno y.seqno = true))

instance (tx : Tx) : Decidable (FinWhole tx) :=
  inferInstanceAs (Decidable (∀ seg ∈ tx.unsent.head?, seg.fin = true → tx.sndWnd = 0 ∨
    seg.data.length ≤ tx.sndWnd % 2 ^ 16))

instance (s : Sender o) : Decidable (TickOk s) :=
  inferInstanceAs (Decidable (InOrder s.tx ∧ (0 < s.persist.backoff → FinWhole s.tx)))

instance (tx : Tx) : Decidable (Aligned tx) :=
  inferInstanceAs (Decidable (∀ seg ∈ outbound tx, leq tx.lastack (seg.seqno + 1) = true))

instance (n : ℕ) (s : Sender o) : Decidable (TimedWithin n s) :=
  inferInstanceAs (Decidable (s.trip.rttest ≠ 0 → 0 ≤ s16 (s.pcb.ticks - s.trip.rttest) ∧
    s16 (s.pcb.ticks - s.trip.rttest) ≤ n))

instance (g : Discipline) (s : Sender o) (seg : Segment) : Decidable (AckRespects g s seg) :=
  decidable_of_iff ((g.wholeAcks = true → between seg.ackno (s.tx.lastack + 1) s.tx.sndNxt = true →
      Aligned (ackNewData o s.tx seg.ackno).1) ∧ ∀ n ∈ g.rtt, TimedWithin n s)
    ⟨fun h => ⟨h.1, h.2⟩, fun h => ⟨h.whole, h.rtt⟩⟩

instance (g : Discipline) : (s : Option (Sender o)) → (e : Event) → Decidable (Respects g s e)
  | some s, .write _ => inferInstanceAs (Decidable (g.ordered = true → InOrder s.tx))
  | some s, .shutdown => inferInstanceAs (Decidable (g.ordered = true → InOrder s.tx))
  | some s, .close => inferInstanceAs (Decidable (g.ordered = true → InOrder s.tx))
  | some s, .fasttmr => inferInstanceAs (Decidable (g.ordered = true → InOrder (fasttmrAck s).tx))
  | some s, .slowtmr _ => inferInstanceAs (Decidable (g.ordered = true → TickOk s))
  | some s, .segment seg =>
    inferInstanceAs (Decidable ((g.steadyMss = true → (tcpParseopt s.pcb seg).mss = s.pcb.mss) ∧
      AckRespects g s seg))
  | some _, .recved _ => .isTrue trivial
  | some _, .output => .isTrue trivial
  | some _, .mem _ => .isTrue trivial
  | some _, .route ok => inferInstanceAs (Decidable (g.routed = true → ok = true))
  | none, _ => .isTrue trivial

/-- The queues, the windows and the timers are as before. -/
structure Quiet (s s' : Sender o) : Prop where
  rest : s' = { s with pcb := s'.pcb }
  tx : ∃ ov err, s'.pcb.tx = { s.pcb.tx with unsentOversize := ov, nagleMemErr := err }
  mss : s'.pcb.mss = s.pcb.mss
  list : s'.pcb.list = s.pcb.list
  state : Advance s.pcb.state s'.pcb.state
  pend : s'.pcb.closePend = true → s.pcb.closePend = true ∨ s.pcb.state ≠ .synRcvd
  route : s'.pcb.env.route = s.pcb.env.route

inductive Move (g : Discipline) : Sender o → Sender o → Prop
  | quiet {s s'} (h : Quiet s s') : Move g s s'
  | options {s} (seg : Segment) (h : g.steadyMss = true → (tcpParseopt s.pcb seg).mss = s.pcb.mss) :
    Move g s (s.mapPcb (tcpParseopt · seg))
  | establish {s} (ackno : Seq) (pcb : Pcb o) (hstate : s.pcb.state = .synRcvd)
    (hopen : pcb.state = .established ∨ pcb.state = .closeWait)
    (hold : leq ackno s.tx.lastack = false)
    (hnew : between ackno (s.tx.lastack + 1) s.tx.sndNxt = true)
    (hwhole : g.wholeAcks = true → Aligned (ackNewData o s.tx ackno).1)
    (hrtt : ∀ n ∈ g.rtt, TimedWithin n s) (htx : pcb.tx = (acknowledged ackno s).1.tx)
    (hmss : pcb.mss = s.pcb.mss) (hlist : pcb.list = s.pcb.list)
    (hroute : pcb.env.route = s.pcb.env.route) :
    Move g s { measureRtt ackno (acknowledged ackno s).1 with
      pcb := pcb
      cong := { (acknowledged ackno s).1.cong with cwnd := tcpCalcInitialCwnd pcb.mss % o.wndMod } }
  | timeWait {s} (h : s.pcb.state = .finWait1 ∨ s.pcb.state = .finWait2 ∨ s.pcb.state = .closing) :
    Move g s (s.mapPcb enterTimeWait)
  | window {s} (seg : Segment) : Move g s (s.setTx (updateSndWnd s.tx seg))
  | ack {s} (ackno : Seq) (hopen : s.pcb.state ≠ .synRcvd) (hold : leq ackno s.tx.lastack = false)
    (hnew : between ackno (s.tx.lastack + 1) s.tx.sndNxt = true)
    (hwhole : g.wholeAcks = true → Aligned (ackNewData o s.tx ackno).1) : Move g s
      (acknowledged ackno s).1
  | duplicate {s} (h : 0 ≤ s.rexmit.rtime) : Move g s (duplicateAck s)
  | measure {s} (h : ∀ n ∈ g.rtt, TimedWithin n s) (h0 : s.trip.rttest ≠ 0) :
    Move g s { s with trip := measure s.pcb.ticks s.trip }
  | resendSyn {s} (h : s.pcb.state = .synRcvd) : Move g s (tcpRexmit s)
  | timeout {s} (hp : s.persist.backoff = 0) (hq : ¬(s.tx.unacked = [] ∧ s.tx.unsent = []))
    (hord : g.ordered = true → InOrder s.tx) : Move g s (backOff (tcpRexmitRtoPrepare s))
  | countRexmit {s} : Move g s { s with rexmit := countRexmit s.rexmit }
  | send {s} (seg : TxSeg) (rest : List TxSeg) (hu : s.tx.unsent = seg :: rest)
      (hw : reach s.tx seg ≤ s.tx.sndWnd)
    (hp : s.persist.backoff = 0) : Move g s (tcpOutputSegment seg rest s)
  | startPersist {s} (hun : s.tx.unacked = []) : Move g s { s with persist := ⟨0, 1, 0⟩ }
  | persist {s} (p : Persist) (h : p.backoff = 0 ∨ 0 < s.persist.backoff) :
      Move g s { s with persist := p }
  | tickTimer {s} : Move g s { s with rexmit := tickTimer s.rexmit }
  | probe {s} (hp : 0 < s.persist.backoff) (h0 : s.tx.sndWnd = 0) :
      Move g s (tcpZeroWindowProbe s).1
  | split {s} (keep : ℕ) (h0 : s.tx.sndWnd ≠ 0) (hfin : g.ordered = true → FinWhole s.tx) :
    Move g s (tcpSplitUnsentSeg keep (s.tx.sndWnd % 2 ^ 16) s).1
  | write {s} (data : Bytes) (pcb : Pcb o) (h : tcpWrite s.pcb data = (pcb, .ok))
      (hopen : s.pcb.state ≠ .synRcvd)
    (hord : g.ordered = true → InOrder s.tx) :
    Move g s { s with pcb := pcb, accepted := s.accepted ++ data }
  | fin {s} (pcb : Pcb o) (next : TcpState) (h : tcpSendFin s.pcb = (pcb, .ok))
    (hnext : closeTarget s.pcb.state = some next) (hopen : s.pcb.state ≠ .synRcvd)
    (hord : g.ordered = true → InOrder s.tx) : Move g s { s with pcb := { pcb with state := next } }
  | route {s} (ok : Bool) (h : g.routed = true → ok = true) :
    Move g s (s.mapPcb fun pcb => { pcb with env := { pcb.env with route := ok } })

abbrev Moves (g : Discipline) : Sender o → Sender o → Prop := Relation.ReflTransGen (Move g)

variable {g : Discipline} {s s' : Sender o}

lemma Moves.keeps {I : Sender o → Prop} (hI : ∀ a b, I a → Move g a b → I b) (h : Moves g s s')
    (hs : I s) : I s' := by
  induction h with
  | refl => exact hs
  | tail _ hmove ih => exact hI _ _ ih hmove

/-! ### Quiet changes -/

lemma quiet_pcb {pcb : Pcb o} (htx : pcb.tx = s.pcb.tx) (hmss : pcb.mss = s.pcb.mss)
    (hroute : pcb.env.route = s.pcb.env.route) (hlist : pcb.list = s.pcb.list)
    (hstate : Advance s.pcb.state pcb.state)
    (hpend : pcb.closePend = true → s.pcb.closePend = true) : Quiet s { s with pcb := pcb } :=
  ⟨rfl, ⟨_, _, htx⟩, hmss, hlist, hstate, fun h => .inl (hpend h), hroute⟩

lemma quiet_of_core {pcb : Pcb o} (htx : pcb.tx = s.pcb.tx) (hside : side pcb = side s.pcb)
    (hcore : core pcb = core s.pcb) : Quiet s { s with pcb := pcb } :=
  quiet_pcb htx (mss_of_side hside) (route_of_side hside) (list_of_core hcore)
    (state_of_core hcore ▸ .stay _) (closePend_of_core hcore ▸ id)

lemma quiet_emptyAck (s : Sender o) : Quiet s (s.mapPcb tcpSendEmptyAck) :=
  quiet_of_core (tx_tcpSendEmptyAck _) (side_tcpSendEmptyAck _) (same_tcpSendEmptyAck _).1

lemma quiet_note (ov : ℕ) (err : Bool) (s : Sender o) :
    Quiet s (s.setTx { s.tx with unsentOversize := ov, nagleMemErr := err }) :=
  ⟨rfl, ⟨_, _, rfl⟩, rfl, rfl, .stay _, .inl, rfl⟩

lemma quiet_outputDone (s : Sender o) : Quiet s (outputDone s) := quiet_note _ _ s

lemma quiet_outputAck (s : Sender o) : Quiet s (outputAck s) := by
  unfold outputAck
  split_ifs
  · exact quiet_emptyAck s
  · exact quiet_outputDone s

/-! ### `tcp_output` -/

lemma moves_startPersist (wnd : ℕ) (s : Sender o) : Moves g s (startPersist wnd s) := by
  unfold startPersist
  split_ifs with h
  · exact .single (.startPersist h.2.1)
  · exact .refl

lemma moves_outputLoop {wnd : ℕ} (fuel : ℕ) (s : Sender o) (hwnd : wnd ≤ s.tx.sndWnd)
    (hp : s.persist.backoff = 0) :
    Moves g s (outputLoop wnd fuel s) := by
  induction fuel generalizing s with
  | zero => exact .refl
  | succ fuel ih =>
    unfold outputLoop
    split
    · exact .refl
    · rename_i seg rest hu
      split_ifs with hr
      · exact .refl
      · exact .head (.send seg rest hu (hr.trans hwnd) hp) (ih _ hwnd hp)
      · exact .refl

lemma moves_outputSegments (s : Sender o) : Moves g s (outputSegments s) := by
  have hloop : Moves g (stopPersist s)
      (outputLoop (sendWindow s) s.tx.unsent.length (stopPersist s)) :=
    moves_outputLoop _ _ (min_le_left _ _) rfl
  exact (Relation.ReflTransGen.head (.persist _ (.inl rfl)) hloop).tail (.quiet (quiet_note _ _ _))

/-- What `tcp_output` can come to. -/
inductive Outputs (s : Sender o) : Sender o → Prop
  | busy (h : s.pcb.inputPcb = true) : Outputs s s
  | ack (hidle : s.pcb.inputPcb = false) (hu : s.tx.unsent = []) : Outputs s (outputAck s)
  | lost (seg : TxSeg) (rest : List TxSeg) (hidle : s.pcb.inputPcb = false)
    (hu : s.tx.unsent = seg :: rest) (hroute : s.pcb.env.route = false) : Outputs s s
  | held (seg : TxSeg) (rest : List TxSeg) (hidle : s.pcb.inputPcb = false)
    (hu : s.tx.unsent = seg :: rest) (hroute : s.pcb.env.route = true)
    (hfit : sendWindow s < reach s.tx seg) :
    Outputs s (outputAck (startPersist (sendWindow s) s))
  | sent (seg : TxSeg) (rest : List TxSeg) (hidle : s.pcb.inputPcb = false)
    (hu : s.tx.unsent = seg :: rest) (hroute : s.pcb.env.route = true)
    (hfit : reach s.tx seg ≤ sendWindow s) : Outputs s (outputSegments s)

lemma outputs_tcpOutput (s : Sender o) : Outputs s (tcpOutput s) := by
  unfold tcpOutput
  cases hidle : s.pcb.inputPcb with
  | true => exact .busy hidle
  | false =>
    rw [if_neg (by simp)]
    split
    · exact .ack hidle ‹_›
    · rename_i seg rest hu
      cases hroute : s.pcb.env.route with
      | false => exact .lost seg rest hidle hu hroute
      | true =>
        rw [if_neg (by simp)]
        split_ifs with hfit
        · exact .held seg rest hidle hu hroute hfit
        · exact .sent seg rest hidle hu hroute (not_lt.1 hfit)

lemma moves_tcpOutput (s : Sender o) : Moves g s (tcpOutput s) := by
  have hout := outputs_tcpOutput s
  generalize tcpOutput s = t at hout ⊢
  cases hout with
  | busy | lost => exact .refl
  | ack => exact .single (.quiet (quiet_outputAck s))
  | held => exact (moves_startPersist _ s).tail (.quiet (quiet_outputAck _))
  | sent => exact moves_outputSegments s

/-! ### Incoming segments -/

lemma TimedWithin.of_same {n : ℕ} (h : TimedWithin n s) (ht : s'.pcb.ticks = s.pcb.ticks)
    (hr : s'.trip.rttest = s.trip.rttest ∨ s'.trip.rttest = 0) : TimedWithin n s' := by
  intro h0
  have hr' : s'.trip.rttest = s.trip.rttest := hr.resolve_right h0
  rw [hr', ht]
  exact h (hr' ▸ h0)

lemma moves_measureRtt (ackno : Seq) (s : Sender o) (h : ∀ n ∈ g.rtt, TimedWithin n s) :
    Moves g s (measureRtt ackno s) := by
  unfold measureRtt
  split_ifs with h0
  · exact .single (.measure h h0.1)
  · exact .refl

lemma duplicateAck_eq (s : Sender o) : ∃ tx c r x, (tx = s.tx ∨ tx = TcpOut.tcpRexmit s.tx) ∧
    (r = s.trip ∨ r = { s.trip with rttest := 0 }) ∧ (0 ≤ s.rexmit.rtime → 0 ≤ x.rtime) ∧
    duplicateAck s = { s with
      pcb := { s.pcb with tx := tx }, cong := c, trip := r, rexmit := x } := by
  unfold duplicateAck tcpRexmitFast tcpRexmit
  dsimp only
  split_ifs
  · exact ⟨_, _, _, _, .inl rfl, .inl rfl, fun _ => le_rfl, rfl⟩
  · exact ⟨_, _, _, _, .inr rfl, .inr rfl, fun _ => le_rfl, rfl⟩
  · exact ⟨_, _, _, _, .inl rfl, .inl rfl, id, rfl⟩
  · exact ⟨_, _, _, _, .inl rfl, .inl rfl, id, rfl⟩

lemma duplicateAck_timing (s : Sender o) : (duplicateAck s).pcb.ticks = s.pcb.ticks ∧
    ((duplicateAck s).trip.rttest = s.trip.rttest ∨ (duplicateAck s).trip.rttest = 0) := by
  obtain ⟨tx, c, r, x, -, hr, -, heq⟩ := duplicateAck_eq s
  rw [heq]
  exact ⟨rfl, hr.imp (congrArg RoundTrip.rttest) (congrArg RoundTrip.rttest)⟩

lemma ticks_tcpSendEmptyAck (p : Pcb o) : (tcpSendEmptyAck p).ticks = p.ticks := by
  unfold tcpSendEmptyAck
  split_ifs <;> rfl

lemma updateSndWnd_eq (tx : Tx) (seg : Segment) : ∃ wl1 wl2 wnd wndMax,
    updateSndWnd tx seg = { tx with
      sndWl1 := wl1, sndWl2 := wl2, sndWnd := wnd, sndWndMax := wndMax } ∧
    tx.sndWndMax ≤ wndMax ∧ (tx.sndWnd ≤ tx.sndWndMax → wnd ≤ wndMax) := by
  unfold updateSndWnd
  dsimp only
  split_ifs
  · exact ⟨_, _, _, _, rfl, le_max_left _ _, fun _ => le_max_right _ _⟩
  · exact ⟨_, _, _, _, rfl, le_rfl, id⟩

lemma moves_tcpReceiveAck (s : Sender o) {seg : Segment} (hopen : s.pcb.state ≠ .synRcvd)
    (h : AckRespects g s seg) :
    Moves g s (tcpReceiveAck s seg).1 := by
  unfold tcpReceiveAck
  split_ifs with hack
  · dsimp only
    obtain ⟨wl1, wl2, wnd, wndMax, heq, -⟩ := updateSndWnd_eq s.tx seg
    refine .head (.window seg) ?_
    have hrtt : ∀ n ∈ g.rtt, TimedWithin n (s.setTx (updateSndWnd s.tx seg)) :=
      fun n hn => (h.rtt n hn).of_same rfl (.inl rfl)
    split_ifs with hold hdup hnew
    · refine .head (.duplicate ?_) (moves_measureRtt _ _ fun n hn => ?_)
      · simp only [isDuplicate, Bool.and_eq_true, decide_eq_true_eq] at hdup
        exact hdup.2
      · exact (hrtt n hn).of_same (duplicateAck_timing _).1 (duplicateAck_timing _).2
    · exact moves_measureRtt _ _ hrtt
    · rw [Bool.not_eq_true] at hold
      refine .head (.ack seg.ackno hopen hold hnew fun hg => ?_)
        (moves_measureRtt _ _ fun n hn => ?_)
      · have hwhole := h.whole hg
        rw [show (s.setTx (updateSndWnd s.tx seg)).tx = updateSndWnd s.tx seg from rfl,
          heq] at hnew ⊢
        exact hwhole hnew
      · exact (hrtt n hn).of_same rfl (.inl rfl)
    · refine .head (.quiet (quiet_emptyAck _)) (moves_measureRtt _ _ fun n hn => ?_)
      exact (hrtt n hn).of_same (ticks_tcpSendEmptyAck _) (.inl rfl)
  · exact .refl

def placed (state : TcpState) (pend : Bool) (pcb : Pcb o) : Pcb o :=
  { pcb with state := state, backlogPend := pend }

section

variable (state : TcpState) (pend : Bool) (s : Sender o)

lemma tcpRexmit_placed : tcpRexmit (s.mapPcb (placed state pend)) =
    (tcpRexmit s).mapPcb (placed state pend) := by
  unfold tcpRexmit
  rw [apply_ite (Sender.mapPcb _)]
  rfl

lemma tcpRexmitFast_placed :
    tcpRexmitFast (s.mapPcb (placed state pend)) = (tcpRexmitFast s).mapPcb
      (placed state pend) := by
  unfold tcpRexmitFast
  rw [apply_ite (Sender.mapPcb _), tcpRexmit_placed]
  rfl

lemma duplicateAck_placed :
    duplicateAck (s.mapPcb (placed state pend)) = (duplicateAck s).mapPcb (placed state pend) := by
  unfold duplicateAck
  dsimp only
  rw [apply_ite (Sender.mapPcb _), ← tcpRexmitFast_placed]
  rfl

lemma measureRtt_placed (ackno : Seq) :
    measureRtt ackno (s.mapPcb (placed state pend)) = (measureRtt ackno s).mapPcb
      (placed state pend) := by
  unfold measureRtt
  rw [apply_ite (Sender.mapPcb _)]
  rfl

lemma emptyAck_placed :
    (s.mapPcb (placed state pend)).mapPcb tcpSendEmptyAck = (s.mapPcb tcpSendEmptyAck).mapPcb
      (placed state pend) := by
  simp only [Sender.mapPcb, tcpSendEmptyAck]
  rw [apply_ite (placed state pend), apply_ite (placed state pend)]
  rfl

lemma tcpReceiveAck_placed (seg : Segment) : tcpReceiveAck (s.mapPcb (placed state pend)) seg =
    ((tcpReceiveAck s seg).1.mapPcb (placed state pend), (tcpReceiveAck s seg).2) := by
  -- acknowledgement handling does not look at the state
  have hwin : (s.mapPcb (placed state pend)).setTx (updateSndWnd s.tx seg) =
    (s.setTx (updateSndWnd s.tx seg)).mapPcb (placed state pend) := rfl
  unfold tcpReceiveAck
  by_cases hack : seg.ack = true
  · rw [if_pos hack, if_pos hack]
    dsimp only
    rw [show (s.mapPcb (placed state pend)).tx = s.tx from rfl, hwin]
    generalize s.setTx (updateSndWnd s.tx seg) = t
    rw [show (t.mapPcb (placed state pend)).tx = t.tx from rfl,
      show ∀ e, isDuplicate e seg (t.mapPcb (placed state pend)) =
        isDuplicate e seg t from fun _ => rfl]
    split_ifs
    · rw [duplicateAck_placed, measureRtt_placed]
    · rw [measureRtt_placed]
    · rw [show acknowledged seg.ackno (t.mapPcb (placed state pend)) =
        ((acknowledged seg.ackno t).1.mapPcb (placed state pend), (acknowledged seg.ackno t).2)
          from rfl, measureRtt_placed]
    · rw [emptyAck_placed, measureRtt_placed]
  · rw [if_neg hack, if_neg hack]

end

lemma duplicateAck_pcb (s : Sender o) : ∃ tx, (duplicateAck s).pcb = { s.pcb with tx := tx } := by
  obtain ⟨tx, c, r, x, -, -, -, heq⟩ := duplicateAck_eq s
  exact ⟨tx, by rw [heq]⟩

lemma measureRtt_eq (ackno : Seq) (s : Sender o) :
    ∃ r, (r = s.trip ∨ r = measure s.pcb.ticks s.trip ∧ s.trip.rttest ≠ 0) ∧
    measureRtt ackno s = { s with trip := r } := by
  unfold measureRtt
  split_ifs with h
  · exact ⟨_, .inr ⟨rfl, h.1⟩, rfl⟩
  · exact ⟨_, .inl rfl, rfl⟩

lemma measureRtt_pcb (ackno : Seq) (s : Sender o) : (measureRtt ackno s).pcb = s.pcb := by
  obtain ⟨r, -, hr⟩ := measureRtt_eq ackno s
  rw [hr]

lemma tcpReceiveAck_core (s : Sender o) (seg : Segment) :
    core (tcpReceiveAck s seg).1.pcb = core s.pcb ∧
      side (tcpReceiveAck s seg).1.pcb = side s.pcb := by
  unfold tcpReceiveAck
  split_ifs
  · dsimp only
    split_ifs
    · obtain ⟨tx, htx⟩ := duplicateAck_pcb (s.setTx (updateSndWnd s.tx seg))
      rw [measureRtt_pcb, htx]
      exact ⟨rfl, rfl⟩
    · rw [measureRtt_pcb]
      exact ⟨rfl, rfl⟩
    · rw [measureRtt_pcb]
      exact ⟨rfl, rfl⟩
    · rw [measureRtt_pcb]
      exact ⟨(same_tcpSendEmptyAck _).1, side_tcpSendEmptyAck _⟩
  · exact ⟨rfl, rfl⟩

lemma tcpReceive_sender (s : Sender o) (seg : Segment) : ∃ pcb,
    (tcpReceive s seg).sender = { (tcpReceiveAck s seg).1 with pcb := pcb } ∧
    pcb.tx = (tcpReceiveAck s seg).1.pcb.tx ∧
    side pcb = side s.pcb ∧ pcb.list = s.pcb.list ∧
    (pcb.state = s.pcb.state ∨ s.pcb.state = .established ∧ pcb.state = .closeWait) ∧
      pcb.closePend = s.pcb.closePend := by
  obtain ⟨hcore, hside⟩ := tcpReceiveAck_core s seg
  have hlist := list_of_core hcore
  have hstate := state_of_core hcore
  have hpend := closePend_of_core hcore
  unfold tcpReceive
  dsimp only
  split_ifs
  · refine ⟨_, rfl, tx_tcpReceiveText _ seg, (side_tcpReceiveText _ seg).trans hside, ?_⟩
    rcases core_tcpReceiveText (tcpReceiveAck s seg).1.pcb seg with h | ⟨hest, -, h⟩
    · exact ⟨(list_of_core h).trans hlist, .inl ((state_of_core h).trans hstate),
        (closePend_of_core h).trans hpend⟩
    · exact ⟨(congrArg Core.list h).trans hlist, .inr ⟨hstate ▸ hest, congrArg Core.state h⟩,
        (congrArg Core.closePend h).trans hpend⟩
  · exact ⟨_, rfl, rfl, hside, hlist, .inl hstate, hpend⟩
  · exact ⟨_, rfl, rfl, hside, hlist, .inl hstate, hpend⟩

lemma advance_synRcvd {st st' : TcpState} (h : Advance st st') :
    st' = .synRcvd ↔ st = .synRcvd := by
  cases h with
  | stay => rfl
  | peerFin | bothFin | finAcked => exact ⟨nofun, nofun⟩

lemma advance_of_text {st st' : TcpState} (h : st' = st ∨ st = .established ∧ st' = .closeWait) :
    Advance st st' := by
  rcases h with rfl | ⟨rfl, rfl⟩
  · exact .stay _
  · exact .peerFin

lemma moves_tcpReceive (s : Sender o) {seg : Segment} (hopen : s.pcb.state ≠ .synRcvd)
    (h : AckRespects g s seg) :
    Moves g s (tcpReceive s seg).sender := by
  obtain ⟨hcore, hside⟩ := tcpReceiveAck_core s seg
  obtain ⟨pcb, heq, htx, hside', hlist, hstate, hpend⟩ := tcpReceive_sender s seg
  have hsame := hside'.trans hside.symm
  rw [heq]
  refine (moves_tcpReceiveAck s hopen h).tail
    (.quiet (quiet_pcb htx (mss_of_side hsame) (route_of_side hsame) ?_ ?_ ?_))
  · rw [hlist, list_of_core hcore]
  · rw [state_of_core hcore]
    exact advance_of_text hstate
  · rw [hpend, closePend_of_core hcore]
    exact id

lemma not_old_of_new {ackno lastack nxt : Seq} (h : between ackno (lastack + 1) nxt = true) :
    leq ackno lastack = false := by
  unfold between geq leq lt half at *
  simp only [Bool.and_eq_true, Bool.not_eq_true', decide_eq_false_iff_not, not_le,
    Bool.not_eq_false', decide_eq_true_eq] at h ⊢
  bv_omega

lemma tcpReceiveAck_new {seg : Segment} (hack : seg.ack = true)
    (hnew : between seg.ackno (s.tx.lastack + 1) s.tx.sndNxt = true) :
    (tcpReceiveAck s seg).1 = measureRtt seg.ackno
      (acknowledged seg.ackno (s.setTx (updateSndWnd s.tx seg))).1 := by
  obtain ⟨wl1, wl2, wnd, wndMax, heq, -⟩ := updateSndWnd_eq s.tx seg
  unfold tcpReceiveAck
  rw [if_pos hack]
  dsimp only
  rw [show (s.setTx (updateSndWnd s.tx seg)).tx = updateSndWnd s.tx seg from rfl, heq]
  rw [if_neg (by simp [not_old_of_new hnew]), if_pos hnew]

lemma moves_processEstablished (s : Sender o) {seg : Segment} (h : AckRespects g s seg)
    (hdone : completesHandshake s.pcb seg = true) :
    Moves g s (processEstablished s seg).sender := by
  simp only [completesHandshake, Bool.and_eq_true, decide_eq_true_eq] at hdone
  obtain ⟨⟨⟨hstate, -⟩, hack⟩, hnew⟩ := hdone
  unfold processEstablished
  cases hlis : s.pcb.listener with
  | false => exact .refl
  | true =>
    have hplaced : (s.mapPcb fun pcb => tcpBacklogDelayed
        (tcpBacklogAccepted { pcb with state := .established })) =
        s.mapPcb (placed .established true) := by
      simp [Sender.mapPcb, tcpBacklogDelayed, tcpBacklogAccepted, placed, hlis]
    obtain ⟨wl1, wl2, wnd, wndMax, heqw, -⟩ := updateSndWnd_eq s.tx seg
    obtain ⟨pcb, heq, htx, hside, hlist, hopen, -⟩ :=
      tcpReceive_sender (s.mapPcb (placed .established true)) seg
    have hmss : pcb.mss = s.pcb.mss := (mss_of_side hside).trans rfl
    have hroute : pcb.env.route = s.pcb.env.route := (route_of_side hside).trans rfl
    rw [tcpReceiveAck_placed, tcpReceiveAck_new hack hnew] at heq htx
    simp only [Bool.not_true, Bool.false_eq_true, if_false, hplaced, heq]
    have hwin : (s.setTx (updateSndWnd s.tx seg)).tx = updateSndWnd s.tx seg := rfl
    have hold : leq seg.ackno (s.setTx (updateSndWnd s.tx seg)).tx.lastack = false := by
      rw [hwin, heqw]
      exact not_old_of_new hnew
    have hnew' : between seg.ackno ((s.setTx (updateSndWnd s.tx seg)).tx.lastack + 1)
        (s.setTx (updateSndWnd s.tx seg)).tx.sndNxt = true := by
      rw [hwin, heqw]
      exact hnew
    have hest : ∀ p : Pcb o, p.state = .established ∨ p.state = .closeWait → p.tx = pcb.tx →
        side p = side pcb → p.list = pcb.list →
        Move g (s.setTx (updateSndWnd s.tx seg))
          { measureRtt seg.ackno (acknowledged seg.ackno (s.setTx (updateSndWnd s.tx seg))).1 with
            pcb := p
            cong := { (acknowledged seg.ackno (s.setTx (updateSndWnd s.tx seg))).1.cong with
              cwnd := tcpCalcInitialCwnd p.mss % o.wndMod } } := by
      intro p h0 h1 h2 h3
      refine .establish seg.ackno p hstate h0 hold hnew' (fun hg => ?_)
        (fun n hn => (h.rtt n hn).of_same rfl (.inl rfl))
        ?_ ((mss_of_side h2).trans hmss) (h3.trans hlist) ((route_of_side h2).trans hroute)
      · have hwhole := h.whole hg hnew
        rw [hwin, heqw]
        exact hwhole
      · rw [h1, htx, Sender.mapPcb, placed, measureRtt_pcb]
        rfl
    have hcong : (measureRtt seg.ackno
        (acknowledged seg.ackno (s.setTx (updateSndWnd s.tx seg))).1).cong =
        (acknowledged seg.ackno (s.setTx (updateSndWnd s.tx seg))).1.cong := by
      unfold measureRtt
      split_ifs <;> rfl
    refine .head (.window seg) (.single ?_)
    simp only [Sender.mapPcb, hcong]
    split_ifs
    · exact hest { tcpAckNow pcb with state := .closeWait } (.inr rfl) rfl rfl rfl
    · exact hest pcb (hopen.imp id And.right) rfl rfl rfl

lemma tcpParseopt_tx (pcb : Pcb o) (seg : Segment) :
    ∃ sc, (tcpParseopt pcb seg).tx = { pcb.tx with sndScale := sc } := by
  unfold tcpParseopt
  cases seg.mss <;> cases seg.wndScale <;> dsimp only <;> try exact ⟨_, rfl⟩
  all_goals split_ifs <;> exact ⟨_, rfl⟩

lemma route_tcpParseopt (pcb : Pcb o) (seg : Segment) :
    (tcpParseopt pcb seg).env.route = pcb.env.route := by
  unfold tcpParseopt
  cases seg.mss <;> cases seg.wndScale <;> dsimp only <;> try rfl
  all_goals split_ifs <;> rfl

lemma tcpParseopt_ticks (pcb : Pcb o) (seg : Segment) :
    (tcpParseopt pcb seg).ticks = pcb.ticks := by
  unfold tcpParseopt
  cases seg.mss <;> cases seg.wndScale <;> dsimp only <;> try rfl
  all_goals split_ifs <;> rfl

/-- The pcb with its activity noted, its options still to be read. -/
def touched (pcb : Pcb o) : Pcb o := if pcb.rxClosed then pcb else { pcb with tmr := pcb.ticks }

lemma touched_eq (pcb : Pcb o) : ∃ tmr, touched pcb = { pcb with tmr := tmr } := by
  unfold touched
  split_ifs <;> exact ⟨_, rfl⟩

lemma tcpParseopt_mss {p q : Pcb o} (h : q.mss = p.mss) (seg : Segment) :
    (tcpParseopt q seg).mss = (tcpParseopt p seg).mss := by
  have heq : ∀ r : Pcb o, (tcpParseopt r seg).mss =
      seg.mss.elim r.mss fun m => if tcpMss < m ∨ m = 0 then tcpMss else m := by
    intro r
    unfold tcpParseopt
    cases seg.mss <;> cases seg.wndScale <;> dsimp only [Option.elim] <;> try rfl
    all_goals rw [apply_ite Pcb.mss, ite_self]
  rw [heq, heq, h]

lemma moves_preamble (s : Sender o) (seg : Segment)
    (h : g.steadyMss = true → (tcpParseopt s.pcb seg).mss = s.pcb.mss) :
    Moves g s (preamble s seg) := by
  obtain ⟨tmr, htmr⟩ := touched_eq s.pcb
  have hquiet : Quiet s (s.mapPcb fun pcb => { pcb with tmr := tmr }) :=
    quiet_pcb rfl rfl rfl rfl (.stay _) id
  have hopt : Move g (s.mapPcb fun pcb => { pcb with tmr := tmr })
      ((s.mapPcb fun pcb => { pcb with tmr := tmr }).mapPcb (tcpParseopt · seg)) := by
    refine .options seg fun hg => ?_
    refine (tcpParseopt_mss (p := s.pcb) ?_ seg).trans (h hg)
    rfl
  have heq : preamble s seg = { (s.mapPcb fun pcb => { pcb with tmr := tmr }).mapPcb
    (tcpParseopt · seg) with
      persist := { s.persist with probe := 0 } } := by
    unfold preamble noteActivity
    rw [show (if s.pcb.rxClosed then s.pcb else { s.pcb with tmr := s.pcb.ticks }) =
      touched s.pcb from rfl, htmr]
    rfl
  rw [heq]
  refine (Relation.ReflTransGen.head (.quiet hquiet) (.single hopt)).tail (.persist _ ?_)
  exact s.persist.backoff.eq_zero_or_pos

lemma AckRespects.at_preamble {seg : Segment} (h : AckRespects g s seg) :
    AckRespects g (preamble s seg) seg := by
  obtain ⟨tmr, htmr⟩ := touched_eq s.pcb
  have hpcb : (preamble s seg).pcb = tcpParseopt ({ s.pcb with tmr := tmr } : Pcb o) seg := by
    rw [← htmr]
    rfl
  obtain ⟨sc, hsc⟩ := tcpParseopt_tx ({ s.pcb with tmr := tmr } : Pcb o) seg
  have htx : (preamble s seg).tx = { s.tx with sndScale := sc } := by
    rw [Sender.tx, hpcb, hsc]
    rfl
  constructor
  · rw [htx]
    exact h.whole
  · refine fun n hn => (h.rtt n hn).of_same ?_ (.inl rfl)
    rw [hpcb, tcpParseopt_ticks]

lemma moves_mapQuiet {r : Sender o} (h : Moves g s r) (f : Pcb o → Pcb o)
    (htx : (f r.pcb).tx = r.pcb.tx) (hmss : (f r.pcb).mss = r.pcb.mss)
    (hroute : (f r.pcb).env.route = r.pcb.env.route) (hlist : (f r.pcb).list = r.pcb.list)
    (hstate : Advance r.pcb.state (f r.pcb).state)
    (hpend : (f r.pcb).closePend = true → r.pcb.closePend = true) :
    Moves g s (r.mapPcb f) :=
  h.tail (.quiet (quiet_pcb htx hmss hroute hlist hstate hpend))

lemma moves_processSynRcvd (s : Sender o) {seg : Segment} (h : AckRespects g s seg)
    (hst : s.pcb.state = .synRcvd) :
    Moves g s (processState s seg).sender := by
  unfold processState
  rw [hst]
  dsimp only
  split_ifs
  · exact .single (.resendSyn hst)
  · exact .refl
  · exact moves_processEstablished s h ‹_›
  · exact .refl

lemma moves_processState (s : Sender o) {seg : Segment} (h : AckRespects g s seg) :
    Moves g s (processState s seg).sender := by
  by_cases hopen : s.pcb.state = .synRcvd
  · exact moves_processSynRcvd s h hopen
  have hrecv := moves_tcpReceive s hopen h
  obtain ⟨pcb, heq, -, -, -, hstate, -⟩ := tcpReceive_sender s seg
  have hpcb : (tcpReceive s seg).sender.pcb = pcb := by rw [heq]
  have hstays : s.pcb.state ≠ .established → (tcpReceive s seg).sender.pcb.state = s.pcb.state := by
    rw [hpcb]
    exact fun hne => hstate.resolve_right fun h => hne h.1
  have hset : ∀ st, Advance (tcpReceive s seg).sender.pcb.state st →
      Moves g s ((tcpReceive s seg).mapPcb fun pcb => { tcpAckNow pcb with state := st }).sender :=
    fun st hst =>
      moves_mapQuiet hrecv (fun pcb => { tcpAckNow pcb with state := st }) rfl rfl rfl rfl hst id
  have htw : s.pcb.state = .finWait1 ∨ s.pcb.state = .finWait2 ∨ s.pcb.state = .closing →
      s.pcb.state ≠ .established →
        Moves g s ((tcpReceive s seg).mapPcb fun pcb => enterTimeWait (tcpAckNow pcb)).sender := by
    intro hs hne
    refine (moves_mapQuiet hrecv tcpAckNow rfl rfl rfl rfl (.stay _) id).tail (.timeWait ?_)
    rw [← hstays hne] at hs
    exact hs
  unfold processState
  cases hst : s.pcb.state with
  | synRcvd => exact absurd hst hopen
  | established =>
    dsimp only
    split_ifs
    · refine hset _ ?_
      rw [hpcb]
      rcases hstate with he | ⟨-, he⟩
      · rw [he, hst]
        exact .peerFin
      · rw [he]
        exact .stay _
    · exact hrecv
  | closeWait =>
    dsimp only
    split_ifs
    · refine hset _ ?_
      rw [hstays (by rw [hst]; decide), hst]
      exact .stay _
    · exact hrecv
  | finWait1 =>
    have hfw : (tcpReceive s seg).sender.pcb.state = .finWait1 :=
      (hstays (by rw [hst]; decide)).trans hst
    dsimp only
    split_ifs
    · exact htw (.inl hst) (by rw [hst]; decide)
    · exact hset _ (hfw ▸ .bothFin)
    · exact moves_mapQuiet hrecv (fun pcb => { pcb with state := .finWait2 }) rfl rfl rfl rfl
        (hfw ▸ .finAcked) id
    · exact hrecv
  | finWait2 =>
    dsimp only
    split_ifs
    · exact htw (.inr (.inl hst)) (by rw [hst]; decide)
    · exact hrecv
  | closing =>
    dsimp only
    split_ifs
    · exact hrecv.tail (.timeWait (.inr (.inr ((hstays (by rw [hst]; decide)).trans hst))))
    · exact hrecv
  | lastAck =>
    dsimp only
    split_ifs
    · exact hrecv
    · exact hrecv
  | closed | listen | synSent | timeWait => exact .refl

lemma moves_tcpProcess (s : Sender o) {seg : Segment} (h : AckRespects g s seg)
    (hmss : g.steadyMss = true → (tcpParseopt s.pcb seg).mss = s.pcb.mss) :
    Moves g s (tcpProcess s seg).sender := by
  unfold tcpProcess
  split_ifs
  · exact .refl
  · exact moves_mapQuiet .refl tcpAckNow rfl rfl rfl rfl (.stay _) id
  · exact .refl
  · exact moves_mapQuiet .refl tcpAckNow rfl rfl rfl rfl (.stay _) id
  · exact (moves_preamble s seg hmss).trans (moves_processState _ h.at_preamble)

lemma quiet_correctFin (s : Sender o) : Quiet s (s.mapPcb correctFin) := by
  refine quiet_of_core ?_ ?_ ?_ <;> unfold correctFin <;> split_ifs <;> rfl

lemma moves_inputDone (r : Received o) :
    ∃ t, Moves g r.sender t ∧ t.pcb.inputPcb = false ∧ inputDone r = tcpOutput t := by
  refine ⟨_, moves_mapQuiet ?_ (fun pcb => { pcb with inputPcb := false }) rfl rfl rfl rfl
    (.stay _) id, rfl, rfl⟩
  split_ifs
  · exact .single (.quiet (quiet_correctFin _))
  · exact .refl

lemma moves_quiet_output (f : Pcb o → Pcb o) (htx : (f s.pcb).tx = s.pcb.tx)
    (hside : side (f s.pcb) = side s.pcb) (hcore : core (f s.pcb) = core s.pcb) :
    Moves g s (tcpOutput (s.mapPcb f)) :=
  .head (.quiet (quiet_of_core htx hside hcore)) (moves_tcpOutput _)

lemma moves_tcpTimewaitInput (seg : Segment) (s : Sender o) :
    Moves g s (tcpTimewaitInput seg s) := by
  have hrestart : Move g s (s.mapPcb fun pcb => { pcb with tmr := pcb.ticks }) :=
    .quiet (quiet_pcb rfl rfl rfl rfl (.stay _) id)
  unfold tcpTimewaitInput
  dsimp only
  split_ifs
  · exact .refl
  · exact .refl
  · exact .head hrestart (moves_quiet_output tcpAckNow rfl rfl rfl)
  · exact moves_quiet_output tcpAckNow rfl rfl rfl
  · exact .single hrestart
  · exact .refl

lemma moves_received {seg : Segment} (h : Respects g (some s) (.segment seg)) :
    Moves g s (tcpProcess (s.mapPcb fun pcb => { pcb with inputPcb := true }) seg).sender := by
  have hmark : Move g s (s.mapPcb fun pcb => { pcb with inputPcb := true }) :=
    .quiet (quiet_pcb rfl rfl rfl rfl (.stay _) id)
  refine .head hmark (moves_tcpProcess _ ⟨h.2.whole, h.2.rtt⟩ fun hg => ?_)
  refine (tcpParseopt_mss (p := s.pcb) ?_ seg).trans (h.1 hg)
  rfl

lemma moves_tcpInput {seg : Segment} (h : Respects g (some s) (.segment seg))
    (hs : tcpInput seg s = some s') :
    Moves g s s' := by
  unfold tcpInput at hs
  cases hlist : s.pcb.list with
  | active =>
    rw [hlist] at hs
    dsimp only at hs
    split_ifs at hs
    obtain rfl := Option.some.inj hs
    obtain ⟨t, ht, -, heq⟩ := moves_inputDone (g := g)
      (tcpProcess (s.mapPcb fun pcb => { pcb with inputPcb := true }) seg)
    rw [heq]
    exact ((moves_received h).trans ht).trans (moves_tcpOutput t)
  | timeWait =>
    rw [hlist] at hs
    obtain rfl := Option.some.inj hs
    exact moves_tcpTimewaitInput seg s
  | unlisted =>
    rw [hlist] at hs
    obtain rfl := Option.some.inj hs
    exact .refl

/-! ### The timers and the application -/

lemma outputAck_persist (s : Sender o) : (outputAck s).persist = s.persist := by
  unfold outputAck
  split_ifs <;> rfl

lemma persist_of_outputFails (h : outputFails s = true) (hp : 0 < s.persist.backoff) :
    0 < (tcpOutput s).persist.backoff := by
  have hout := outputs_tcpOutput s
  generalize tcpOutput s = t at hout ⊢
  cases hout with
  | busy | lost => exact hp
  | ack =>
    rw [outputAck_persist]
    exact hp
  | held =>
    rw [outputAck_persist, startPersist, if_neg fun hs => hp.ne' hs.2.2]
    exact hp
  | sent seg rest _ hu hroute hfit => simp [outputFails, hu, hroute, not_lt.2 hfit] at h

lemma backoff_nextSlot {p : Persist} (h : 0 < p.backoff) : 0 < (nextSlot p).backoff := by
  unfold nextSlot
  dsimp only
  split_ifs <;> omega

lemma probe_backoff (s : Sender o) :
    (tcpZeroWindowProbe s).1.persist.backoff = s.persist.backoff := by
  unfold tcpZeroWindowProbe countProbe
  split
  · rfl
  · dsimp only
    split_ifs <;> rfl

section

variable {seg : TxSeg} {rest : List TxSeg} (hu : s.tx.unsent = seg :: rest)
include hu

lemma probe_unsent (hmem : s.pcb.env.mem = false) :
    tcpZeroWindowProbe s = ({ s with persist := countProbe s.persist }, .mem) := by
  have hpcb : TcpOut.tcpZeroWindowProbe s.pcb = (s.pcb, .mem) := by
    unfold TcpOut.tcpZeroWindowProbe
    rw [show s.pcb.tx.unsent = seg :: rest from hu]
    simp [hmem]
  unfold tcpZeroWindowProbe
  rw [hu]
  simp [hpcb]

lemma probe_sent (hmem : s.pcb.env.mem = true) :
    tcpZeroWindowProbe s =
      ({ s with
          pcb := { s.pcb with rx := announce s.pcb.rx, tx := advanceNxt (seg.seqno + 1) s.tx }
          persist := countProbe s.persist
          wire := if s.pcb.env.route then s.wire ++ [probeOf seg] else s.wire },
        if s.pcb.env.route then .ok else .rte) := by
  have hpcb : TcpOut.tcpZeroWindowProbe s.pcb =
      ({ s.pcb with rx := announce s.pcb.rx, tx := advanceNxt (seg.seqno + 1) s.tx },
        if s.pcb.env.route then .ok else .rte) := by
    unfold TcpOut.tcpZeroWindowProbe
    rw [show s.pcb.tx.unsent = seg :: rest from hu]
    simp [hmem, Sender.tx]
  unfold tcpZeroWindowProbe
  rw [hu]
  cases hroute : s.pcb.env.route <;> simp [hpcb, hroute]

end

lemma moves_persistFire (keep : ℕ) (s : Sender o) (hp : 0 < s.persist.backoff)
    (hfin : g.ordered = true → FinWhole s.tx) : Moves g s (persistFire keep s) := by
  have hnext : ∀ t : Sender o, 0 < t.persist.backoff →
      Move g t { t with persist := nextSlot t.persist } :=
    fun t ht => .persist _ (.inr ht)
  unfold persistFire
  split_ifs with h0
  · have hprobe : Move g s (tcpZeroWindowProbe s).1 := .probe hp h0
    have hpersist : 0 < (tcpZeroWindowProbe s).1.persist.backoff := by rwa [probe_backoff]
    generalize tcpZeroWindowProbe s = t at hprobe hpersist
    split
    · exact .head hprobe (.single (hnext _ hpersist))
    · exact .single hprobe
  · have hsplit : Move g s (tcpSplitUnsentSeg keep (s.tx.sndWnd % 2 ^ 16) s).1 :=
      .split keep h0 hfin
    have hpersist : 0 < (tcpSplitUnsentSeg keep (s.tx.sndWnd % 2 ^ 16) s).1.persist.backoff := hp
    generalize tcpSplitUnsentSeg keep (s.tx.sndWnd % 2 ^ 16) s = t at hsplit hpersist
    split
    · refine .head hsplit ?_
      split_ifs with hfails
      · exact (moves_tcpOutput _).tail (hnext _ (persist_of_outputFails hfails hpersist))
      · exact moves_tcpOutput _
    · exact .head hsplit (.single (hnext _ hpersist))

lemma moves_persistTick (keep : ℕ) (s : Sender o) (hp : 0 < s.persist.backoff)
    (hfin : g.ordered = true → FinWhole s.tx) : Moves g s (persistTick keep s) := by
  have hcount : Move g s { s with persist := { s.persist with cnt := s.persist.cnt + 1 } } :=
    .persist _ (.inr hp)
  unfold persistTick
  dsimp only
  split_ifs
  · exact .head hcount (moves_persistFire keep _ hp hfin)
  · exact .single hcount
  · exact moves_persistFire keep s hp hfin
  · exact .refl

lemma moves_rexmitTick (s : Sender o) (hp : s.persist.backoff = 0)
    (hord : g.ordered = true → InOrder s.tx) :
    Moves g s (rexmitTick s) := by
  unfold rexmitTick
  dsimp only
  refine .head .tickTimer ?_
  split_ifs
  · unfold rexmitFire tcpRexmitRtoCommit
    split_ifs with hq
    · exact .refl
    · exact .head (.timeout hp hq hord) (.head .countRexmit (moves_tcpOutput _))
  · exact .refl

lemma quiet_dropStaleOoseq (s : Sender o) : Quiet s (s.mapPcb dropStaleOoseq) := by
  refine quiet_of_core ?_ ?_ (core_dropStaleOoseq _) <;> unfold dropStaleOoseq <;> split_ifs <;> rfl

lemma moves_sendTick (keep : ℕ) (s : Sender o) (h : g.ordered = true → TickOk s) :
    Moves g s (sendTick keep s) := by
  unfold sendTick
  split_ifs with hp
  · exact moves_persistTick keep s hp fun hg => (h hg).2 hp
  · exact moves_rexmitTick s (by omega) fun hg => (h hg).1

lemma moves_slowtmrActive {keep : ℕ} (h : g.ordered = true → TickOk s)
    (hs : slowtmrActive keep s = some s') :
    Moves g s s' := by
  unfold slowtmrActive at hs
  dsimp only at hs
  split_ifs at hs
  obtain rfl := Option.some.inj hs
  refine .tail ?_ (.quiet (quiet_dropStaleOoseq _))
  exact moves_mapQuiet (moves_sendTick keep s h) (fun pcb => { pcb with env := _ }) rfl rfl rfl rfl
    (.stay _) id

lemma moves_tcpSlowtmr {keep : ℕ} (h : g.ordered = true → TickOk s)
    (hs : tcpSlowtmr keep s = some s') :
    Moves g s s' := by
  have htick : Move g s (s.mapPcb fun pcb => { pcb with ticks := pcb.ticks + 1 }) :=
    .quiet (quiet_pcb rfl rfl rfl rfl (.stay _) id)
  unfold tcpSlowtmr at hs
  dsimp only at hs
  split at hs
  · exact .head htick (moves_slowtmrActive h hs)
  · split_ifs at hs
    obtain rfl := Option.some.inj hs
    exact .single htick
  · obtain rfl := Option.some.inj hs
    exact .single htick

lemma tcpWrite_fails {pcb p : Pcb o} {data : Bytes} {err : Err} (h : tcpWrite pcb data = (p, err))
    (herr : err ≠ .ok) :
    ∃ b, p = { pcb with tx := { pcb.tx with nagleMemErr := b } } := by
  have hnote : ∀ e, (({ pcb with tx := { pcb.tx with nagleMemErr := true } } : Pcb o), e) =
      (p, err) →
      ∃ b, p = { pcb with tx := { pcb.tx with nagleMemErr := b } } :=
    fun e he => ⟨true, (congrArg Prod.fst he).symm⟩
  unfold tcpWrite at h
  split at h
  · dsimp only at h
    split at h
    · exact hnote _ h
    · split at h
      · exact hnote _ h
      · exact absurd (congrArg Prod.snd h).symm herr
  · exact hnote _ h
  · exact ⟨pcb.tx.nagleMemErr, (congrArg Prod.fst h).symm⟩

lemma moves_write (data : Bytes) (s : Sender o) (hopen : s.pcb.state ≠ .synRcvd)
    (h : g.ordered = true → InOrder s.tx) :
    Moves g s (write data s) := by
  unfold write
  split
  · rename_i pcb hw
    exact .head (.write data pcb hw hopen h) (moves_tcpOutput _)
  · rename_i pcb err hok hw
    obtain ⟨b, rfl⟩ := tcpWrite_fails hw hok
    exact .single (.quiet (quiet_note _ _ s))

lemma tcpEnqueueFlags_fails {pcb p : Pcb o} {syn fin : Bool} {err : Err}
    (h : tcpEnqueueFlags pcb syn fin = (p, err)) (herr : err ≠ .ok) :
    ∃ b, p = { pcb with tx := { pcb.tx with nagleMemErr := b } } := by
  unfold tcpEnqueueFlags at h
  by_cases hmem : pcb.env.mem = true
  · rw [if_pos hmem] at h
    exact absurd (congrArg Prod.snd h).symm herr
  · rw [if_neg hmem] at h
    exact ⟨true, (congrArg Prod.fst h).symm⟩

lemma tcpSendFin_fails {pcb p : Pcb o} {err : Err} (h : tcpSendFin pcb = (p, err))
    (herr : err ≠ .ok) :
    ∃ b, p = { pcb with tx := { pcb.tx with nagleMemErr := b } } := by
  unfold tcpSendFin at h
  split at h
  · split_ifs at h
    · exact absurd (congrArg Prod.snd h).symm herr
    · exact tcpEnqueueFlags_fails h herr
  · exact tcpEnqueueFlags_fails h herr

lemma moves_tcpCloseShutdownFin (s : Sender o) (hopen : s.pcb.state ≠ .synRcvd)
    (h : g.ordered = true → InOrder s.tx) :
    Moves g s (tcpCloseShutdownFin s) := by
  unfold tcpCloseShutdownFin
  split
  · exact .refl
  · rename_i next hnext
    split
    · rename_i pcb hfin
      rw [if_neg hopen]
      exact .head (.fin pcb next hfin hnext hopen h) (moves_tcpOutput _)
    · rename_i pcb err hok hfin
      obtain ⟨b, rfl⟩ := tcpSendFin_fails hfin hok
      exact .single (.quiet ⟨rfl, ⟨_, _, rfl⟩, rfl, rfl, .stay _, fun _ => .inr hopen, rfl⟩)

lemma moves_tcpShutdownTx (s : Sender o) (hopen : s.pcb.state ≠ .synRcvd)
    (h : g.ordered = true → InOrder s.tx) : Moves g s (tcpShutdownTx s) := by
  unfold tcpShutdownTx
  split
  · exact moves_tcpCloseShutdownFin s hopen h
  · exact moves_tcpCloseShutdownFin s hopen h
  · exact moves_tcpCloseShutdownFin s hopen h
  · exact .refl

lemma tcpClose_some (h : tcpClose s = some s') :
    s' = tcpCloseShutdownFin (s.mapPcb fun pcb => { pcb with rxClosed := true }) := by
  unfold tcpClose at h
  dsimp only at h
  split_ifs at h
  split at h
  · cases h
  · cases h
  · exact (Option.some.inj h).symm

lemma moves_tcpClose (hopen : s.pcb.state ≠ .synRcvd) (h : g.ordered = true → InOrder s.tx)
    (hs : tcpClose s = some s') : Moves g s s' := by
  have hmark : Move g s (s.mapPcb fun pcb => { pcb with rxClosed := true }) :=
    .quiet (quiet_pcb rfl rfl rfl rfl (.stay _) id)
  rw [tcpClose_some hs]
  exact .head hmark (moves_tcpCloseShutdownFin _ hopen h)

lemma moves_tcpRecved (len : ℕ) (s : Sender o) : Moves g s (tcpRecved len s) := by
  have hcredit : ∀ rx, Move g s (s.mapPcb fun pcb => { pcb with rx := rx }) :=
    fun rx => .quiet (quiet_pcb rfl rfl rfl rfl (.stay _) id)
  unfold tcpRecved
  dsimp only
  generalize tcpUpdateRcvAnnWnd o s.pcb.mss _ = r
  refine .head (hcredit r.1) ?_
  split_ifs
  · exact moves_quiet_output tcpAckNow rfl rfl rfl
  · exact .refl

/-! `tcp_output` moves neither the pcb nor the end of its queue. -/

lemma core_outputLoop (wnd fuel : ℕ) (s : Sender o) :
    core (outputLoop wnd fuel s).pcb = core s.pcb := by
  induction fuel generalizing s with
  | zero => rfl
  | succ fuel ih =>
    unfold outputLoop
    split
    · rfl
    · split_ifs
      · rfl
      · exact ih _
      · rfl

lemma core_outputAck (s : Sender o) : core (outputAck s).pcb = core s.pcb := by
  unfold outputAck
  split_ifs
  · exact (same_tcpSendEmptyAck s.pcb).1
  · rfl

lemma startPersist_pcb (wnd : ℕ) (s : Sender o) : (startPersist wnd s).pcb = s.pcb := by
  unfold startPersist
  split_ifs <;> rfl

lemma core_tcpOutput (s : Sender o) : core (tcpOutput s).pcb = core s.pcb := by
  have hout := outputs_tcpOutput s
  generalize tcpOutput s = t at hout ⊢
  cases hout with
  | busy | lost => rfl
  | ack => exact core_outputAck s
  | held => rw [core_outputAck, startPersist_pcb]
  | sent => exact core_outputLoop _ _ (stopPersist s)

lemma env_outputLoop (wnd fuel : ℕ) (s : Sender o) :
    (outputLoop wnd fuel s).pcb.env = s.pcb.env := by
  induction fuel generalizing s with
  | zero => rfl
  | succ fuel ih =>
    unfold outputLoop
    split
    · rfl
    · split_ifs
      · rfl
      · exact ih _
      · rfl

lemma env_outputAck (s : Sender o) : (outputAck s).pcb.env = s.pcb.env := by
  unfold outputAck
  split_ifs
  · change (tcpSendEmptyAck s.pcb).env = _
    unfold tcpSendEmptyAck
    split_ifs <;> rfl
  · rfl

lemma env_tcpOutput (s : Sender o) : (tcpOutput s).pcb.env = s.pcb.env := by
  have hout := outputs_tcpOutput s
  generalize tcpOutput s = t at hout ⊢
  cases hout with
  | busy | lost => rfl
  | ack => exact env_outputAck s
  | held => rw [env_outputAck, startPersist_pcb]
  | sent => exact env_outputLoop _ _ (stopPersist s)

lemma moves_tcpFasttmr (s : Sender o) (hopen : s.pcb.closePend = true → s.pcb.state ≠ .synRcvd)
    (h : g.ordered = true → InOrder (fasttmrAck s).tx) : Moves g s (tcpFasttmr s) := by
  have hack : Moves g s (fasttmrAck s) ∧ (fasttmrAck s).pcb.closePend = s.pcb.closePend ∧
      (fasttmrAck s).pcb.state = s.pcb.state := by
    unfold fasttmrAck
    split_ifs
    · have hcore := core_tcpOutput (s.mapPcb tcpAckNow)
      exact ⟨moves_mapQuiet (moves_quiet_output tcpAckNow rfl rfl rfl)
        (fun pcb => { pcb with ackDelay := false, ackNow := false }) rfl rfl rfl rfl (.stay _) id,
        closePend_of_core hcore, state_of_core hcore⟩
    · exact ⟨.refl, rfl, rfl⟩
  obtain ⟨hmoves, hpend, hstate⟩ := hack
  unfold tcpFasttmr
  dsimp only
  split_ifs with hcp
  · refine (moves_mapQuiet hmoves (fun pcb => { pcb with closePend := false }) rfl rfl rfl rfl
      (.stay _) nofun).trans (moves_tcpCloseShutdownFin _ ?_ h)
    exact hstate ▸ hopen (hpend ▸ hcp)
  · exact hmoves

/-! ### Runs -/

/-- A FIN waits for memory only after the handshake. -/
def PendOpen (s : Sender o) : Prop := s.pcb.closePend = true → s.pcb.state ≠ .synRcvd

lemma core_tcpRexmit (s : Sender o) : core (tcpRexmit s).pcb = core s.pcb := by
  unfold tcpRexmit
  split_ifs <;> rfl

lemma core_tcpRexmitRtoPrepare (s : Sender o) : core (tcpRexmitRtoPrepare s).pcb = core s.pcb := by
  unfold tcpRexmitRtoPrepare
  split <;> rfl

lemma probe_pcb (s : Sender o) : ∃ edge nxt, (tcpZeroWindowProbe s).1.pcb =
    { s.pcb with
      rx := { s.pcb.rx with rcvAnnRightEdge := edge }
      tx := { s.tx with sndNxt := nxt } } := by
  unfold tcpZeroWindowProbe
  split
  · exact ⟨_, _, rfl⟩
  · exact tcpZeroWindowProbe_eq s.pcb

lemma core_probe (s : Sender o) : core (tcpZeroWindowProbe s).1.pcb = core s.pcb := by
  obtain ⟨edge, nxt, heq⟩ := probe_pcb s
  rw [heq]
  rfl

lemma core_split (keep n : ℕ) (s : Sender o) :
    core (tcpSplitUnsentSeg keep n s).1.pcb = core s.pcb :=
  (same_tcpSplitUnsentSeg keep n s.pcb).1

lemma core_move (hm : Move g s s') :
    Quiet s s' ∨ core s'.pcb = core s.pcb ∨ s'.pcb.state ≠ .synRcvd := by
  -- a move that is not quiet leaves the pcb where it is or ends the handshake
  cases hm with
  | quiet hq => exact .inl hq
  | options seg => exact .inr (.inl (core_tcpParseopt _ seg))
  | establish ackno pcb hstate hopen =>
    refine .inr (.inr fun he => ?_)
    rw [show _ = pcb.state from rfl] at he
    rcases hopen with h | h <;> rw [h] at he <;> cases he
  | timeWait => exact .inr (.inr nofun)
  | window | ack | measure | countRexmit | send | startPersist | persist | tickTimer | route =>
    exact .inr (.inl rfl)
  | timeout => exact .inr (.inl (core_tcpRexmitRtoPrepare s))
  | duplicate =>
    obtain ⟨tx, htx⟩ := duplicateAck_pcb s
    rw [htx]
    exact .inr (.inl rfl)
  | resendSyn => exact .inr (.inl (core_tcpRexmit s))
  | probe => exact .inr (.inl (core_probe s))
  | split keep => exact .inr (.inl (core_split keep _ s))
  | write data pcb h =>
    have hcore := (same_tcpWrite s.pcb data).1
    rw [h] at hcore
    exact .inr (.inl hcore)
  | fin pcb next h hnext =>
    refine .inr (.inr ?_)
    rintro rfl
    revert hnext
    cases s.pcb.state <;> nofun

lemma pendOpen_move (h : PendOpen s) (hm : Move g s s') : PendOpen s' := by
  intro hp
  rcases core_move hm with hq | hcore | hopen
  · have hne : s.pcb.state ≠ .synRcvd := (hq.pend hp).elim h id
    intro he
    have hadv := hq.state
    rw [he] at hadv
    generalize s.pcb.state = st at hadv hne
    cases hadv
    exact hne rfl
  · rw [state_of_core hcore]
    exact h (closePend_of_core hcore ▸ hp)
  · exact hopen

/-- Every event is a sequence of moves. -/
theorem moves_step {e : Event} (hopen : PendOpen s) (h : Respects g (some s) e)
    (hs : step (some s) e = some s') : Moves g s s' := by
  have happ : ∀ f : Sender o → Sender o, (s.pcb.state ≠ .synRcvd → Moves g s (f s)) →
      Moves g s (whenOpen f s) := by
    intro f hf
    unfold whenOpen
    split_ifs with hst
    · exact .refl
    · exact hf hst
  cases e with
  | write data =>
    obtain rfl := Option.some.inj hs
    exact happ _ fun hst => moves_write data s hst h
  | shutdown =>
    obtain rfl := Option.some.inj hs
    exact happ _ fun hst => moves_tcpShutdownTx s hst h
  | close =>
    simp only [step] at hs
    split_ifs at hs with hst
    · obtain rfl := Option.some.inj hs
      exact .refl
    · exact moves_tcpClose hst h hs
  | recved len =>
    obtain rfl := Option.some.inj hs
    exact happ _ fun _ => moves_tcpRecved len s
  | output =>
    obtain rfl := Option.some.inj hs
    exact moves_tcpOutput s
  | segment seg => exact moves_tcpInput h hs
  | fasttmr =>
    obtain rfl := Option.some.inj hs
    unfold whenActive
    split_ifs
    · exact moves_tcpFasttmr s hopen h
    · exact .refl
  | slowtmr keep => exact moves_tcpSlowtmr h hs
  | mem ok =>
    obtain rfl := Option.some.inj hs
    exact .single (.quiet (quiet_pcb rfl rfl rfl rfl (.stay _) id))
  | route ok =>
    obtain rfl := Option.some.inj hs
    exact .single (.route ok h)

lemma route_enterTimeWait (pcb : Pcb o) : (enterTimeWait pcb).env.route = pcb.env.route := by
  unfold enterTimeWait tcpPcbPurge
  split_ifs <;> rfl

def Routed (g : Discipline) (s : Sender o) : Prop := g.routed = true → s.pcb.env.route = true

lemma routed_free (h : g.routed = false) : Routed g s := fun hg => absurd (h ▸ hg) nofun

lemma Routed.of_side (h : Routed g s) (hs : side s'.pcb = side s.pcb) : Routed g s' :=
  fun hg => (route_of_side hs).trans (h hg)

lemma routed_move (h : Routed g s) (hm : Move g s s') : Routed g s' := by
  cases hm with
  | quiet hq => exact fun hg => hq.route.trans (h hg)
  | options seg => exact fun hg => (route_tcpParseopt s.pcb seg).trans (h hg)
  | establish ackno pcb _ _ _ _ _ _ _ _ _ hroute => exact fun hg => hroute.trans (h hg)
  | timeWait => exact fun hg => (route_enterTimeWait s.pcb).trans (h hg)
  | window | ack | measure | countRexmit | send | startPersist | persist | tickTimer => exact h
  | timeout =>
    unfold tcpRexmitRtoPrepare
    split <;> exact h
  | duplicate =>
    obtain ⟨tx, htx⟩ := duplicateAck_pcb s
    exact h.of_side (by rw [htx]; rfl)
  | resendSyn =>
    unfold tcpRexmit
    split_ifs <;> exact h
  | probe =>
    obtain ⟨edge, nxt, heq⟩ := probe_pcb s
    exact h.of_side (by rw [heq]; rfl)
  | split keep => exact h.of_side (side_tcpSplitUnsentSeg keep _ s.pcb)
  | write data pcb hw =>
    have hside := side_tcpWrite s.pcb data
    rw [hw] at hside
    exact h.of_side hside
  | fin pcb next hf =>
    have hside := side_tcpSendFin s.pcb
    rw [hf] at hside
    exact h.of_side hside
  | route ok hok => exact hok

/-- What holds of a sender that still exists. -/
def Alive (I : Sender o → Prop) : Option (Sender o) → Prop
  | none => True
  | some s => I s

lemma Alive.imp {I J : Sender o → Prop} {t : Option (Sender o)} (h : Alive I t)
    (hIJ : ∀ s, I s → J s) : Alive J t := by
  cases t with
  | none => trivial
  | some t => exact hIJ t h

/-- What every move keeps holds of the sender, if it still exists, at the end of every run. -/
theorem run_keeps {I : Sender o → Prop} (hI : ∀ a b, I a → Move g a b → I b) (hopen : PendOpen s)
    (hs : I s) {es : List Event} (hes : Runs.Along step (Respects g) (some s) es) :
    Alive I (Runs.run step (some s) es) := by
  have hrun : Alive (fun t => PendOpen t ∧ I t) (Runs.run step (some s) es) := by
    refine Runs.invariant step (Alive fun t => PendOpen t ∧ I t) ?_ (s := some s) ⟨hopen, hs⟩ hes
    intro t e ht he
    cases t with
    | none => exact trivial
    | some t =>
      cases ht' : step (some t) e with
      | none => exact trivial
      | some t' =>
        have hmoves := moves_step ht.1 he ht'
        exact hmoves.keeps (I := fun t => PendOpen t ∧ I t)
          (fun a b hab hm => ⟨pendOpen_move hab.1 hm, hI a b hab.2 hm⟩) ht
  revert hrun
  cases Runs.run step (some s) es with
  | none => exact fun _ => trivial
  | some t => exact fun ht => ht.2

end TunForge.SendEngine
