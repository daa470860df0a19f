import TunForge.InputCases
import TunForge.SendEngine

/-! The two models of the send side agree. `TcpOut`, `TcpIn` and `Tcp` take from the surroundings of
a pcb what `SendEngine` computes: what the window and Nagle let out, and which duplicate
acknowledgement is the third. Told that, every function of the one does to the pcb what its
counterpart does. -/
namespace TunForge.SendAgreement
open SerialNumber PbufChain LwipTypes TcpOut TcpIn Tcp Stack
open InputCases (reset_tcpReceive)
open SendEngine (Sender Received sendWindow reach outputLoop stopPersist outputDone outputAck
  outputSegments startPersist tcpDoOutputNagle tcpOutputSegment countDuplicate duplicateAck
    measureRtt
  acknowledged preamble)

variable {o : Platform}

/-! ### What the surroundings have to say -/

/-- The window admits the first unsent segment. -/
def headFits (s : Sender o) : Bool :=
  match s.tx.unsent with
  | [] => true
  | seg :: _ => decide (reach s.tx seg ≤ sendWindow s)

/-- How many segments the loop of `tcp_output` sends. -/
def quota (wnd : ℕ) : ℕ → Sender o → ℕ
  | 0, _ => 0
  | fuel + 1, s =>
    match s.tx.unsent with
    | [] => 0
    | seg :: rest =>
      if reach s.tx seg ≤ wnd then
        if !tcpDoOutputNagle s && !(s.tx.nagleMemErr || s.tx.finQueued) then 0
        else quota wnd fuel (tcpOutputSegment seg rest s) + 1
      else 0

/-- What a call of `tcp_output` comes to. -/
def prospects (s : Sender o) : Bool × ℕ :=
  (headFits s, quota (sendWindow s) s.tx.unsent.length (stopPersist s))

/-- A duplicate acknowledgement that comes now is answered by `tcp_rexmit_fast`. -/
def thirdDuplicate (s : Sender o) : Bool :=
  decide (0 ≤ s.rexmit.rtime) && decide (2 ≤ s.cong.dupacks) && !s.cong.infr

/-- The surroundings of a pcb during an event that calls `tcp_output` on the senders `outputs`, one
after the other. -/
def surroundings (s : Sender o) (outputs : List (Sender o)) : Env where
  mem := s.pcb.env.mem
  headFits := ((outputs.map prospects).headD (true, 0)).1
  quota := ((outputs.map prospects).headD (true, 0)).2
  exhausted := false
  rto := s.trip.rto.toNat
  route := s.pcb.env.route
  fastRexmit := thirdDuplicate s
  later := (outputs.map prospects).tail

/-- The surroundings foretell what a call of `tcp_output` comes to. -/
def Foretells (env : Env) (s : Sender o) : Prop := (env.headFits, env.quota) = prospects s

lemma foretells_surroundings (s t : Sender o) (outputs : List (Sender o)) :
    Foretells (surroundings s (t :: outputs)) t := rfl

lemma next_surroundings (s t u : Sender o) (outputs : List (Sender o)) :
    (surroundings s (t :: u :: outputs)).next = surroundings s (u :: outputs) := rfl

/-! ### Pcbs -/

/-- A pcb of the stack shows the pcb of a sender: they differ at most in their surroundings, in the
poll timer and in the backlog flag, which the send engine does not follow. -/
def Shows (env : Env) (p q : Pcb o) : Prop :=
  ∃ t b, p = { q with env := env, polltmr := t, backlogPend := b, closed := false }

/-- It does so in surroundings with as much memory, and with a route if the sender has one. -/
structure Tuned (env : Env) (p q : Pcb o) : Prop where
  shows : Shows env p q
  mem : env.mem = q.env.mem
  route : env.route = q.env.route

section Pcbs

variable {env : Env} {p q : Pcb o}

lemma Tuned.update (h : Tuned env p q) (f : Pcb o → Pcb o)
    (hf : ∀ q t b, f { q with env := env, polltmr := t, backlogPend := b, closed := false } =
      { f q with env := env, polltmr := t, backlogPend := b, closed := false })
    (henv : (f q).env = q.env) : Tuned env (f p) (f q) := by
  obtain ⟨⟨t, b, rfl⟩, hm, hr⟩ := h
  exact ⟨⟨t, b, hf q t b⟩, henv ▸ hm, henv ▸ hr⟩

lemma Tuned.sendEmptyAck (h : Tuned env p q) :
    Tuned env (tcpSendEmptyAck p) (tcpSendEmptyAck q) := by
  obtain ⟨⟨t, b, rfl⟩, hm, hr⟩ := h
  unfold tcpSendEmptyAck
  dsimp only
  rw [hm, hr]
  split_ifs
  · exact ⟨⟨t, b, rfl⟩, hm, hr⟩
  · exact ⟨⟨t, b, rfl⟩, hm, hr⟩
  · exact ⟨⟨t, b, rfl⟩, hm, hr⟩

lemma Tuned.env_eq (h : Tuned env p q) : p.env = env := by
  obtain ⟨⟨t, b, rfl⟩, hm, hr⟩ := h
  rfl

lemma Tuned.tx_eq (h : Tuned env p q) : p.tx = q.tx := by
  obtain ⟨⟨t, b, rfl⟩, hm, hr⟩ := h
  rfl

lemma Tuned.rx_eq (h : Tuned env p q) : p.rx = q.rx := by
  obtain ⟨⟨t, b, rfl⟩, hm, hr⟩ := h
  rfl

lemma Tuned.state_eq (h : Tuned env p q) : p.state = q.state := by
  obtain ⟨⟨t, b, rfl⟩, hm, hr⟩ := h
  rfl

lemma Tuned.ackNow_eq (h : Tuned env p q) : p.ackNow = q.ackNow := by
  obtain ⟨⟨t, b, rfl⟩, hm, hr⟩ := h
  rfl

end Pcbs

/-! ### `tcp_output` -/

/-- The pcb after the first `n` unsent segments have left. -/
def afterSending (n : ℕ) (p : Pcb o) : Pcb o :=
  if n = 0 then p
  else { p with
    rx := announce p.rx, tx := sendSegments n p.tx, ackDelay := false, ackNow := false }

lemma afterSending_succ {s : Sender o} {seg : TxSeg} {rest : List TxSeg}
    (h : s.tx.unsent = seg :: rest) (n : ℕ) :
    afterSending n (tcpOutputSegment seg rest s).pcb = afterSending (n + 1) s.pcb := by
  have hnext : sendSegments (n + 1) s.pcb.tx = sendSegments n (noteSent s.tx seg rest) := by
    rw [sendSegments, show s.pcb.tx.unsent = seg :: rest from h]
    rfl
  unfold afterSending
  rw [if_neg (Nat.succ_ne_zero n), hnext]
  cases n with
  | zero => rfl
  | succ n => rfl

lemma outputLoop_pcb (wnd fuel : ℕ) (s : Sender o) :
    (outputLoop wnd fuel s).pcb = afterSending (quota wnd fuel s) s.pcb := by
  induction fuel generalizing s with
  | zero => rfl
  | succ fuel ih =>
    unfold outputLoop quota
    cases hunsent : s.tx.unsent with
    | nil => rfl
    | cons seg rest =>
      dsimp only
      by_cases hreach : reach s.tx seg ≤ wnd
      · rw [if_pos hreach, if_pos hreach]
        by_cases hnagle : (!tcpDoOutputNagle s && !(s.tx.nagleMemErr || s.tx.finQueued)) = true
        · rw [if_pos hnagle, if_pos hnagle]
          rfl
        · rw [if_neg hnagle, if_neg hnagle, ih, afterSending_succ hunsent]
      · rw [if_neg hreach, if_neg hreach]
        rfl

/-- What `tcp_output` does behind its loop. -/
def afterLoop (p : Pcb o) : Pcb o :=
  { p with tx := { p.tx with
    unsentOversize := if p.tx.unsent = [] then 0 else p.tx.unsentOversize
    nagleMemErr := false } }

lemma outputSegments_pcb (s : Sender o) :
    (outputSegments s).pcb = afterLoop (afterSending (prospects s).2 s.pcb) := by
  have hloop : (outputLoop (sendWindow s) s.tx.unsent.length (stopPersist s)).pcb =
      afterSending (prospects s).2 s.pcb := outputLoop_pcb _ _ _
  rw [← hloop]
  rfl

lemma outputAck_pcb (s : Sender o) :
    (outputAck s).pcb =
      if s.pcb.ackNow then tcpSendEmptyAck s.pcb
      else { s.pcb with tx := { s.pcb.tx with nagleMemErr := false } } := by
  unfold outputAck
  split_ifs <;> rfl

lemma startPersist_pcb (wnd : ℕ) (s : Sender o) : (startPersist wnd s).pcb = s.pcb := by
  unfold startPersist
  split_ifs <;> rfl

lemma tcpOutput_pcb {s : Sender o} (hidle : s.pcb.inputPcb = false) :
    (SendEngine.tcpOutput s).pcb =
      if s.pcb.tx.unsent ≠ [] ∧ !s.pcb.env.route then s.pcb
      else if s.pcb.tx.unsent = [] || !headFits s then
        if s.pcb.ackNow then tcpSendEmptyAck s.pcb
        else { s.pcb with tx := { s.pcb.tx with nagleMemErr := false } }
      else afterLoop (afterSending (prospects s).2 s.pcb) := by
  -- `tcp_output` outside `tcp_input`, as far as the pcb goes
  unfold SendEngine.tcpOutput
  rw [hidle, if_neg Bool.false_ne_true]
  cases hunsent : s.tx.unsent with
  | nil =>
    have htx : s.pcb.tx.unsent = [] := hunsent
    rw [if_neg (fun h => h.1 htx), if_pos (by simp [htx])]
    exact outputAck_pcb s
  | cons seg rest =>
    have htx : s.pcb.tx.unsent ≠ [] := by
      rw [show s.pcb.tx.unsent = seg :: rest from hunsent]
      exact List.cons_ne_nil _ _
    have hfits : headFits s = decide (reach s.tx seg ≤ sendWindow s) := by rw [headFits, hunsent]
    dsimp only
    by_cases hroute : (!s.pcb.env.route) = true
    · rw [if_pos hroute, if_pos ⟨htx, hroute⟩]
    · have hway : ¬(s.pcb.tx.unsent ≠ [] ∧ (!s.pcb.env.route) = true) := fun h => hroute h.2
      rw [if_neg hroute, if_neg hway]
      by_cases hreach : reach s.tx seg ≤ sendWindow s
      · rw [if_neg (Nat.not_lt.2 hreach), if_neg (by simp [htx, hfits, hreach])]
        exact outputSegments_pcb s
      · rw [if_pos (Nat.not_le.1 hreach), if_pos (by simp [hfits, hreach]), outputAck_pcb,
          startPersist_pcb]

lemma Tuned.send {env : Env} {p q : Pcb o} (h : Tuned env p q) (hne : q.tx.unsent ≠ []) (n : ℕ) :
    Tuned env
      (if n = 0 then { p with tx := { p.tx with nagleMemErr := false } }
      else
        let tx := sendSegments n p.tx
        let tx := { tx with
          unsentOversize := if tx.unsent = [] then 0 else tx.unsentOversize
          nagleMemErr := false }
        { p with rx := announce p.rx, tx := tx, ackDelay := false, ackNow := false })
      (afterLoop (afterSending n q)) := by
  obtain ⟨⟨t, b, rfl⟩, hm, hr⟩ := h
  cases n with
  | zero =>
    refine ⟨⟨t, b, ?_⟩, hm, hr⟩
    simp [afterLoop, afterSending, hne]
  | succ n => exact ⟨⟨t, b, rfl⟩, hm, hr⟩

lemma tuned_outputNow {env : Env} {p : Pcb o} {s : Sender o} (h : Tuned env p s.pcb)
    (hf : Foretells env s) (hidle : s.pcb.inputPcb = false) :
    Tuned env (outputNow p) (SendEngine.tcpOutput s).pcb := by
  obtain ⟨hfits, hquota⟩ := Prod.mk.inj hf
  have hdone := h.update (fun p => { p with tx := { p.tx with nagleMemErr := false } })
    (fun _ _ _ => rfl) rfl
  rw [tcpOutput_pcb hidle]
  unfold outputNow
  by_cases hroute : s.pcb.tx.unsent ≠ [] ∧ (!s.pcb.env.route) = true
  · rw [if_pos hroute, if_pos (by rwa [h.tx_eq, h.env_eq, h.route])]
    exact h
  rw [if_neg hroute, if_neg (by rwa [h.tx_eq, h.env_eq, h.route])]
  by_cases hheld : (decide (s.pcb.tx.unsent = []) || !headFits s) = true
  · rw [if_pos hheld, if_pos (by rwa [h.tx_eq, h.env_eq, hfits])]
    by_cases hack : s.pcb.ackNow = true
    · rw [if_pos hack, if_pos (h.ackNow_eq.trans hack)]
      exact h.sendEmptyAck
    · rw [if_neg hack, if_neg (by rwa [h.ackNow_eq])]
      exact hdone
  · have hleave : p.env.quota = (prospects s).2 := by rw [h.env_eq, hquota]; rfl
    rw [if_neg hheld, if_neg (by rwa [h.tx_eq, h.env_eq, hfits]), hleave]
    refine h.send (fun hnil => hheld ?_) _
    simp [hnil]

lemma next_mem (env : Env) : env.next.mem = env.mem := by
  unfold Env.next
  split <;> rfl

lemma tuned_tcpOutput {env : Env} {p : Pcb o} {s : Sender o} (h : Tuned env p s.pcb)
    (hf : Foretells env s) (hidle : s.pcb.inputPcb = false) :
    Tuned env.next (tcpOutput p) (SendEngine.tcpOutput s).pcb := by
  have hp : p.inputPcb = false := by
    obtain ⟨⟨t, b, rfl⟩, -, -⟩ := h
    exact hidle
  have henv := h.env_eq
  obtain ⟨⟨t, b, heq⟩, hm, hr⟩ := tuned_outputNow h hf hidle
  unfold tcpOutput
  rw [hp, if_neg Bool.false_ne_true, heq, henv]
  exact ⟨⟨t, b, rfl⟩, (next_mem env).trans hm, (Env.next_route env).trans hr⟩

/-! ### `tcp_receive` -/

section Receive

variable {env : Env} {p q : Pcb o}

lemma Tuned.ackNow (h : Tuned env p q) : Tuned env (tcpAckNow p) (tcpAckNow q) :=
  h.update tcpAckNow (fun _ _ _ => rfl) rfl

lemma Tuned.setTx (h : Tuned env p q) (tx : Tx) : 
    Tuned (o := o) env { p with tx := tx } { q with tx := tx } :=
  h.update (fun p => { p with tx := tx }) (fun _ _ _ => rfl) rfl

lemma Tuned.setState (h : Tuned env p q) (state : TcpState) :
    Tuned (o := o) env { p with state := state } { q with state := state } :=
  h.update (fun p => { p with state := state }) (fun _ _ _ => rfl) rfl

lemma Tuned.ack (h : Tuned env p q) : Tuned env (tcpAck p) (tcpAck q) := by
  obtain ⟨⟨t, b, rfl⟩, hm, hr⟩ := h
  unfold tcpAck
  dsimp only
  split_ifs
  · exact ⟨⟨t, b, rfl⟩, hm, hr⟩
  · exact ⟨⟨t, b, rfl⟩, hm, hr⟩

lemma Tuned.enterTimeWait (h : Tuned env p q) : Tuned env (enterTimeWait p) (enterTimeWait q) := by
  obtain ⟨⟨t, b, rfl⟩, hm, hr⟩ := h
  unfold TcpIn.enterTimeWait tcpPcbPurge
  dsimp only
  split_ifs
  · exact ⟨⟨t, _, rfl⟩, hm, hr⟩
  · exact ⟨⟨t, b, rfl⟩, hm, hr⟩

lemma Tuned.correctFin (h : Tuned env p q) : Tuned env (correctFin p) (correctFin q) := by
  have hmax : p.wndMax = q.wndMax := by
    obtain ⟨⟨t, b, rfl⟩, -, -⟩ := h
    rfl
  unfold Stack.correctFin
  rw [h.rx_eq, hmax]
  split_ifs
  · exact h.update (fun p => { p with rx := { q.rx with rcvWnd := (q.rx.rcvWnd + 1) % o.wndMod } })
      (fun _ _ _ => rfl) rfl
  · exact h

lemma Tuned.parseopt (h : Tuned env p q) (seg : Segment) :
    Tuned env (tcpParseopt p seg) (tcpParseopt q seg) := by
  obtain ⟨⟨t, b, rfl⟩, hm, hr⟩ := h
  unfold tcpParseopt
  cases seg.wndScale with
  | none => cases seg.mss <;> exact ⟨⟨t, b, rfl⟩, hm, hr⟩
  | some w =>
    cases seg.mss with
    | none =>
      dsimp only
      split_ifs
      · exact ⟨⟨t, b, rfl⟩, hm, hr⟩
      · exact ⟨⟨t, b, rfl⟩, hm, hr⟩
    | some m =>
      dsimp only
      generalize (if tcpMss < m ∨ m = 0 then tcpMss else m) = mss
      split_ifs
      · exact ⟨⟨t, b, rfl⟩, hm, hr⟩
      · exact ⟨⟨t, b, rfl⟩, hm, hr⟩

lemma Tuned.noteActivity (h : Tuned env p q) (seg : Segment) :
    Tuned env (noteActivity p seg) (noteActivity q seg) := by
  have htmr : Tuned env (if p.rxClosed then p else { p with tmr := p.ticks })
      (if q.rxClosed then q else { q with tmr := q.ticks }) := by
    obtain ⟨⟨t, b, rfl⟩, hm, hr⟩ := h
    dsimp only
    split_ifs
    · exact ⟨⟨t, b, rfl⟩, hm, hr⟩
    · exact ⟨⟨t, b, rfl⟩, hm, hr⟩
  unfold TcpIn.noteActivity
  generalize (if p.rxClosed then p else { p with tmr := p.ticks }) = p₁ at htmr ⊢
  generalize (if q.rxClosed then q else { q with tmr := q.ticks }) = q₁ at htmr ⊢
  exact htmr.parseopt seg

lemma Tuned.receiveText (h : Tuned env p q) (seg : Segment) :
    Tuned env (tcpReceiveText p seg).pcb (tcpReceiveText q seg).pcb ∧
      (tcpReceiveText p seg).recvData = (tcpReceiveText q seg).recvData ∧
      (tcpReceiveText p seg).gotFin = (tcpReceiveText q seg).gotFin := by
  -- the part of `tcp_receive` for a segment with text
  unfold tcpReceiveText
  rw [h.rx_eq]
  generalize trimFirstEdge q.rx.rcvNxt seg = inseg
  have h₁ : Tuned env (if lt inseg.seqno q.rx.rcvNxt then tcpAckNow p else p)
      (if lt inseg.seqno q.rx.rcvNxt then tcpAckNow q else q) := by
    split_ifs
    · exact h.ackNow
    · exact h
  dsimp only
  generalize (if lt inseg.seqno q.rx.rcvNxt then tcpAckNow p else p) = p₁ at h₁ ⊢
  generalize (if lt inseg.seqno q.rx.rcvNxt then tcpAckNow q else q) = q₁ at h₁ ⊢
  obtain ⟨⟨t, b, rfl⟩, hm, hr⟩ := h₁
  dsimp only
  rw [hm]
  split_ifs
  · exact ⟨Tuned.ack ⟨⟨t, b, rfl⟩, hm, hr⟩, rfl, rfl⟩
  · exact ⟨Tuned.ack ⟨⟨t, b, rfl⟩, hm, hr⟩, rfl, rfl⟩
  · exact ⟨Tuned.sendEmptyAck ⟨⟨t, b, rfl⟩, hm, hr⟩, rfl, rfl⟩
  · exact ⟨Tuned.sendEmptyAck ⟨⟨t, b, rfl⟩, hm, hr⟩, rfl, rfl⟩

end Receive

/-! ### The acknowledgement half of `tcp_receive` -/

lemma dupacks_countDuplicate (mss : ℕ) (c : SendEngine.Congestion) :
    3 ≤ (countDuplicate o mss c).dupacks ↔ 2 ≤ c.dupacks := by
  unfold countDuplicate
  by_cases hlt : c.dupacks < 0xFF
  · simp only [if_pos hlt]
    split_ifs <;> simp only <;> omega
  · simp only [if_neg hlt]
    split_ifs
    · simp only
      omega
    · omega

lemma infr_countDuplicate (mss : ℕ) (c : SendEngine.Congestion) :
    (countDuplicate o mss c).infr = c.infr := by
  unfold countDuplicate
  dsimp only
  split_ifs <;> rfl

lemma tcpRexmit_nil {tx : Tx} (h : tx.unacked = []) : tcpRexmit tx = tx := by
  unfold tcpRexmit
  rw [h]

lemma tcpRexmit_pcb (s : Sender o) :
    (SendEngine.tcpRexmit s).pcb = { s.pcb with tx := tcpRexmit s.pcb.tx } := by
  unfold SendEngine.tcpRexmit
  split_ifs with hnil
  · rw [tcpRexmit_nil (show s.pcb.tx.unacked = [] from hnil)]
  · rfl

lemma tcpRexmitFast_pcb (s : Sender o) :
    (SendEngine.tcpRexmitFast s).pcb =
      { s.pcb with tx := if s.cong.infr then s.pcb.tx else tcpRexmit s.pcb.tx } := by
  unfold SendEngine.tcpRexmitFast
  by_cases hnil : s.tx.unacked = []
  · rw [if_neg fun h => h.1 hnil, tcpRexmit_nil (show s.pcb.tx.unacked = [] from hnil), ite_self]
  · cases hinfr : s.cong.infr with
    | true => rw [if_neg (by simp), if_pos rfl]
    | false =>
      rw [if_pos ⟨hnil, rfl⟩, if_neg Bool.false_ne_true]
      exact tcpRexmit_pcb s

lemma duplicateAck_pcb {s : Sender o} (htime : 0 ≤ s.rexmit.rtime) :
    (duplicateAck s).pcb =
      { s.pcb with tx := if thirdDuplicate s then tcpRexmit s.pcb.tx else s.pcb.tx } := by
  have hcount := dupacks_countDuplicate (o := o) s.pcb.mss s.cong
  unfold duplicateAck thirdDuplicate
  dsimp only
  by_cases hthree : 2 ≤ s.cong.dupacks
  · rw [if_pos (hcount.2 hthree), tcpRexmitFast_pcb]
    dsimp only
    rw [infr_countDuplicate]
    cases s.cong.infr <;> simp [htime, hthree]
  · rw [if_neg fun h => hthree (hcount.1 h)]
    simp [hthree]

lemma measureRtt_pcb (ackno : Seq) (s : Sender o) : (measureRtt ackno s).pcb = s.pcb := by
  unfold measureRtt
  split_ifs <;> rfl

lemma tuned_acknowledge {env : Env} {p : Pcb o} {s : Sender o} (h : Tuned env p s.pcb)
    (hf : env.fastRexmit = thirdDuplicate s) (edge : Seq) (seg : Segment) :
    let r : Pcb o × ℕ :=
      if leq seg.ackno p.tx.lastack then
        let fast := isDuplicate edge seg p.tx && p.env.fastRexmit
        ({ p with tx := if fast then tcpRexmit p.tx else p.tx }, 0)
      else if between seg.ackno (p.tx.lastack + 1) p.tx.sndNxt then
        let (tx, acked) := ackNewData o p.tx seg.ackno
        ({ p with tx := tx, polltmr := 0 }, acked)
      else (tcpSendEmptyAck p, 0)
    let r' : Sender o × ℕ :=
      if leq seg.ackno s.tx.lastack then
        (measureRtt seg.ackno
          (if SendEngine.isDuplicate edge seg s then duplicateAck s else s), 0)
      else if between seg.ackno (s.tx.lastack + 1) s.tx.sndNxt then
        let (s, acked) := acknowledged seg.ackno s
        (measureRtt seg.ackno s, acked)
      else (measureRtt seg.ackno (s.mapPcb tcpSendEmptyAck), 0)
    Tuned env r.1 r'.1.pcb ∧ r.2 = r'.2 := by
  -- the acknowledgement in a segment, once the window has been updated
  have htx : p.tx = s.tx := h.tx_eq
  have hthird : p.env.fastRexmit = thirdDuplicate s := by rw [h.env_eq, hf]
  dsimp only
  rw [htx, hthird]
  by_cases hold : leq seg.ackno s.tx.lastack = true
  · rw [if_pos hold, if_pos hold]
    refine ⟨?_, rfl⟩
    rw [measureRtt_pcb]
    unfold SendEngine.isDuplicate
    by_cases htime : 0 ≤ s.rexmit.rtime
    · cases isDuplicate edge seg s.tx with
      | false => exact h.setTx s.tx
      | true =>
        simp only [htime, decide_true, Bool.true_and, if_true, duplicateAck_pcb htime]
        exact h.setTx _
    · have hno : thirdDuplicate s = false := by simp [thirdDuplicate, htime]
      simp only [hno, htime, decide_false, Bool.and_false, Bool.false_eq_true, if_false]
      exact h.setTx s.tx
  · rw [if_neg hold, if_neg hold]
    by_cases hnew : between seg.ackno (s.tx.lastack + 1) s.tx.sndNxt = true
    · rw [if_pos hnew, if_pos hnew]
      refine ⟨?_, rfl⟩
      dsimp only
      rw [measureRtt_pcb]
      obtain ⟨⟨t, b, rfl⟩, hm, hr⟩ := h
      exact ⟨⟨0, b, rfl⟩, hm, hr⟩
    · rw [if_neg hnew, if_neg hnew]
      refine ⟨?_, rfl⟩
      rw [measureRtt_pcb]
      exact h.sendEmptyAck

lemma tuned_receiveAck {env : Env} {p : Pcb o} {s : Sender o} (h : Tuned env p s.pcb)
    (hf : env.fastRexmit = thirdDuplicate s) (seg : Segment) :
    Tuned env (tcpReceiveAck p seg).1 (SendEngine.tcpReceiveAck s seg).1.pcb ∧
      (tcpReceiveAck p seg).2 = (SendEngine.tcpReceiveAck s seg).2 := by
  have htx : p.tx = s.tx := h.tx_eq
  unfold tcpReceiveAck SendEngine.tcpReceiveAck
  by_cases hack : seg.ack = true
  · rw [if_pos hack, if_pos hack, htx]
    have h₁ := h.setTx (updateSndWnd s.tx seg)
    exact tuned_acknowledge (s := s.setTx (updateSndWnd s.tx seg)) h₁ hf _ seg
  · rw [if_neg hack, if_neg hack]
    exact ⟨h, rfl⟩

/-! ### The state machine -/

/-- What the two models leave behind for the rest of `tcp_input`. -/
structure Heard (env : Env) (r : Processed o) (r' : Received o) : Prop where
  pcb : Tuned env r.pcb r'.sender.pcb
  recvData : r.recvData = r'.recvData
  gotFin : r.gotFin = r'.gotFin
  recvAcked : r.recvAcked = r'.recvAcked

lemma heard_tcpReceive {env : Env} {p : Pcb o} {s : Sender o} (h : Tuned env p s.pcb)
    (hf : env.fastRexmit = thirdDuplicate s) (seg : Segment) :
    Heard env (tcpReceive p seg) (SendEngine.tcpReceive s seg) := by
  obtain ⟨hpcb, hacked⟩ := tuned_receiveAck h hf seg
  unfold tcpReceive SendEngine.tcpReceive
  generalize tcpReceiveAck p seg = r at hpcb hacked ⊢
  generalize SendEngine.tcpReceiveAck s seg = r' at hpcb hacked ⊢
  obtain ⟨p₁, acked⟩ := r
  obtain ⟨s₁, acked'⟩ := r'
  obtain rfl : acked = acked' := hacked
  obtain ⟨htext, hdata, hfin⟩ := hpcb.receiveText seg
  dsimp only at hpcb htext hdata hfin ⊢
  rw [hpcb.state_eq, hpcb.rx_eq]
  split_ifs
  · exact ⟨htext, hdata, hfin, rfl⟩
  · exact ⟨hpcb, rfl, rfl, rfl⟩
  · exact ⟨hpcb.ackNow, rfl, rfl, rfl⟩

/-- How `tcp_process` ends: the pcb goes, or the two models go on alike. -/
def Ends (env : Env) (r : Processed o) (r' : Received o) : Prop :=
  (r'.gone = true ∧ (r.reset = true ∨ r.pcb.closed = true)) ∨
    (r'.gone = false ∧ r.reset = false ∧ Heard env r r')

lemma Heard.closeWait {env : Env} {r : Processed o} {r' : Received o} (h : Heard env r r') :
    Heard env (if r.gotFin then { r with pcb := { tcpAckNow r.pcb with state := .closeWait } }
      else r)
      (if r'.gotFin then r'.mapPcb fun pcb => { tcpAckNow pcb with state := .closeWait }
        else r') := by
  obtain ⟨p, data, fin, acked, reset⟩ := r
  obtain ⟨s, data', fin', acked', gone⟩ := r'
  obtain ⟨hpcb, rfl, rfl, rfl⟩ := h
  dsimp only
  split_ifs
  · exact ⟨hpcb.ackNow.setState _, rfl, rfl, rfl⟩
  · exact ⟨hpcb, rfl, rfl, rfl⟩

lemma gone_tcpReceive (s : Sender o) (seg : Segment) :
    (SendEngine.tcpReceive s seg).gone = false := by
  unfold SendEngine.tcpReceive
  dsimp only
  split_ifs <;> rfl

lemma Tuned.finAcked_eq {env : Env} {p q : Pcb o} (h : Tuned env p q) (seg : Segment) :
    finAcked p seg = finAcked q seg := by
  unfold finAcked
  rw [h.tx_eq]

lemma Tuned.backlog {env : Env} {p q : Pcb o} (h : Tuned env p q) :
    Tuned env p (tcpBacklogDelayed (tcpBacklogAccepted q)) := by
  obtain ⟨⟨t, b, rfl⟩, hm, hr⟩ := h
  unfold tcpBacklogDelayed tcpBacklogAccepted
  split_ifs
  · exact ⟨⟨t, b, rfl⟩, hm, hr⟩
  · exact ⟨⟨t, b, rfl⟩, hm, hr⟩

lemma heard_processEstablished {env : Env} {p : Pcb o} {s : Sender o}
    (h : Tuned (o := o) env { p with state := .established } { s.pcb with state := .established })
    (hf : env.fastRexmit = thirdDuplicate s) (hl : s.pcb.listener = true) (seg : Segment) :
    (SendEngine.processEstablished s seg).gone = false ∧
      Heard env (processEstablished p seg) (SendEngine.processEstablished s seg) := by
  -- the segment that completes the handshake, which TunForge has accepted
  unfold processEstablished SendEngine.processEstablished
  rw [hl, Bool.not_true, if_neg Bool.false_ne_true]
  dsimp only
  have hback : Tuned env { p with state := .established } (s.mapPcb fun pcb =>
      tcpBacklogDelayed (tcpBacklogAccepted { pcb with state := .established })).pcb := h.backlog
  have hr := heard_tcpReceive hback hf seg
  have hgone := gone_tcpReceive (s.mapPcb fun pcb =>
      tcpBacklogDelayed (tcpBacklogAccepted { pcb with state := .established })) seg
  generalize SendEngine.tcpReceive _ seg = r' at hr hgone ⊢
  generalize tcpReceive _ seg = r at hr ⊢
  obtain ⟨p₁, data, fin, acked, reset⟩ := r
  obtain ⟨s₁, data', fin', acked', gone⟩ := r'
  obtain ⟨hpcb, rfl, rfl, rfl⟩ := hr
  obtain rfl : gone = false := hgone
  dsimp only at hpcb ⊢
  split_ifs
  · exact ⟨rfl, hpcb.ackNow.setState _, rfl, rfl, rfl⟩
  · exact ⟨rfl, hpcb, rfl, rfl, rfl⟩

lemma ends_processState {env : Env} {p : Pcb o} {s : Sender o} (h : Tuned env p s.pcb)
    (hf : env.fastRexmit = thirdDuplicate s) {seg : Segment}
    (hc : completesHandshake s.pcb seg = false) :
    Ends env (processState p seg) (SendEngine.processState s seg) := by
  have hr := heard_tcpReceive h hf seg
  have hreset := reset_tcpReceive p seg
  have hgone := gone_tcpReceive s seg
  unfold processState SendEngine.processState
  rw [h.state_eq, h.rx_eq]
  generalize tcpReceive p seg = r at hr hreset ⊢
  generalize SendEngine.tcpReceive s seg = r' at hr hgone ⊢
  have hwait := hr.closeWait
  obtain ⟨p₁, data, fin, acked, reset⟩ := r
  obtain ⟨s₁, data', fin', acked', gone⟩ := r'
  obtain ⟨hpcb, rfl, rfl, rfl⟩ := hr
  obtain rfl : reset = false := hreset
  obtain rfl : gone = false := hgone
  dsimp only at hpcb hwait ⊢
  cases hst : s.pcb.state with
  | synRcvd =>
    obtain ⟨⟨t, b, rfl⟩, hm, hr⟩ := h
    dsimp only
    rw [hc, if_neg Bool.false_ne_true]
    cases seg.syn with
    | false =>
      rw [Bool.false_and, if_neg Bool.false_ne_true, if_neg Bool.false_ne_true]
      exact .inr ⟨rfl, rfl, ⟨⟨t, b, by simp only [hst]⟩, hm, hr⟩, rfl, rfl, rfl⟩
    | true =>
      rw [Bool.true_and, if_pos rfl]
      split_ifs
      · refine .inr ⟨rfl, rfl, ?_, rfl, rfl, rfl⟩
        dsimp only
        rw [tcpRexmit_pcb]
        exact ⟨⟨t, b, by simp only [hst]⟩, hm, hr⟩
      · exact .inr ⟨rfl, rfl, ⟨⟨t, b, by simp only [hst]⟩, hm, hr⟩, rfl, rfl, rfl⟩
  | established | closeWait =>
    refine .inr ⟨?_, ?_, hwait⟩
    · split_ifs <;> rfl
    · split_ifs <;> rfl
  | finWait1 =>
    dsimp only
    rw [hpcb.finAcked_eq]
    split_ifs
    · exact .inr ⟨rfl, rfl, hpcb.ackNow.enterTimeWait, rfl, rfl, rfl⟩
    · exact .inr ⟨rfl, rfl, hpcb.ackNow.setState _, rfl, rfl, rfl⟩
    · exact .inr ⟨rfl, rfl, hpcb.setState _, rfl, rfl, rfl⟩
    · exact .inr ⟨rfl, rfl, hpcb, rfl, rfl, rfl⟩
  | finWait2 =>
    dsimp only
    split_ifs
    · exact .inr ⟨rfl, rfl, hpcb.ackNow.enterTimeWait, rfl, rfl, rfl⟩
    · exact .inr ⟨rfl, rfl, hpcb, rfl, rfl, rfl⟩
  | closing =>
    dsimp only
    rw [hpcb.finAcked_eq]
    split_ifs
    · exact .inr ⟨rfl, rfl, hpcb.enterTimeWait, rfl, rfl, rfl⟩
    · exact .inr ⟨rfl, rfl, hpcb, rfl, rfl, rfl⟩
  | lastAck =>
    dsimp only
    rw [hpcb.finAcked_eq]
    split_ifs
    · exact .inl ⟨rfl, .inr rfl⟩
    · exact .inr ⟨rfl, rfl, hpcb, rfl, rfl, rfl⟩
  | closed | listen | synSent | timeWait => exact .inr ⟨rfl, rfl, h, rfl, rfl, rfl⟩

lemma completesHandshake_noteActivity (q : Pcb o) (seg : Segment) :
    completesHandshake (noteActivity q seg) seg = completesHandshake q seg := by
  have htmr : ∀ p : Pcb o, completesHandshake (tcpParseopt p seg) seg =
      completesHandshake p seg := by
    intro p
    unfold completesHandshake tcpParseopt
    cases seg.mss <;> cases seg.wndScale <;> dsimp only <;> (try split_ifs) <;> rfl
  unfold noteActivity
  rw [htmr]
  split_ifs <;> rfl

lemma tcpProcess_of_completes {s : Sender o} {seg : Segment} (hrst : seg.rst = false)
    (hc : completesHandshake s.pcb seg = true) :
    SendEngine.tcpProcess s seg = SendEngine.processEstablished (preamble s seg) seg := by
  -- the segment that completes the handshake goes straight to `processEstablished`
  have hnote : completesHandshake (preamble s seg).pcb seg = true :=
    (completesHandshake_noteActivity s.pcb seg).trans hc
  have hst : s.pcb.state = .synRcvd := by
    simp only [completesHandshake, Bool.and_eq_true, decide_eq_true_eq] at hc
    exact hc.1.1.1
  have hst' : (preamble s seg).pcb.state = .synRcvd := by
    simp only [completesHandshake, Bool.and_eq_true, decide_eq_true_eq] at hnote
    exact hnote.1.1.1
  have hsyn : seg.syn = false := by
    simp only [completesHandshake, Bool.and_eq_true, Bool.not_eq_true'] at hc
    exact hc.1.1.2
  unfold SendEngine.tcpProcess SendEngine.processState
  rw [hrst, if_neg Bool.false_ne_true, if_neg (by simp [hst]), hst']
  dsimp only
  rw [hsyn, if_neg Bool.false_ne_true, if_pos hnote]

lemma ends_tcpProcess {env : Env} {p : Pcb o} {s : Sender o} (h : Tuned env p s.pcb)
    (hf : env.fastRexmit = thirdDuplicate s) {seg : Segment}
    (hc : (!seg.rst && completesHandshake s.pcb seg) = false) :
    Ends env (tcpProcess p seg) (SendEngine.tcpProcess s seg) := by
  -- `tcp_process`, but for the segment that completes the handshake
  unfold tcpProcess SendEngine.tcpProcess resetAcceptable
  rw [h.rx_eq, h.state_eq]
  cases hrst : seg.rst with
  | true =>
    rw [if_pos rfl, if_pos rfl]
    split_ifs
    · exact .inl ⟨rfl, .inl rfl⟩
    · exact .inr ⟨rfl, rfl, h.ackNow, rfl, rfl, rfl⟩
    · exact .inr ⟨rfl, rfl, h, rfl, rfl, rfl⟩
  | false =>
    rw [hrst, Bool.not_false, Bool.true_and] at hc
    rw [if_neg Bool.false_ne_true, if_neg Bool.false_ne_true]
    split_ifs
    · exact .inr ⟨rfl, rfl, h.ackNow, rfl, rfl, rfl⟩
    · refine ends_processState (s := preamble s seg) (h.noteActivity seg) hf ?_
      exact (completesHandshake_noteActivity s.pcb seg).trans hc

/-! ### Queueing -/

section Queueing

variable {env : Env} {p q : Pcb o}

lemma Tuned.enqueueFlags (h : Tuned env p q) (syn fin : Bool) :
    Tuned env (tcpEnqueueFlags p syn fin).1 (tcpEnqueueFlags q syn fin).1 ∧
      (tcpEnqueueFlags p syn fin).2 = (tcpEnqueueFlags q syn fin).2 := by
  obtain ⟨⟨t, b, rfl⟩, hm, hr⟩ := h
  unfold tcpEnqueueFlags
  dsimp only
  by_cases hmem : q.env.mem = true
  · rw [if_pos (hm.trans hmem), if_pos hmem]
    exact ⟨⟨⟨t, b, rfl⟩, hm, hr⟩, rfl⟩
  · rw [if_neg (by rwa [hm]), if_neg hmem]
    exact ⟨⟨⟨t, b, rfl⟩, hm, hr⟩, rfl⟩

lemma Tuned.sendFin (h : Tuned env p q) :
    Tuned env (tcpSendFin p).1 (tcpSendFin q).1 ∧ (tcpSendFin p).2 = (tcpSendFin q).2 := by
  have hflags := h.enqueueFlags false true
  unfold tcpSendFin
  rw [h.tx_eq]
  cases q.tx.unsent.getLast? with
  | none => exact hflags
  | some last =>
    dsimp only
    split_ifs
    · exact ⟨h.setTx _, rfl⟩
    · exact hflags

lemma newSegments_eq (h : Tuned env p q) (m fuel : ℕ) (seqno : Seq) (first : Bool)
    (queuelen oversize : ℕ) (data : Bytes) :
    newSegments p m fuel seqno first queuelen oversize data =
      newSegments q m fuel seqno first queuelen oversize data := by
  have hmem : p.env.mem = q.env.mem := by rw [h.env_eq, h.mem]
  induction fuel generalizing seqno first queuelen oversize data with
  | zero => rfl
  | succ fuel ih =>
    unfold newSegments
    dsimp only
    rw [hmem, h.tx_eq, ih]

lemma extendLast_eq (h : Tuned env p q) (m len : ℕ) : extendLast p m len = extendLast q m len := by
  unfold extendLast
  rw [h.tx_eq, h.env_eq, h.mem]

lemma Tuned.write (h : Tuned env p q) (data : Bytes) :
    Tuned env (tcpWrite p data).1 (tcpWrite q data).1 ∧
    (tcpWrite p data).2 = (tcpWrite q data).2 := by
  have hchecks : tcpWriteChecks p data.length = tcpWriteChecks q data.length := by
    unfold tcpWriteChecks
    rw [h.state_eq, h.tx_eq]
  have hmss : mssLocal p = mssLocal q := by
    obtain ⟨⟨t, b, rfl⟩, -, -⟩ := h
    rfl
  unfold tcpWrite
  rw [hchecks]
  cases tcpWriteChecks q data.length with
  | ok =>
    dsimp only
    rw [hmss, extendLast_eq h, h.tx_eq]
    cases extendLast q (mssLocal q) data.length with
    | none => exact ⟨h.setTx _, rfl⟩
    | some found =>
      dsimp only
      rw [newSegments_eq h]
      split
      · exact ⟨h.setTx _, rfl⟩
      · exact ⟨h.setTx _, rfl⟩
  | mem =>
    dsimp only
    rw [h.tx_eq]
    exact ⟨h.setTx _, rfl⟩
  | _ => exact ⟨h, rfl⟩

lemma Tuned.splitUnsentSeg (h : Tuned env p q) (keep split : ℕ) :
    Tuned env (tcpSplitUnsentSeg keep split p).1 (tcpSplitUnsentSeg keep split q).1 ∧
      (tcpSplitUnsentSeg keep split p).2 = (tcpSplitUnsentSeg keep split q).2 := by
  obtain ⟨⟨t, b, rfl⟩, hm, hr⟩ := h
  unfold tcpSplitUnsentSeg
  dsimp only
  rw [hm]
  cases q.tx.unsent with
  | nil => exact ⟨⟨⟨t, b, rfl⟩, hm, hr⟩, rfl⟩
  | cons useg rest =>
    dsimp only
    split_ifs
    all_goals exact ⟨⟨⟨t, b, rfl⟩, hm, hr⟩, rfl⟩

lemma Tuned.zeroWindowProbe (h : Tuned env p q) :
    Tuned env (tcpZeroWindowProbe p).1 (tcpZeroWindowProbe q).1 := by
  obtain ⟨⟨t, b, rfl⟩, hm, hr⟩ := h
  unfold tcpZeroWindowProbe
  dsimp only
  rw [hm]
  cases q.tx.unsent with
  | nil => exact ⟨⟨t, b, rfl⟩, hm, hr⟩
  | cons seg rest =>
    dsimp only
    cases q.env.mem with
    | true => exact ⟨⟨t, b, rfl⟩, hm, hr⟩
    | false => exact ⟨⟨t, b, rfl⟩, hm, hr⟩

end Queueing

end TunForge.SendAgreement
