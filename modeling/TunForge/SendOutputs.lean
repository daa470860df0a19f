import TunForge.SendAgreement

/-! Several calls of `tcp_output` in one event: whom each event of the send engine calls it on, and
the agreement of the two models over a whole event. -/
namespace TunForge.SendOutputs
open SerialNumber PbufChain LwipTypes TcpOut TcpIn Tcp Stack SendAgreement
open SendEngine (Sender Received)

variable {o : Platform}

/-- A pcb in surroundings for the calls of `tcp_output` that are still to come in an event that
found the sender `s₀`. -/
def Prepared (s₀ : Sender o) (outputs : List (Sender o)) (p q : Pcb o) : Prop :=
  ∃ env, Tuned env p q ∧ (outputs ≠ [] → env = surroundings s₀ outputs)

section Prepared

variable {s₀ s : Sender o} {outputs : List (Sender o)} {p q : Pcb o}

lemma Prepared.map (h : Prepared s₀ outputs p q) {p' q' : Pcb o}
    (hf : ∀ env, Tuned env p q → Tuned env p' q') : Prepared s₀ outputs p' q' := by
  obtain ⟨env, ht, henv⟩ := h
  exact ⟨env, hf env ht, henv⟩

lemma Prepared.output (h : Prepared s₀ (s :: outputs) p s.pcb) (hidle : s.pcb.inputPcb = false) :
    Prepared s₀ outputs (tcpOutput p) (SendEngine.tcpOutput s).pcb := by
  obtain ⟨env, ht, henv⟩ := h
  obtain rfl := henv (List.cons_ne_nil _ _)
  refine ⟨_, tuned_tcpOutput ht (foretells_surroundings s₀ s outputs) hidle, ?_⟩
  intro hne
  cases outputs with
  | nil => exact absurd rfl hne
  | cons u outputs => exact next_surroundings s₀ s u outputs

lemma inputPcb_tcpSendFin (q : Pcb o) : (tcpSendFin q).1.inputPcb = q.inputPcb := by
  have hflags : (tcpEnqueueFlags q false true).1.inputPcb = q.inputPcb := by
    unfold tcpEnqueueFlags
    split_ifs <;> rfl
  unfold tcpSendFin
  cases q.tx.unsent.getLast? with
  | none => exact hflags
  | some last =>
    dsimp only
    split_ifs
    · rfl
    · exact hflags

/-- The calls of `tcp_output` in `tcp_close_shutdown_fin`. -/
def finOutputs (s : Sender o) : List (Sender o) :=
  match closeTarget s.pcb.state with
  | none => []
  | some next =>
    match tcpSendFin s.pcb with
    | (pcb, .ok) =>
      [{ s with pcb := { (if s.pcb.state = .synRcvd then tcpBacklogAccepted pcb else pcb) with
        state := next } }]
    | _ => []

lemma Prepared.closeShutdownFin (h : Prepared s₀ (finOutputs s ++ outputs) p s.pcb)
    (hidle : s.pcb.inputPcb = false) :
    Prepared s₀ outputs (tcpCloseShutdownFin p) (SendEngine.tcpCloseShutdownFin s).pcb := by
  have hst : p.state = s.pcb.state := by
    obtain ⟨env, ht, -⟩ := h
    exact ht.state_eq
  unfold finOutputs at h
  unfold tcpCloseShutdownFin SendEngine.tcpCloseShutdownFin
  rw [hst]
  cases hc : closeTarget s.pcb.state with
  | none =>
    rw [hc] at h
    exact h
  | some next =>
    rw [hc] at h
    have hfin : ∀ env, Tuned env p s.pcb →
        Tuned env (tcpSendFin p).1 (tcpSendFin s.pcb).1 ∧ (tcpSendFin p).2 = (tcpSendFin s.pcb).2 :=
      fun env ht => ht.sendFin
    have hkeep := inputPcb_tcpSendFin s.pcb
    dsimp only at h ⊢
    generalize tcpSendFin p = r at hfin ⊢
    generalize tcpSendFin s.pcb = r' at h hfin hkeep ⊢
    obtain ⟨p₁, err⟩ := r
    obtain ⟨q₁, err'⟩ := r'
    obtain rfl : err = err' := by
      obtain ⟨env, ht, -⟩ := h
      exact (hfin env ht).2
    dsimp only at h hfin hkeep ⊢
    cases err with
    | ok =>
      refine Prepared.output (s := { s with pcb := { (if s.pcb.state = .synRcvd then
        tcpBacklogAccepted q₁ else q₁) with state := next } }) (h.map fun env ht => ?_) ?_
      · obtain ⟨⟨t, b, heq⟩, hm, hr⟩ := (hfin env ht).1
        subst heq
        dsimp only
        split_ifs
        · exact ⟨⟨t, _, rfl⟩, hm, hr⟩
        · exact ⟨⟨t, b, rfl⟩, hm, hr⟩
      · dsimp only
        split_ifs
        · exact hkeep.trans hidle
        · exact hkeep.trans hidle
    | _ =>
      exact h.map fun env ht => (hfin env ht).1.update (fun p => { p with closePend := true })
        (fun _ _ _ => rfl) rfl

/-! ### The calls of the application -/

def writeOutputs (data : Bytes) (s : Sender o) : List (Sender o) :=
  match tcpWrite s.pcb data with
  | (pcb, .ok) => [{ s with pcb := pcb, accepted := s.accepted ++ data }]
  | _ => []

lemma inputPcb_tcpWrite (q : Pcb o) (data : Bytes) : (tcpWrite q data).1.inputPcb = q.inputPcb := by
  unfold tcpWrite
  cases tcpWriteChecks q data.length with
  | ok =>
    dsimp only
    cases extendLast q (mssLocal q) data.length with
    | none => rfl
    | some found =>
      dsimp only
      split <;> rfl
  | _ => rfl

lemma Prepared.write (data : Bytes) (h : Prepared s₀ (writeOutputs data s ++ outputs) p s.pcb)
    (hidle : s.pcb.inputPcb = false) :
    (tcpWrite p data).2 = (tcpWrite s.pcb data).2 ∧
      Prepared s₀ outputs (if (tcpWrite p data).2 = .ok then tcpOutput (tcpWrite p data).1
        else (tcpWrite p data).1) (SendEngine.write data s).pcb := by
  have hwrite : ∀ env, Tuned env p s.pcb → Tuned env (tcpWrite p data).1 (tcpWrite s.pcb data).1 ∧
      (tcpWrite p data).2 = (tcpWrite s.pcb data).2 := fun env ht => ht.write data
  have hkeep := inputPcb_tcpWrite s.pcb data
  unfold writeOutputs at h
  unfold SendEngine.write
  generalize tcpWrite p data = r at hwrite ⊢
  generalize tcpWrite s.pcb data = r' at h hwrite hkeep ⊢
  obtain ⟨p₁, err⟩ := r
  obtain ⟨q₁, err'⟩ := r'
  obtain rfl : err = err' := by
    obtain ⟨env, ht, -⟩ := h
    exact (hwrite env ht).2
  refine ⟨rfl, ?_⟩
  dsimp only at h hwrite hkeep ⊢
  cases err with
  | ok =>
    rw [if_pos rfl]
    exact Prepared.output (s := { s with pcb := q₁, accepted := s.accepted ++ data })
      (h.map fun env ht => (hwrite env ht).1) (hkeep.trans hidle)
  | _ => exact h.map fun env ht => (hwrite env ht).1

def recvedOutputs (len : ℕ) (s : Sender o) : List (Sender o) :=
  let wnd := (s.pcb.rx.rcvWnd + len) % o.wndMod
  let wnd := if s.pcb.wndMax < wnd ∨ wnd < s.pcb.rx.rcvWnd then s.pcb.wndMax else wnd
  let (rx, inflation) := tcpUpdateRcvAnnWnd o s.pcb.mss { s.pcb.rx with rcvWnd := wnd }
  if tcpWndUpdateThreshold o ≤ inflation then
    [(s.mapPcb fun pcb => { pcb with rx := rx }).mapPcb tcpAckNow]
  else []

lemma Prepared.recved (len : ℕ) (h : Prepared s₀ (recvedOutputs len s ++ outputs) p s.pcb)
    (hidle : s.pcb.inputPcb = false) :
    Prepared s₀ outputs (tcpRecved p len) (SendEngine.tcpRecved len s).pcb := by
  obtain ⟨env, ⟨⟨t, b, rfl⟩, hm, hr⟩, henv⟩ := h
  have hmax : ({ s.pcb with env := env, polltmr := t, backlogPend := b, closed := false } : Pcb
      o).wndMax =
      s.pcb.wndMax := rfl
  unfold recvedOutputs at henv
  unfold tcpRecved SendEngine.tcpRecved
  dsimp only at henv ⊢
  rw [hmax]
  generalize tcpUpdateRcvAnnWnd o s.pcb.mss _ = r at henv ⊢
  by_cases hthreshold : tcpWndUpdateThreshold o ≤ r.2
  · rw [if_pos hthreshold] at henv ⊢
    rw [if_pos hthreshold]
    exact Prepared.output (s := (s.mapPcb fun pcb => { pcb with rx := r.1 }).mapPcb tcpAckNow)
      ⟨env, ⟨⟨t, b, rfl⟩, hm, hr⟩, henv⟩ hidle
  · rw [if_neg hthreshold] at henv ⊢
    rw [if_neg hthreshold]
    exact ⟨env, ⟨⟨t, b, rfl⟩, hm, hr⟩, henv⟩

/-- The calls of `tcp_output` in `tcp_shutdown(pcb, 0, 1)`. -/
def shutdownOutputs (s : Sender o) : List (Sender o) :=
  match s.pcb.state with
  | .synRcvd | .established | .closeWait => finOutputs s
  | _ => []

lemma Prepared.shutdownTx (h : Prepared s₀ (shutdownOutputs s ++ outputs) p s.pcb)
    (hidle : s.pcb.inputPcb = false) :
    Prepared s₀ outputs (tcpShutdownTx p) (SendEngine.tcpShutdownTx s).pcb := by
  have hst : p.state = s.pcb.state := by
    obtain ⟨env, ht, -⟩ := h
    exact ht.state_eq
  unfold shutdownOutputs at h
  unfold tcpShutdownTx SendEngine.tcpShutdownTx
  rw [hst]
  cases hs : s.pcb.state with
  | synRcvd | established | closeWait =>
    rw [hs] at h
    exact h.closeShutdownFin hidle
  | _ =>
    rw [hs] at h
    exact h

def closeOutputs (s : Sender o) : List (Sender o) :=
  finOutputs (s.mapPcb fun pcb => { pcb with rxClosed := true })

/-- `tcp_close` frees a pcb whose receiving side it has closed, rather than send a FIN. -/
def freesAtOnce (q : Pcb o) : Bool :=
  unreadData q || decide (q.state = .closed) || decide (q.state = .synSent)

lemma tcpClose_eq (hidle : p.inputPcb = false) : tcpClose p =
    if freesAtOnce (o := o) { p with rxClosed := true } then .freed
    else .returned (tcpCloseShutdownFin { p with rxClosed := true }) .ok := by
  unfold tcpClose freesAtOnce
  dsimp only
  rw [hidle, if_neg Bool.false_ne_true]
  cases hu : unreadData (o := o) { p with rxClosed := true, inputPcb := false } with
  | true => rfl
  | false =>
    rw [if_neg Bool.false_ne_true]
    cases p.state <;> rfl

lemma engine_tcpClose_eq : SendEngine.tcpClose s =
    if freesAtOnce (s.mapPcb fun pcb => { pcb with rxClosed := true }).pcb then none
    else some (SendEngine.tcpCloseShutdownFin
      (s.mapPcb fun pcb => { pcb with rxClosed := true })) := by
  unfold SendEngine.tcpClose freesAtOnce
  generalize s.mapPcb _ = s
  dsimp only
  cases hu : unreadData s.pcb with
  | true => rfl
  | false =>
    rw [if_neg Bool.false_ne_true]
    cases hst : s.pcb.state <;> rfl

lemma Prepared.close (h : Prepared s₀ (closeOutputs s ++ outputs) p s.pcb)
    (hidle : s.pcb.inputPcb = false) :
    (tcpClose p = .freed ∧ SendEngine.tcpClose s = none) ∨
      ∃ p' s', tcpClose p = .returned p' .ok ∧ SendEngine.tcpClose s = some s' ∧
        Prepared s₀ outputs p' s'.pcb := by
  have hclosed : Prepared s₀ (closeOutputs s ++ outputs) { p with rxClosed := true }
      (s.mapPcb fun pcb => { pcb with rxClosed := true }).pcb :=
    h.map fun env ht => ht.update (fun p => { p with rxClosed := true }) (fun _ _ _ => rfl) rfl
  have hfin := Prepared.closeShutdownFin hclosed hidle
  have hsame : p.inputPcb = s.pcb.inputPcb ∧ freesAtOnce (o := o) { p with rxClosed := true } =
      freesAtOnce (s.mapPcb fun pcb => { pcb with rxClosed := true }).pcb := by
    obtain ⟨env, ⟨⟨t, b, rfl⟩, -, -⟩, -⟩ := h
    exact ⟨rfl, rfl⟩
  rw [tcpClose_eq (hsame.1.trans hidle), engine_tcpClose_eq, hsame.2]
  split_ifs
  · exact .inl ⟨rfl, rfl⟩
  · exact .inr ⟨_, _, rfl, rfl, hfin⟩

/-! ### The timers -/

def ackOutputs (s : Sender o) : List (Sender o) :=
  if s.pcb.ackDelay then [s.mapPcb tcpAckNow] else []

def pendingFinOutputs (s : Sender o) : List (Sender o) :=
  if s.pcb.closePend then finOutputs (s.mapPcb fun pcb => { pcb with closePend := false }) else []

def fasttmrOutputs (s : Sender o) : List (Sender o) :=
  ackOutputs s ++ pendingFinOutputs (SendEngine.fasttmrAck s)

lemma inputPcb_tcpOutput (hidle : s.pcb.inputPcb = false) :
    (SendEngine.tcpOutput s).pcb.inputPcb = false := by
  rw [tcpOutput_pcb hidle]
  unfold tcpSendEmptyAck afterLoop afterSending
  split_ifs <;> exact hidle

lemma Prepared.ack (h : Prepared s₀ (ackOutputs s ++ outputs) p s.pcb)
    (hidle : s.pcb.inputPcb = false) :
    Prepared s₀ outputs
      (if p.ackDelay then { tcpOutput (tcpAckNow p) with ackDelay := false, ackNow := false }
        else p)
      (SendEngine.fasttmrAck s).pcb := by
  have hdelay : p.ackDelay = s.pcb.ackDelay := by
    obtain ⟨env, ⟨⟨t, b, rfl⟩, -, -⟩, -⟩ := h
    rfl
  unfold ackOutputs at h
  unfold SendEngine.fasttmrAck
  rw [hdelay]
  split_ifs at h ⊢
  · have hsent := Prepared.output (s := s.mapPcb tcpAckNow) (h.map fun env ht => ht.ackNow) hidle
    exact hsent.map fun env ht =>
      ht.update (fun p => { p with ackDelay := false, ackNow := false }) (fun _ _ _ => rfl) rfl
  · exact h

lemma Prepared.fasttmr (h : Prepared s₀ (fasttmrOutputs s ++ outputs) p s.pcb)
    (hidle : s.pcb.inputPcb = false) :
    Prepared s₀ outputs (fasttmrSend p) (SendEngine.tcpFasttmr s).pcb := by
  unfold fasttmrOutputs at h
  rw [List.append_assoc] at h
  have hacked := h.ack hidle
  have hkeep : (SendEngine.fasttmrAck s).pcb.inputPcb = false := by
    unfold SendEngine.fasttmrAck
    split_ifs
    · exact inputPcb_tcpOutput (s := s.mapPcb tcpAckNow) hidle
    · exact hidle
  unfold fasttmrSend sendPendingFin SendEngine.tcpFasttmr
  dsimp only
  generalize SendEngine.fasttmrAck s = s₁ at hacked hkeep ⊢
  generalize (if p.ackDelay then { tcpOutput (tcpAckNow p) with ackDelay := false, ackNow := false }
    else p) = p₁ at hacked ⊢
  have hpend : p₁.closePend = s₁.pcb.closePend := by
    obtain ⟨env, ⟨⟨t, b, rfl⟩, -, -⟩, -⟩ := hacked
    rfl
  unfold pendingFinOutputs at hacked
  rw [hpend]
  split_ifs at hacked ⊢
  · exact Prepared.closeShutdownFin (s := s₁.mapPcb fun pcb => { pcb with closePend := false })
      (hacked.map fun env ht =>
        ht.update (fun p => { p with closePend := false }) (fun _ _ _ => rfl) rfl) hkeep
  · exact hacked

/-- The calls of `tcp_output` when the persist timer fires. -/
def persistOutputs (keep : ℕ) (s : Sender o) : List (Sender o) :=
  if s.tx.sndWnd = 0 then []
  else
    match SendEngine.tcpSplitUnsentSeg keep (s.tx.sndWnd % 2 ^ 16) s with
    | (s, .ok) => [s]
    | _ => []

lemma inputPcb_tcpSplitUnsentSeg (keep split : ℕ) (q : Pcb o) :
    (tcpSplitUnsentSeg keep split q).1.inputPcb = q.inputPcb := by
  unfold tcpSplitUnsentSeg
  cases q.tx.unsent with
  | nil => rfl
  | cons useg rest =>
    dsimp only
    split_ifs <;> rfl

lemma persistProbe_pcb (hwnd : s.tx.sndWnd = 0) (keep : ℕ) :
    (SendEngine.persistFire keep s).pcb = (tcpZeroWindowProbe s.pcb).1 := by
  have hprobe : (SendEngine.tcpZeroWindowProbe s).1.pcb = (tcpZeroWindowProbe s.pcb).1 := by
    unfold SendEngine.tcpZeroWindowProbe
    cases hunsent : s.tx.unsent with
    | nil =>
      unfold tcpZeroWindowProbe
      rw [show s.pcb.tx.unsent = [] from hunsent]
    | cons seg rest => rfl
  unfold SendEngine.persistFire
  rw [if_pos hwnd, ← hprobe]
  generalize SendEngine.tcpZeroWindowProbe s = r
  obtain ⟨s₁, err⟩ := r
  cases err <;> rfl

lemma Prepared.persistFire (keep : ℕ) (h : Prepared s₀ (persistOutputs keep s ++ outputs) p s.pcb)
    (hidle : s.pcb.inputPcb = false) :
    Prepared s₀ outputs (persistFire keep p) (SendEngine.persistFire keep s).pcb := by
  have hwnd : p.tx.sndWnd = s.tx.sndWnd := by
    obtain ⟨env, ht, -⟩ := h
    exact congrArg Tx.sndWnd ht.tx_eq
  unfold persistOutputs at h
  unfold Tcp.persistFire
  rw [hwnd]
  by_cases hzero : s.tx.sndWnd = 0
  · rw [if_pos hzero] at h ⊢
    rw [persistProbe_pcb hzero]
    exact h.map fun env ht => ht.zeroWindowProbe
  · rw [if_neg hzero] at h ⊢
    unfold SendEngine.persistFire
    rw [if_neg hzero]
    have hsplit := fun env (ht : Tuned env p s.pcb) => ht.splitUnsentSeg keep (s.tx.sndWnd % 2 ^ 16)
    have hkeep := inputPcb_tcpSplitUnsentSeg keep (s.tx.sndWnd % 2 ^ 16) s.pcb
    unfold SendEngine.tcpSplitUnsentSeg at h ⊢
    dsimp only at h ⊢
    generalize tcpSplitUnsentSeg keep (s.tx.sndWnd % 2 ^ 16) p = r at hsplit ⊢
    generalize tcpSplitUnsentSeg keep (s.tx.sndWnd % 2 ^ 16) s.pcb = r' at h hsplit hkeep ⊢
    obtain ⟨p₁, err⟩ := r
    obtain ⟨q₁, err'⟩ := r'
    obtain rfl : err = err' := by
      obtain ⟨env, ht, -⟩ := h
      exact (hsplit env ht).2
    dsimp only at h hsplit hkeep ⊢
    cases err with
    | ok =>
      have hsent := Prepared.output (s := { s with pcb := q₁ })
        (h.map fun env ht => (hsplit env ht).1) (hkeep.trans hidle)
      dsimp only
      split_ifs
      · exact hsent
      · exact hsent
    | _ => exact h.map fun env ht => (hsplit env ht).1

/-- The sender that calls `tcp_output` when the retransmission timer fires. -/
def rexmitOutput (s : Sender o) : Sender o :=
  let s := SendEngine.backOff (SendEngine.tcpRexmitRtoPrepare s)
  { s with rexmit := SendEngine.countRexmit s.rexmit }

lemma tcpRexmitRtoPrepare_pcb (s : Sender o) : (SendEngine.tcpRexmitRtoPrepare s).pcb =
    { s.pcb with tx := tcpRexmitRtoPrepare s.pcb.tx } := by
  unfold SendEngine.tcpRexmitRtoPrepare
  cases hlast : s.tx.unacked.getLast? with
  | none =>
    have hnil : s.pcb.tx.unacked = [] := List.getLast?_eq_none_iff.1 hlast
    unfold tcpRexmitRtoPrepare
    rw [hnil]
    dsimp only
    rw [List.nil_append, ← hnil]
  | some last => rfl

lemma Prepared.rexmitFire (hne : ¬(s.tx.unacked = [] ∧ s.tx.unsent = []))
    (h : Prepared s₀ (rexmitOutput s :: outputs) p s.pcb) (hidle : s.pcb.inputPcb = false) :
    Prepared s₀ outputs (tcpOutput { p with tx := tcpRexmitRtoPrepare p.tx })
      (SendEngine.rexmitFire s).pcb := by
  have hpcb : (rexmitOutput s).pcb = { s.pcb with tx := tcpRexmitRtoPrepare s.pcb.tx } :=
    tcpRexmitRtoPrepare_pcb s
  have hfire : SendEngine.rexmitFire s = SendEngine.tcpOutput (rexmitOutput s) := by
    unfold SendEngine.rexmitFire
    rw [if_neg hne]
    rfl
  rw [hfire]
  refine Prepared.output (s := rexmitOutput s) (h.map fun env ht => ?_) ?_
  · rw [hpcb, ht.tx_eq]
    exact ht.setTx _
  · rw [hpcb]
    exact hidle

def persistWait (s : Sender o) : Sender o :=
  if s.persist.cnt < SendEngine.tcpPersistBackoff.getD (s.persist.backoff - 1) 0 then
    { s with persist := { s.persist with cnt := s.persist.cnt + 1 } }
  else s

lemma persistWait_pcb (s : Sender o) : (persistWait s).pcb = s.pcb := by
  unfold persistWait
  split_ifs <;> rfl

def persistDue (s : Sender o) : Bool :=
  decide (SendEngine.tcpPersistBackoff.getD (s.persist.backoff - 1) 0 ≤ (persistWait s).persist.cnt)

lemma persistTick_eq (keep : ℕ) (s : Sender o) : SendEngine.persistTick keep s =
    if persistDue s then SendEngine.persistFire keep (persistWait s) else persistWait s := by
  unfold SendEngine.persistTick persistDue
  simp only [decide_eq_true_eq]
  rfl

def rexmitWait (s : Sender o) : Sender o := { s with rexmit := SendEngine.tickTimer s.rexmit }

/-- It has run out over segments that are still to be acknowledged. -/
def rexmitDue (s : Sender o) : Bool :=
  decide (s.trip.rto ≤ (rexmitWait s).rexmit.rtime) &&
    !(decide (s.tx.unacked = []) && decide (s.tx.unsent = []))

lemma rexmitTick_eq (s : Sender o) : SendEngine.rexmitTick s =
    if rexmitDue s then SendEngine.rexmitFire (rexmitWait s) else rexmitWait s := by
  unfold SendEngine.rexmitTick rexmitDue
  change (if s.trip.rto ≤ (rexmitWait s).rexmit.rtime then SendEngine.rexmitFire (rexmitWait s)
    else rexmitWait s) = _
  by_cases hempty : s.tx.unacked = [] ∧ s.tx.unsent = []
  · have hfire : SendEngine.rexmitFire (rexmitWait s) = rexmitWait s := if_pos hempty
    rw [hfire, ite_self, ite_self]
  · have hqueued : (!(decide (s.tx.unacked = []) && decide (s.tx.unsent = []))) = true := by
      rw [← Bool.decide_and, decide_eq_false hempty]
      rfl
    rw [hqueued, Bool.and_true]
    simp only [decide_eq_true_eq]

/-! ### TIME-WAIT -/

/-- The calls of `tcp_output` in `tcp_timewait_input`. -/
def timewaitOutputs (seg : Segment) (s : Sender o) : List (Sender o) :=
  if seg.rst then []
  else if seg.syn ∧ between seg.seqno s.pcb.rx.rcvNxt
      (s.pcb.rx.rcvNxt + BitVec.ofNat 32 s.pcb.rx.rcvWnd) then []
  else if 0 < seg.tcplen then
    [(if !seg.syn && seg.fin then s.mapPcb fun pcb => { pcb with tmr := pcb.ticks }
      else s).mapPcb tcpAckNow]
  else []

lemma Prepared.timewaitInput (seg : Segment)
    (h : Prepared s₀ (timewaitOutputs seg s ++ outputs) p s.pcb) (hidle : s.pcb.inputPcb = false) :
    Prepared s₀ outputs (tcpTimewaitInput p seg) (SendEngine.tcpTimewaitInput seg s).pcb := by
  have hrx : p.rx = s.pcb.rx := by
    obtain ⟨env, ht, -⟩ := h
    exact ht.rx_eq
  unfold timewaitOutputs at h
  unfold tcpTimewaitInput SendEngine.tcpTimewaitInput
  by_cases hrst : seg.rst = true
  · rw [if_pos hrst] at h ⊢
    rw [if_pos hrst]
    exact h
  rw [if_neg hrst] at h ⊢
  rw [if_neg hrst]
  by_cases hsyn : seg.syn = true ∧ between seg.seqno s.pcb.rx.rcvNxt
      (s.pcb.rx.rcvNxt + BitVec.ofNat 32 s.pcb.rx.rcvWnd) = true
  · rw [if_pos hsyn] at h ⊢
    rw [if_pos (by rwa [hrx])]
    exact h
  rw [if_neg hsyn] at h ⊢
  rw [if_neg (by rwa [hrx])]
  have htmr : ∀ env, Tuned env p s.pcb →
      Tuned env (if !seg.syn && seg.fin then { p with tmr := p.ticks } else p)
        (if !seg.syn && seg.fin then s.mapPcb fun pcb => { pcb with tmr := pcb.ticks }
          else s).pcb := by
    intro env ht
    split_ifs
    · exact ht.update (fun p => { p with tmr := p.ticks }) (fun _ _ _ => rfl) rfl
    · exact ht
  have hkeep : (if !seg.syn && seg.fin then s.mapPcb fun pcb => { pcb with tmr := pcb.ticks }
      else s).pcb.inputPcb = false := by
    split_ifs
    · exact hidle
    · exact hidle
  dsimp only
  generalize (if !seg.syn && seg.fin then { p with tmr := p.ticks } else p) = p₁ at htmr ⊢
  generalize (if !seg.syn && seg.fin then s.mapPcb fun pcb => { pcb with tmr := pcb.ticks } else s)
    = s₁
    at h htmr hkeep ⊢
  split_ifs at h ⊢
  · exact Prepared.output (s := s₁.mapPcb tcpAckNow)
      (h.map fun env ht => (htmr env ht).ackNow) hkeep
  · exact h.map htmr

/-! ### Segments -/

/-- The sender as `tcp_input` hands it to `tcp_process`. -/
def entering (s : Sender o) : Sender o := s.mapPcb fun pcb => { pcb with inputPcb := true }

/-- The sender that calls `tcp_output` at the end of `tcp_input`. -/
def settled (r : Received o) : Sender o :=
  (if r.gotFin then r.sender.mapPcb correctFin else r.sender).mapPcb fun pcb => { pcb with
    inputPcb := false }

lemma tuned_inputDone {env : Env} {r : Processed o} {r' : Received o} (h : Heard env r r')
    (hf : Foretells env (settled r')) :
    Tuned env.next
      (tcpOutput { (if r.gotFin then correctFin r.pcb else r.pcb) with inputPcb := false })
      (SendEngine.inputDone r').pcb := by
  have hfin : Tuned env (if r.gotFin then correctFin r.pcb else r.pcb)
      (if r'.gotFin then r'.sender.mapPcb correctFin else r'.sender).pcb := by
    rw [h.gotFin]
    split_ifs
    · exact h.pcb.correctFin
    · exact h.pcb
  exact tuned_tcpOutput (s := settled r')
    (hfin.update (fun p => { p with inputPcb := false }) (fun _ _ _ => rfl) rfl) hf rfl

/-! ### Events -/

/-- Whom an event calls `tcp_output` on. The timers of `tcp_slowtmr` are not part of it. -/
def outputsOf (s : Sender o) : SendEngine.Event → List (Sender o)
  | .write data => writeOutputs data s
  | .shutdown => shutdownOutputs s
  | .close => closeOutputs s
  | .recved len => recvedOutputs len s
  | .output => [s]
  | .segment seg =>
    match s.pcb.list with
    | .active => [settled (SendEngine.tcpProcess (entering s) seg)]
    | .timeWait => timewaitOutputs seg s
    | .unlisted => []
  | .fasttmr => fasttmrOutputs s
  | .slowtmr _ | .mem _ | .route _ => []

def outputsAlong : Option (Sender o) → List SendEngine.Event → List (Sender o)
  | some s, e :: es => outputsOf s e ++ outputsAlong (SendEngine.step (some s) e) es
  | _, _ => []

end Prepared

end TunForge.SendOutputs
