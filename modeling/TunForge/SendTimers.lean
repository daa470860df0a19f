import TunForge.SendLedger

/-! The timers, the round-trip estimate and the congestion window along every run: one of the two
timers runs whenever it is needed, the estimate stays within the range of the samples, and the
window never closes below one segment. -/
namespace TunForge.SendEngine
open SerialNumber PbufChain LwipTypes TcpOut TcpIn Tcp Stack PcbFrames SendQueue WorkFrames
open StackRuns (ackSegment openingSyn calmEnv)

variable {o : Platform} {g : Discipline} {s s' : Sender o}

/-! ### The two timers -/

/-- What is in flight is timed, and the persist timer runs only when nothing is. -/
structure Timed (s : Sender o) : Prop where
  rexmit : s.tx.unacked ≠ [] → 0 ≤ s.rexmit.rtime
  persist : 0 < s.persist.backoff → s.tx.unacked = []

lemma restartTimer_ok (tx : Tx) (r : Rexmit) : tx.unacked ≠ [] → 0 ≤ (restartTimer tx r).rtime := by
  intro h
  simp [restartTimer, h]

lemma startTimer_nonneg (r : Rexmit) : 0 ≤ (startTimer r).rtime := by
  unfold startTimer
  split_ifs with h
  · exact le_rfl
  · exact not_lt.1 h

lemma tickTimer_le (r : Rexmit) : r.rtime ≤ (tickTimer r).rtime := by
  unfold tickTimer
  split_ifs
  · exact (Int.lt_add_one_iff.2 le_rfl).le
  · exact le_rfl

lemma countRexmit_rtime (r : Rexmit) : (countRexmit r).rtime = r.rtime := by
  unfold countRexmit
  split_ifs <;> rfl

lemma rexmit_nil {tx : Tx} (h : tx.unacked = []) : (TcpOut.tcpRexmit tx).unacked = [] := by
  rw [TcpOut.tcpRexmit, h]
  exact h

lemma timeout_persist (s : Sender o) : (backOff (tcpRexmitRtoPrepare s)).persist = s.persist := by
  unfold tcpRexmitRtoPrepare
  split <;> rfl

lemma timed_move (hled : Ledger s) (h : Timed s) (hm : Move g s s') : Timed s' := by
  have hack : ∀ ackno : Seq, 0 < s.persist.backoff → (ackNewData o s.tx ackno).1.unacked = [] :=
    fun ackno hp =>
    freed_nil (h.persist hp)
  cases hm with
  | quiet hq =>
    obtain ⟨ov, err, htx⟩ := hq.tx
    rw [hq.rest]
    refine ⟨fun hu => h.rexmit ?_, fun hp => ?_⟩
    · rwa [Sender.tx, htx] at hu
    · rw [Sender.tx, htx]
      exact h.persist hp
  | options seg =>
    obtain ⟨sc, hsc⟩ := tcpParseopt_tx s.pcb seg
    refine ⟨fun hu => h.rexmit ?_, fun hp => ?_⟩
    · rwa [Sender.tx, Sender.mapPcb, hsc] at hu
    · rw [Sender.tx, Sender.mapPcb, hsc]
      exact h.persist hp
  | establish ackno pcb _ _ _ _ _ _ htx =>
    obtain ⟨r, -, hr⟩ := measureRtt_eq ackno (acknowledged ackno s).1
    rw [hr]
    refine ⟨fun hu => restartTimer_ok _ _ ?_, fun hp => ?_⟩
    · rwa [Sender.tx, htx] at hu
    · rw [Sender.tx, htx]
      exact hack ackno hp
  | timeWait hst =>
    have hpurge : (enterTimeWait s.pcb).tx.unacked = [] := by rw [(enterTimeWait_eq hst).1]
    exact ⟨fun hu => absurd hpurge hu, fun _ => hpurge⟩
  | window seg =>
    obtain ⟨_, _, _, _, heq, -⟩ := updateSndWnd_eq s.tx seg
    have hun : (updateSndWnd s.tx seg).unacked = s.tx.unacked := by rw [heq]
    exact ⟨fun hu => h.rexmit (hun ▸ hu), fun hp => hun.trans (h.persist hp)⟩
  | ack ackno => exact ⟨restartTimer_ok _ _, hack ackno⟩
  | duplicate h0 =>
    obtain ⟨tx, c, r, x, htx, -, hx, heq⟩ := duplicateAck_eq s
    rw [heq]
    refine ⟨fun _ => hx h0, fun hp => ?_⟩
    rcases htx with rfl | rfl
    · exact h.persist hp
    · exact rexmit_nil (h.persist hp)
  | measure | route => exact ⟨h.rexmit, h.persist⟩
  | resendSyn =>
    unfold tcpRexmit
    split_ifs with hu
    · exact h
    · exact ⟨fun _ => (countRexmit_rtime _).symm ▸ h.rexmit hu, fun hp => absurd (h.persist hp) hu⟩
  | timeout hp => exact ⟨fun _ => le_rfl, fun hpos => absurd hp (timeout_persist s ▸ hpos).ne'⟩
  | countRexmit => exact ⟨fun hu => (countRexmit_rtime _).symm ▸ h.rexmit hu, h.persist⟩
  | send seg rest _ _ hp => exact ⟨fun _ => startTimer_nonneg _, fun hpos => absurd hp hpos.ne'⟩
  | startPersist hun => exact ⟨h.rexmit, fun _ => hun⟩
  | persist p hp => exact ⟨h.rexmit, fun hpos => h.persist (hp.resolve_left (Nat.ne_of_gt hpos))⟩
  | tickTimer => exact ⟨fun hu => (h.rexmit hu).trans (tickTimer_le _), h.persist⟩
  | probe hp =>
    obtain ⟨nxt, rx, heq⟩ := probe_pcb s
    have hun : (tcpZeroWindowProbe s).1.tx.unacked = s.tx.unacked := by
      rw [Sender.tx, heq]
    exact ⟨fun hu => absurd (hun.trans (h.persist hp)) hu, fun _ => hun.trans (h.persist hp)⟩
  | split keep =>
    rcases tcpSplitUnsentSeg_tx keep (s.tx.sndWnd % 2 ^ 16) s with
      heq | ⟨_, _, _, _, _, _, heq⟩ <;> rw [heq]
    · exact h
    · exact ⟨h.rexmit, h.persist⟩
  | write data pcb hw =>
    obtain ⟨pos, cells, segs, ov, -, rfl⟩ := tcpWrite_ok hled.mss hw
    exact ⟨h.rexmit, h.persist⟩
  | fin pcb next hf =>
    have hun : pcb.tx.unacked = s.tx.unacked := by
      rcases tcpSendFin_ok hf with ⟨_, _, _, _, _, rfl⟩ | ⟨-, rfl⟩ <;> rfl
    exact ⟨fun hu => h.rexmit (hun ▸ hu), fun hp => hun.trans (h.persist hp)⟩

lemma Fresh.timed {iss : Seq} (h : Fresh iss s) : Timed s := by
  obtain ⟨wl1, sc, wnd, opt, htx⟩ := h.tx
  rw [h.rest]
  refine ⟨fun hu => absurd ?_ hu, nofun⟩
  change s.tx.unacked = []
  rw [htx]

/-! ### The round-trip estimate -/

/-- The estimate when no sample exceeds `n` ticks. -/
structure Estimate (n : ℕ) (r : RoundTrip) : Prop where
  sa_nonneg : 0 ≤ r.sa
  sa_le : r.sa ≤ 8 * n
  sv_ge : 3 ≤ r.sv
  sv_le : r.sv ≤ 4 * n
  rto_ge : 3 ≤ r.rto
  rto_le : r.rto ≤ 0x7FFF

lemma s16_of_range {x : ℤ} (hlo : -0x8000 ≤ x) (hhi : x ≤ 0x7FFF) : s16 x = x := by
  unfold s16
  rw [Int.bmod_eq_of_le] <;> norm_num <;> omega

section

variable {n : ℕ} {r : RoundTrip}

lemma Estimate.timeout (h : Estimate n r) (hn : n ≤ 4095) :
    3 ≤ s16 (r.sa / 8 + r.sv) ∧ s16 (r.sa / 8 + r.sv) ≤ 0x7FFF := by
  obtain ⟨h1, h2, h3, h4, -⟩ := h
  rw [s16_of_range (by omega) (by omega)]
  omega

lemma Estimate.restart (h : Estimate n r) (hn : n ≤ 4095) :
    Estimate n { r with rto := s16 (r.sa / 8 + r.sv) } :=
  { h with
    rto_ge := (h.timeout hn).1
    rto_le := (h.timeout hn).2 }

lemma Estimate.measure (h : Estimate n r) (hn : n ≤ 4095) {ticks : ℕ}
    (h0 : 0 ≤ s16 (ticks - r.rttest)) (hle : s16 (ticks - r.rttest) ≤ n) :
    Estimate n (measure ticks r) := by
  -- a sample of at most `n` ticks leaves the estimate in its range, and nothing overflows
  obtain ⟨h1, h2, h3, h4, -⟩ := h
  have hsample : Estimate n { (SendEngine.measure ticks r) with rto := 3 } := by
    unfold SendEngine.measure
    dsimp only
    generalize s16 (ticks - r.rttest) = m at h0 hle
    have hdiff : s16 (m - r.sa / 8) = m - r.sa / 8 := s16_of_range (by omega) (by omega)
    have hmean : s16 (r.sa + (m - r.sa / 8)) = r.sa + (m - r.sa / 8) :=
      s16_of_range (by omega) (by omega)
    have habs : s16 (-(m - r.sa / 8)) = -(m - r.sa / 8) := s16_of_range (by omega) (by omega)
    rw [hdiff, hmean, habs]
    generalize hd : (if m - r.sa / 8 < 0 then -(m - r.sa / 8) else m - r.sa / 8) = d
    have hd' : 0 ≤ d ∧ d ≤ n := by
      rw [← hd]
      split_ifs <;> omega
    have hdev : s16 (d - r.sv / 4) = d - r.sv / 4 := s16_of_range (by omega) (by omega)
    have hsv : s16 (r.sv + (d - r.sv / 4)) = r.sv + (d - r.sv / 4) :=
      s16_of_range (by omega) (by omega)
    rw [hdev, hsv]
    exact ⟨by dsimp only; omega, by dsimp only; omega, by dsimp only; omega, by dsimp only; omega,
      le_rfl, by norm_num⟩
  exact hsample.restart hn

lemma Estimate.backOff (h : Estimate n r) (nrtx : ℕ) :
    Estimate n { r with rto := s16 (backedOffRto nrtx r) } := by
  have hlong : 3 ≤ backedOffRto nrtx r ∧ backedOffRto nrtx r ≤ 0x7FFF := by
    unfold backedOffRto
    generalize tcpBackoff.getD _ 0 = k
    have hpow : (1 : ℤ) ≤ 2 ^ k := one_le_pow₀ (by norm_num)
    have h1 := h.sa_nonneg
    have h3 := h.sv_ge
    have hmul : 3 * 1 ≤ (r.sa / 8 + r.sv) * 2 ^ k :=
      mul_le_mul (by omega) hpow (by norm_num) (by omega)
    exact ⟨le_min (by omega) (by norm_num), min_le_right _ _⟩
  rw [s16_of_range (by omega) hlong.2]
  exact { h with rto_ge := hlong.1, rto_le := hlong.2 }

end

/-- What a move does to the estimate. -/
inductive Retimed (g : Discipline) (s : Sender o) : RoundTrip → Prop
  | same (rttest : ℕ) (rtseq : Seq) : Retimed g s { s.trip with rttest := rttest, rtseq := rtseq }
  | restart : Retimed g s { s.trip with rto := s16 (s.trip.sa / 8 + s.trip.sv) }
  | sample (h0 : s.trip.rttest ≠ 0) (h : ∀ n ∈ g.rtt, TimedWithin n s) :
      Retimed g s (measure s.pcb.ticks s.trip)
  | backOff (rttest nrtx : ℕ) :
      Retimed g s { s.trip with rttest := rttest, rto := s16 (backedOffRto nrtx s.trip) }

lemma Retimed.refl (g : Discipline) (s : Sender o) : Retimed g s s.trip :=
  .same s.trip.rttest s.trip.rtseq

lemma retimed_move (hm : Move g s s') : Retimed g s s'.trip := by
  cases hm with
  | quiet hq =>
    rw [hq.rest]
    exact .refl g s
  | options | timeWait | window | countRexmit | startPersist | persist | tickTimer | write | fin
  | route => exact .refl g s
  | establish ackno pcb _ _ _ _ _ hrtt =>
    obtain ⟨r, hr, heq⟩ := measureRtt_eq ackno (acknowledged ackno s).1
    rw [heq]
    rcases hr with rfl | ⟨rfl, h0⟩
    · exact .restart
    · exact .sample h0 hrtt
  | ack => exact .restart
  | duplicate =>
    obtain ⟨tx, c, r, x, -, hr, -, heq⟩ := duplicateAck_eq s
    rw [heq]
    rcases hr with rfl | rfl
    · exact .refl g s
    · exact .same 0 s.trip.rtseq
  | measure hrtt h0 => exact .sample h0 hrtt
  | resendSyn =>
    unfold tcpRexmit
    split_ifs
    · exact .refl g s
    · exact .same 0 s.trip.rtseq
  | timeout =>
    unfold tcpRexmitRtoPrepare
    split
    · exact .backOff s.trip.rttest s.rexmit.nrtx
    · exact .backOff 0 s.rexmit.nrtx
  | send seg rest =>
    change Retimed g s (startTrip s.pcb.ticks seg.seqno s.trip)
    unfold startTrip
    split_ifs
    · exact .same _ _
    · exact .refl g s
  | probe =>
    have hsame : (tcpZeroWindowProbe s).1.trip = s.trip := by
      unfold tcpZeroWindowProbe
      split <;> rfl
    rw [hsame]
    exact .refl g s
  | split keep =>
    rcases tcpSplitUnsentSeg_tx keep (s.tx.sndWnd % 2 ^ 16) s with
      heq | ⟨_, _, _, _, _, _, heq⟩ <;> rw [heq] <;> exact .refl g s

lemma s16_le (x : ℤ) : s16 x ≤ 0x7FFF := by
  have hlt : x.bmod 65536 < (65536 + 1) / 2 := Int.bmod_lt (by norm_num)
  change x.bmod 65536 ≤ 0x7FFF
  omega

lemma rto_move (h : s.trip.rto ≤ 0x7FFF) (hm : Move g s s') : s'.trip.rto ≤ 0x7FFF := by
  have hr := retimed_move hm
  generalize s'.trip = r at hr
  cases hr with
  | same => exact h
  | restart => exact s16_le _
  | sample => exact s16_le _
  | backOff => exact s16_le _

lemma estimate_move {n : ℕ} (hg : g.rtt = some n) (hn : n ≤ 4095) (h : Estimate n s.trip)
    (hm : Move g s s') : Estimate n s'.trip := by
  have hr := retimed_move hm
  generalize s'.trip = r at hr
  cases hr with
  | same => exact { h with }
  | restart => exact h.restart hn
  | sample h0 hrtt => exact h.measure hn (hrtt n hg h0).1 (hrtt n hg h0).2
  | backOff rttest nrtx => exact { h.backOff nrtx with }

/-- While no round trip that is timed takes longer than `n` ticks, the sixteen-bit estimate never
overflows: mean and deviation stay within the range of the samples, and the timeout is never
shorter than three ticks. -/
theorem rto_estimate {syn : Segment} {iss : Seq} {n : ℕ} (hn : 2 ≤ n ∧ n ≤ 4095)
    (h : Opened syn iss s) {es : List Event}
    (hes : Runs.Along step (Respects { rtt := some n }) (some s) es) :
    Alive (fun t => Estimate n t.trip) (Runs.run step (some s) es) := by
  refine opened_keeps (fun _ _ hI hm => estimate_move rfl hn.2 hI hm) (fun s₀ hf _ => ?_) h hes
  rw [hf.rest]
  exact ⟨le_rfl, by simp [newSender], by norm_num [newSender, tcpRtoTime], by
    simp only [newSender, tcpRtoTime]; omega, by norm_num [newSender, tcpRtoTime], by
      norm_num [newSender, tcpRtoTime]⟩

/-- Three bytes that are acknowledged two ticks after they were sent. -/
def timedRun : List Event :=
  [.slowtmr 0, .segment (ackSegment 101 6511), .write [1, 2, 3], .slowtmr 0, .slowtmr 0,
    .segment (ackSegment 101 6514)]

theorem rto_estimate_timedRun :
    let t := Runs.run step (some (greeted .ios)) timedRun
    Alive (fun t => Estimate 10 t.trip) t ∧ t.map (fun t => (t.trip.sa, t.trip.sv, t.trip.rto)) =
      some (2, 7, 7) :=
  ⟨rto_estimate (by decide) (greeted_opened .ios) (by decide +kernel), by decide +kernel⟩

/-! ### The congestion window -/

/-- The congestion window holds at least one segment once the handshake is complete, and a loss
never takes the threshold below two. The three segments that fast retransmit adds to the
threshold do not take it out of range. -/
structure Roomy (o : Platform) (mss : ℕ) (complete : Prop) (c : Congestion) : Prop where
  cwnd_lt : c.cwnd < o.wndMod
  ssthresh_ge : 2 * mss ≤ c.ssthresh
  ssthresh_lt : c.ssthresh + 3 * mss < o.wndMod
  cwnd_ge : complete → mss ≤ c.cwnd

lemma le_tcpWndInc {wnd : ℕ} (h : wnd < o.wndMod) (inc : ℕ) :
    wnd ≤ tcpWndInc o wnd inc ∧ tcpWndInc o wnd inc < o.wndMod := by
  have hpos : 0 < o.wndMod := by omega
  unfold tcpWndInc
  split_ifs with hle
  · exact ⟨hle, Nat.mod_lt _ hpos⟩
  · omega

lemma wndMod_ge (o : Platform) : 2 ^ 16 ≤ o.wndMod := by cases o <;> decide

lemma lossThreshold_ok (sndWnd : ℕ) {mss : ℕ} {c : Congestion} (hmss : mss ≤ tcpMss)
    (hc : c.cwnd < o.wndMod) :
    2 * mss ≤ lossThreshold o mss sndWnd c ∧ lossThreshold o mss sndWnd c + 3 * mss < o.wndMod := by
  have hmod := wndMod_ge o
  have hmin : min c.cwnd sndWnd ≤ c.cwnd := min_le_left _ _
  have hconst : tcpMss = 1460 := rfl
  unfold lossThreshold
  dsimp only
  split_ifs with hhalf
  · rw [Nat.mod_eq_of_lt (by omega)]
    omega
  · rw [Nat.mod_eq_of_lt (by omega)]
    omega

section

variable {mss : ℕ} {complete : Prop} {c : Congestion}

lemma Roomy.wider (h : Roomy o mss complete c) (inc bytes dups : ℕ) :
    Roomy o mss complete { c with
      cwnd := tcpWndInc o c.cwnd inc, bytesAcked := bytes, dupacks := dups } :=
  ⟨(le_tcpWndInc h.cwnd_lt inc).2, h.ssthresh_ge, h.ssthresh_lt,
    fun hc => (h.cwnd_ge hc).trans (le_tcpWndInc h.cwnd_lt inc).1⟩

lemma Roomy.grow (h : Roomy o mss complete c) (acked : ℕ) (rto : Bool) :
    Roomy o mss complete (growCwnd o mss acked rto c) := by
  unfold growCwnd
  by_cases hslow : c.cwnd < c.ssthresh
  · rw [if_pos hslow]
    exact h.wider _ c.bytesAcked c.dupacks
  · rw [if_neg hslow]
    by_cases hmore : c.cwnd ≤ tcpWndInc o c.bytesAcked acked
    · rw [if_pos hmore]
      exact h.wider _ _ c.dupacks
    · rw [if_neg hmore]
      exact { h with }

lemma Roomy.countDuplicate (h : Roomy o mss complete c) :
    Roomy o mss complete (countDuplicate o mss c) := by
  have hcount : Roomy o mss complete (if c.dupacks < 0xFF then { c with dupacks := c.dupacks + 1 }
    else c) := by
    split_ifs
    · exact { h with }
    · exact h
  unfold SendEngine.countDuplicate
  dsimp only
  generalize (if c.dupacks < 0xFF then { c with dupacks := c.dupacks + 1 } else c) = c' at hcount
  split_ifs
  · exact hcount.wider _ c'.bytesAcked c'.dupacks
  · exact hcount

lemma Roomy.endFastRexmit (h : Roomy o mss complete c) :
    Roomy o mss complete (endFastRexmit c) := by
  unfold SendEngine.endFastRexmit
  dsimp only
  split_ifs
  · have hge := h.ssthresh_ge
    have hlt := h.ssthresh_lt
    exact ⟨by dsimp only; omega, hge, hlt, fun _ => by dsimp only; omega⟩
  · exact { h with }

lemma Roomy.loss (h : Roomy o mss complete c) (hmss : mss ≤ tcpMss) (sndWnd bytes : ℕ) (infr : Bool)
    {cwnd : ℕ} (hc : cwnd = mss ∨ cwnd = (lossThreshold o mss sndWnd c + 3 * mss) % o.wndMod) :
    Roomy o mss complete { c with
      cwnd := cwnd, ssthresh := lossThreshold o mss sndWnd c, bytesAcked := bytes,
      infr := infr } := by
  obtain ⟨hge, hlt⟩ := lossThreshold_ok sndWnd hmss h.cwnd_lt
  have hcwnd : mss ≤ cwnd ∧ cwnd < o.wndMod := by
    rcases hc with rfl | rfl
    · omega
    · rw [Nat.mod_eq_of_lt hlt]
      omega
  exact ⟨hcwnd.2, hge, hlt, fun _ => hcwnd.1⟩

end

def Sound (s : Sender o) : Prop := Roomy o s.pcb.mss (s.pcb.state ≠ .synRcvd) s.cong

lemma Sound.duplicate (hmss : MssOk s.pcb) (h : Sound s) : Sound (duplicateAck s) := by
  have hcount : Roomy o s.pcb.mss (s.pcb.state ≠ .synRcvd) (countDuplicate o s.pcb.mss s.cong) :=
    h.countDuplicate
  unfold duplicateAck tcpRexmitFast tcpRexmit
  dsimp only
  split_ifs
  · exact hcount.loss hmss.2 _ _ true (.inr rfl)
  · exact hcount.loss hmss.2 _ _ true (.inr rfl)
  · exact hcount
  · exact hcount

lemma Sound.of_eq (h : Sound s) (hc : s'.cong = s.cong) (hmss : s'.pcb.mss = s.pcb.mss)
    (hst : s'.pcb.state ≠ .synRcvd → s.pcb.state ≠ .synRcvd) : Sound s' := by
  unfold Sound
  rw [hc, hmss]
  exact { h with cwnd_ge := fun hs => h.cwnd_ge (hst hs) }

lemma timeout_cong (s : Sender o) : ∃ tx trip rexmit, tcpRexmitRtoPrepare s =
    { s with pcb := { s.pcb with tx := tx }, trip := trip, rexmit := rexmit } ∧
    tx.sndWnd = s.tx.sndWnd := by
  unfold tcpRexmitRtoPrepare
  split
  · exact ⟨_, _, _, rfl, rfl⟩
  · exact ⟨_, _, _, rfl, rfl⟩

lemma sound_move (hg : g.steadyMss = true) (hled : Ledger s) (h : Sound s) (hm : Move g s s') :
    Sound s' := by
  cases hm with
  | quiet hq => exact h.of_eq (by rw [hq.rest]) hq.mss (advance_synRcvd hq.state).not.1
  | options seg hsteady =>
    exact h.of_eq rfl (hsteady hg) (state_of_core (core_tcpParseopt s.pcb seg) ▸ id)
  | establish ackno pcb _ _ _ _ _ _ _ hmss =>
    have hok : MssOk pcb := mssOk_of_eq hmss hled.mss
    have hconst : tcpMss = 1460 := rfl
    have hmod := wndMod_ge o
    obtain ⟨hpos, hle⟩ := hok
    have hcwnd : pcb.mss ≤ tcpCalcInitialCwnd pcb.mss ∧ tcpCalcInitialCwnd pcb.mss < o.wndMod := by
      unfold tcpCalcInitialCwnd
      omega
    have hack : Roomy o s.pcb.mss (s.pcb.state ≠ .synRcvd) (acknowledged ackno s).1.cong :=
      h.endFastRexmit.grow _ _
    change Roomy o pcb.mss _ { (acknowledged ackno s).1.cong with
      cwnd := tcpCalcInitialCwnd pcb.mss % o.wndMod }
    rw [Nat.mod_eq_of_lt hcwnd.2]
    exact ⟨hcwnd.2, hmss ▸ hack.ssthresh_ge, hmss ▸ hack.ssthresh_lt, fun _ => hcwnd.1⟩
  | timeWait hst =>
    refine h.of_eq rfl (enterTimeWait_eq hst).2 fun _ => ?_
    rcases hst with hst | hst | hst <;> rw [hst] <;> decide
  | window | measure | countRexmit | startPersist | persist | tickTimer | send | route =>
    exact { h with }
  | ack ackno => exact Roomy.grow h.endFastRexmit _ _
  | duplicate => exact h.duplicate hled.mss
  | resendSyn =>
    unfold tcpRexmit
    split_ifs
    · exact h
    · exact { h with }
  | timeout =>
    obtain ⟨tx, trip, rexmit, heq, -⟩ := timeout_cong s
    rw [heq]
    exact Roomy.loss h hled.mss.2 tx.sndWnd 0 s.cong.infr (.inl rfl)
  | probe =>
    obtain ⟨nxt, rx, heq⟩ := probe_pcb s
    refine h.of_eq ?_ (by rw [heq]) (by rw [heq]; exact id)
    unfold tcpZeroWindowProbe
    split <;> rfl
  | split keep =>
    rcases tcpSplitUnsentSeg_tx keep (s.tx.sndWnd % 2 ^ 16) s with
      heq | ⟨_, _, _, _, _, _, heq⟩ <;> rw [heq]
    · exact h
    · exact { h with }
  | write data pcb hw =>
    obtain ⟨pos, cells, segs, ov, -, rfl⟩ := tcpWrite_ok hled.mss hw
    exact { h with }
  | fin pcb next hf _ hopen =>
    refine h.of_eq rfl ?_ fun _ => hopen
    rcases tcpSendFin_ok hf with ⟨_, _, _, _, _, rfl⟩ | ⟨-, rfl⟩ <;> rfl

lemma Fresh.sound {iss : Seq} (h : Fresh iss s) : Sound s := by
  have hmss := h.mss.2
  have hmod := wndMod_ge o
  have hbuf : 2 * tcpMss ≤ o.tcpSndBuf ∧ o.tcpSndBuf + 3 * tcpMss < o.wndMod := by
    cases o <;> decide
  have hcong : s.cong = ⟨1, o.tcpSndBuf, 0, 0, false⟩ := by
    rw [h.rest]
    rfl
  unfold Sound
  rw [hcong]
  exact ⟨by dsimp only; omega, by dsimp only; omega, by dsimp only; omega,
    fun hs => absurd h.state hs⟩

/-- While the peer does not change its segment size, the threshold is at least two segments and
three more do not take it out of range, and from the handshake on the congestion window holds
one. -/
theorem cwnd_bounds {syn : Segment} {iss : Seq} (h : Opened syn iss s) {es : List Event}
    (hes : Runs.Along step (Respects { steadyMss := true }) (some s) es) :
    Alive (fun t => Roomy o t.pcb.mss (t.pcb.state ≠ .synRcvd) t.cong)
      (Runs.run step (some s) es) := by
  have hrun := opened_keeps (g := { steadyMss := true }) (I := fun t => Ledger t ∧ Sound t)
    (fun _ _ hI hm => ⟨ledger_move hI.1 hm, sound_move rfl hI.1 hI.2 hm⟩)
      (fun s₀ hf _ => ⟨hf.ledger, hf.sound⟩) h hes
  exact hrun.imp fun _ ht => ht.2

theorem cwnd_bounds_lossRun :
    let t := Runs.run step (some (greeted .ios)) lossRun
    Alive (fun t => Roomy .ios t.pcb.mss (t.pcb.state ≠ .synRcvd) t.cong) t ∧
      t.map (fun t => (t.pcb.mss, t.cong.cwnd, t.cong.ssthresh)) = some (1460, 1463, 2920) :=
  ⟨cwnd_bounds (greeted_opened .ios) (by decide +kernel), by decide +kernel⟩

end TunForge.SendEngine
