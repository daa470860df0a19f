import TunForge.SendProgress

/-! A peer that falls silent is given up: without a segment from it, and with memory for our own,
the slow timer comes to the end of its retransmissions or of its probes. -/
namespace TunForge.SendEngine
open SerialNumber PbufChain LwipTypes TcpOut TcpIn Tcp Stack PcbFrames SendQueue WorkFrames
  TiledQueue
open StackRuns (ackSegment openingSyn calmEnv)

variable {o : Platform} {s s' t : Sender o} {iss : Seq}

/-! ### What `tcp_output` does to the timers -/

lemma startTimer_running {r : Rexmit} (h : 0 ≤ r.rtime) : startTimer r = r := by
  unfold startTimer
  rw [if_neg (not_lt.2 h)]

/-- `tcp_output` does not touch a timer that runs, nor the count of retransmissions. -/
structure SameClock (s s' : Sender o) : Prop where
  nrtx : s'.rexmit.nrtx = s.rexmit.nrtx
  rexmit : 0 ≤ s.rexmit.rtime → s'.rexmit = s.rexmit
  mem : s'.pcb.env.mem = s.pcb.env.mem

lemma SameClock.refl (s : Sender o) : SameClock s s := ⟨rfl, fun _ => rfl, rfl⟩

lemma SameClock.trans (h : SameClock s t) (h' : SameClock t s') : SameClock s s' where
  nrtx := h'.nrtx.trans h.nrtx
  rexmit h0 := (h'.rexmit (h.rexmit h0 ▸ h0)).trans (h.rexmit h0)
  mem := h'.mem.trans h.mem

lemma sameClock_send (seg : TxSeg) (rest : List TxSeg) (s : Sender o) :
    SameClock s (tcpOutputSegment seg rest s) := by
  refine ⟨?_, startTimer_running, rfl⟩
  change (startTimer s.rexmit).nrtx = _
  unfold startTimer
  split_ifs <;> rfl

lemma sameClock_outputLoop {wnd : ℕ} (fuel : ℕ) (s : Sender o) :
    SameClock s (outputLoop wnd fuel s) := by
  induction fuel generalizing s with
  | zero => exact .refl s
  | succ fuel ih =>
    unfold outputLoop
    split
    · exact .refl s
    · split_ifs
      · exact .refl s
      · exact (sameClock_send _ _ s).trans (ih _)
      · exact .refl s

lemma calm_outputAck (s : Sender o) : Calm s (outputAck s) := by
  have hmem : (tcpSendEmptyAck s.pcb).env.mem = s.pcb.env.mem := by
    unfold tcpSendEmptyAck
    split_ifs <;> rfl
  unfold outputAck
  split_ifs
  · exact calm_pcb (tx_tcpSendEmptyAck _) (inputPcb_of_core (same_tcpSendEmptyAck _).1) hmem
  · exact ⟨still_outputDone s, rfl, rfl, rfl⟩

lemma Calm.sameClock (h : Calm s t) : SameClock s t :=
  ⟨by rw [h.sameRexmit], fun _ => h.sameRexmit, h.mem⟩

lemma sameClock_startPersist (wnd : ℕ) (s : Sender o) : SameClock s (startPersist wnd s) := by
  unfold startPersist
  split_ifs
  · exact ⟨rfl, fun _ => rfl, rfl⟩
  · exact .refl s

lemma sameClock_tcpOutput (s : Sender o) : SameClock s (tcpOutput s) := by
  have hout := outputs_tcpOutput s
  generalize tcpOutput s = t at hout ⊢
  cases hout with
  | busy | lost => exact .refl s
  | ack => exact (calm_outputAck s).sameClock
  | held => exact (sameClock_startPersist _ s).trans (calm_outputAck _).sameClock
  | sent =>
    have hloop : SameClock (stopPersist s)
        (outputLoop (sendWindow s) s.tx.unsent.length (stopPersist s)) := sameClock_outputLoop _ _
    exact ⟨hloop.nrtx, hloop.rexmit, hloop.mem⟩

lemma calm_tcpOutput {seg : TxSeg} {rest : List TxSeg} (hu : s.tx.unsent = seg :: rest)
    (hfit : sendWindow s < reach s.tx seg) (hp : 0 < s.persist.backoff) : Calm s (tcpOutput s) := by
  have hrun : startPersist (sendWindow s) s = s := by
    unfold startPersist
    rw [if_neg fun h => hp.ne' h.2.2]
  have hout := outputs_tcpOutput s
  generalize tcpOutput s = t at hout ⊢
  cases hout with
  | busy | lost => exact .refl s
  | ack => exact calm_outputAck s
  | held =>
    rw [hrun]
    exact calm_outputAck s
  | sent x xs _ hx _ hle =>
    obtain rfl : seg = x := (List.cons.inj (hu.symm.trans hx)).1
    exact absurd hle (not_le.2 hfit)

lemma flight_tcpOutput (h : s.tx.unacked ≠ []) : (tcpOutput s).tx.unacked ≠ [] := by
  have hout := outputs_tcpOutput s
  generalize tcpOutput s = t at hout ⊢
  cases hout with
  | busy | lost => exact h
  | ack => exact (calm_outputAck s).unacked ▸ h
  | held =>
    rw [(calm_outputAck _).unacked, Sender.tx, startPersist_pcb]
    exact h
  | sent => exact outputLoop_flight _ (stopPersist s) h

lemma sends_tcpOutput {seg : TxSeg} {rest : List TxSeg} (h : Healthy iss s)
    (hidle : s.pcb.inputPcb = false) (hu : s.tx.unsent = seg :: rest)
    (hfit : reach s.tx seg ≤ sendWindow s) (hnil : s.tx.unacked = []) :
    (tcpOutput s).tx.unacked ≠ [] := by
  have hpos := (h.ledger.books (h.active hu)).nonempty seg (by simp [outbound, hu])
  have hfirst := outputSegments_first hu hfit hnil hpos
  have hroute : s.pcb.env.route = true := h.routed rfl
  unfold tcpOutput
  simp only [hidle, hu, hroute, Bool.not_true, Bool.false_eq_true, if_false, not_lt.2 hfit]
  exact hfirst

lemma queued_tcpOutput (h : Healthy iss s) (hidle : s.pcb.inputPcb = false)
    (hq : outbound s.tx ≠ []) :
    outbound (tcpOutput s).tx ≠ [] := by
  by_cases hnil : s.tx.unacked = []
  · cases hu : s.tx.unsent with
    | nil => exact absurd (by rw [outbound, hnil, hu]; rfl) hq
    | cons seg rest =>
      by_cases hfit : reach s.tx seg ≤ sendWindow s
      · have hflight := sends_tcpOutput h hidle hu hfit hnil
        exact fun h0 => hflight (List.append_eq_nil_iff.1 h0).1
      · have hroute : s.pcb.env.route = true := h.routed rfl
        have hun : (tcpOutput s).tx.unsent = seg :: rest := by
          unfold tcpOutput
          simp only [hidle, hu, hroute, Bool.not_true, Bool.false_eq_true, if_false,
            not_le.1 hfit, if_true]
          rw [(calm_outputAck _).unsent, Sender.tx, startPersist_pcb]
          exact hu
        rw [outbound, hun]
        simp
  · have hflight := flight_tcpOutput hnil
    exact fun h0 => hflight (List.append_eq_nil_iff.1 h0).1

/-! ### The rank -/

/-- Something is queued, and there is memory to send it. -/
structure Waiting (s : Sender o) : Prop where
  queued : outbound s.tx ≠ []
  mem : s.pcb.env.mem = true

/-- How long the timer that runs can go on before it counts. -/
def slack (s : Sender o) : ℕ :=
  if s.tx.unacked ≠ [] then (0x8000 - s.rexmit.rtime).toNat
  else if s.tx.sndWnd = 0 then (tcpMaxrtx o - s.persist.probe) * 122 + (121 - s.persist.cnt)
  else 0x8001 + (121 - s.persist.cnt)

/-- How many ticks the sender has left at most. -/
def rank (s : Sender o) : ℕ := (tcpMaxrtx o - s.rexmit.nrtx) * 0x8100 + slack s

lemma tcpMaxrtx_le (o : Platform) : tcpMaxrtx o ≤ 12 := by cases o <;> decide

lemma slack_lt (h : Timed s) : slack s < 0x8100 := by
  have hmax := tcpMaxrtx_le o
  unfold slack
  split_ifs with hu h0
  · have := h.rexmit hu
    omega
  · have hle : (tcpMaxrtx o - s.persist.probe) * 122 ≤ 12 * 122 := Nat.mul_le_mul_right _ (by omega)
    omega
  · omega

lemma Calm.rank_eq (h : Calm s t) : rank t = rank s := by
  unfold rank slack
  rw [h.unacked, h.sndWnd, h.sameRexmit, h.samePersist]

lemma Waiting.of_calm (h : Waiting s) (hc : Calm s t) : Waiting t :=
  ⟨by rw [outbound, hc.unacked, hc.unsent]; exact h.queued, hc.mem.trans h.mem⟩

lemma Waiting.active (h : Waiting s) (hs : Healthy iss s) : s.pcb.list = .active := by
  rcases hs.place.queue with ⟨hl, -⟩ | ⟨-, -, hacked, hsent⟩
  · exact hl
  · exact absurd (by rw [outbound, hacked, hsent]; rfl) h.queued

lemma reach_grows {a b : Sender o} (ha : Healthy iss a) (hb : Healthy iss b) (hg : Grows a b)
    {x y : TxSeg} {xs ys : List TxSeg} (hx : a.tx.unsent = x :: xs) (hy : b.tx.unsent = y :: ys)
    (hnil : a.tx.unacked = []) : reach a.tx x ≤ reach b.tx y := by
  obtain ⟨y', hy', hseq, hlen⟩ := hg.head x (by simp [hx])
  obtain rfl : y = y' := by
    rw [hy] at hy'
    exact Option.some.inj hy'
  obtain ⟨h1, -⟩ := ha.head hx hnil
  obtain ⟨h2, -⟩ := hb.head hy (hg.unacked.trans hnil)
  rw [hg.lastack, hseq] at h2
  omega

lemma rank_grows (h : Live iss s) (hw : Waiting s) (hm : Moves fair s t) (hg : Grows s t) :
    rank (tcpOutput t) = rank s ∧ Waiting (tcpOutput t) := by
  -- output after the queue has grown at most lets the clocks run on
  have ht := h.healthy.moves hm
  have hclock := sameClock_tcpOutput t
  have hmem : (tcpOutput t).pcb.env.mem = true := hclock.mem.trans (hg.mem.trans hw.mem)
  by_cases hnil : s.tx.unacked = []
  · cases hx : s.tx.unsent with
    | nil => exact absurd (by rw [outbound, hnil, hx]; rfl) hw.queued
    | cons x xs =>
      obtain ⟨y, hy, -⟩ := hg.head x (by simp [hx])
      obtain ⟨ys, hy⟩ : ∃ ys, t.tx.unsent = y :: ys := List.head?_eq_some_iff.1 hy
      -- the window holds the first segment back, now as before
      rcases h.running with hun | hun | ⟨hp, hfit⟩
      · rw [hun] at hx
        cases hx
      · exact absurd hnil hun
      · have hreach := reach_grows h.healthy ht hg hx hy hnil
        have hbefore := hfit x (by simp [hx])
        have hcalm : Calm t (tcpOutput t) := by
          refine calm_tcpOutput hy ?_ (hg.persist ▸ hp)
          unfold sendWindow
          rw [hg.sndWnd]
          omega
        refine ⟨?_, ?_, hmem⟩
        · rw [hcalm.rank_eq]
          unfold rank slack
          rw [hg.unacked, hg.sndWnd, hg.rexmit, hg.persist]
        · rw [outbound, hcalm.unsent, hy]
          simp
  · have hflight := flight_tcpOutput (hg.unacked.symm ▸ hnil : t.tx.unacked ≠ [])
    have hrex : (tcpOutput t).rexmit = s.rexmit :=
      (hclock.rexmit (hg.rexmit ▸ h.healthy.timed.rexmit hnil)).trans hg.rexmit
    refine ⟨?_, ?_, hmem⟩
    · unfold rank slack
      rw [if_pos hflight, if_pos hnil, hrex]
    · exact fun h0 => hflight (List.append_eq_nil_iff.1 h0).1

lemma rank_orderly (h : Live iss s) (hw : Waiting s) (ho : Orderly fair s s') :
    rank s' = rank s ∧ Waiting s' := by
  cases ho with
  | calm hc => exact ⟨hc.rank_eq, hw.of_calm hc⟩
  | output t hm hg hc =>
    obtain ⟨hrank, hwait⟩ := rank_grows h hw hm hg
    exact ⟨hc.rank_eq.trans hrank, hwait.of_calm hc⟩

/-! ### The slow timer -/

lemma persistBackoff_le (n : ℕ) : tcpPersistBackoff.getD n 0 ≤ 120 := by
  rcases n with _ | _ | _ | _ | _ | _ | _ | n <;> simp [tcpPersistBackoff]

lemma nextSlot_eq (p : Persist) : (nextSlot p).cnt = 0 ∧ (nextSlot p).probe = p.probe := ⟨rfl, rfl⟩

lemma rank_probe (h : Healthy iss s) (hw : Waiting s) (hnil : s.tx.unacked = [])
    (h0 : s.tx.sndWnd = 0) (hlt : s.persist.probe < tcpMaxrtx o) {keep : ℕ} :
    rank (persistFire keep s) < rank s ∧ Waiting (persistFire keep s) := by
  have hmax := tcpMaxrtx_le o
  have hstill := still_probe s
  cases hu : s.tx.unsent with
  | nil => exact absurd (by rw [outbound, hnil, hu]; rfl) hw.queued
  | cons seg rest =>
    have hprobe : ∃ t, tcpZeroWindowProbe s = (t, .ok) ∧ t.persist = countProbe s.persist ∧
        t.rexmit = s.rexmit ∧
        t.pcb.env = s.pcb.env := by
      rw [probe_sent hu hw.mem, h.routed rfl]
      exact ⟨_, rfl, rfl, rfl, rfl⟩
    obtain ⟨t, heq, hpersist, hrex, henv⟩ := hprobe
    rw [heq] at hstill
    have hfire : persistFire keep s = { t with persist := nextSlot t.persist } := by
      unfold persistFire
      rw [if_pos h0, heq]
    have hcount : (countProbe s.persist).probe = s.persist.probe + 1 := by
      unfold countProbe
      rw [if_pos (by omega)]
    rw [hfire]
    refine ⟨?_, ?_, ?_⟩
    · unfold rank slack
      have hun : ({ t with persist := nextSlot t.persist } : Sender o).tx.unacked = [] :=
        hstill.unacked.trans hnil
      have hwnd : ({ t with persist := nextSlot t.persist } : Sender o).tx.sndWnd = 0 :=
        hstill.sndWnd.trans h0
      rw [if_neg (not_not.2 hun), if_pos hwnd, if_neg (not_not.2 hnil), if_pos h0]
      simp only [nextSlot_eq, hrex, hpersist, hcount]
      have hdrop : (tcpMaxrtx o - s.persist.probe) * 122 =
          (tcpMaxrtx o - (s.persist.probe + 1)) * 122 + 122 := by
        rw [← Nat.succ_mul]
        congr 1
        omega
      omega
    · change outbound t.tx ≠ []
      rw [outbound, hstill.unsent, hu]
      simp
    · change t.pcb.env.mem = true
      rw [henv]
      exact hw.mem

lemma rank_split (h : Healthy iss s) (hidle : s.pcb.inputPcb = false) (hw : Waiting s)
    (hnil : s.tx.unacked = []) (h0 : s.tx.sndWnd ≠ 0) {seg : TxSeg} {rest : List TxSeg}
    (hu : s.tx.unsent = seg :: rest) (hfit : s.tx.sndWnd < reach s.tx seg) (hfin : FinWhole s.tx)
    {keep : ℕ} :
    rank (persistFire keep s) < rank s ∧ Waiting (persistFire keep s) := by
  -- a first segment that an open window holds back is split, and its first part leaves
  have hmss := h.ledger.mss.2
  have hconst : tcpMss = 1460 := rfl
  obtain ⟨hlen, hcwnd, hsize⟩ := h.head hu hnil
  have hmod : s.tx.sndWnd % 2 ^ 16 = s.tx.sndWnd := Nat.mod_eq_of_lt (by omega)
  have hsplit : Move fair s (tcpSplitUnsentSeg keep (s.tx.sndWnd % 2 ^ 16) s).1 :=
    .split keep h0 fun _ => hfin
  have hcore := core_split keep (s.tx.sndWnd % 2 ^ 16) s
  have hok : ∃ ov len t, tcpSplitUnsentSeg keep (s.tx.sndWnd % 2 ^ 16) s = (t, .ok) ∧
      t = s.setTx { s.tx with
        unsent := splitHead keep s.tx.sndWnd seg :: splitTail s.tx.sndWnd seg :: rest,
          sndQueuelen := len, unsentOversize := ov } := by
    unfold tcpSplitUnsentSeg TcpOut.tcpSplitUnsentSeg
    rw [show s.pcb.tx.unsent = seg :: rest from hu, hmod]
    dsimp only
    rw [if_neg h0, if_neg (by omega), if_neg (by simp [hw.mem])]
    exact ⟨_, _, _, rfl, rfl⟩
  obtain ⟨ov, len, t, heq, ht⟩ := hok
  rw [heq] at hsplit hcore
  have hhealthy : Healthy iss t := healthy_move h hsplit
  have htnil : t.tx.unacked = [] := by
    rw [ht]
    exact hnil
  have htu : t.tx.unsent = splitHead keep s.tx.sndWnd seg :: splitTail s.tx.sndWnd seg :: rest := by
    rw [ht]
    rfl
  have htidle := (inputPcb_of_core hcore).trans hidle
  have hmem : t.pcb.env.mem = true := by
    rw [ht]
    exact hw.mem
  obtain ⟨hhead, hroom, -⟩ := hhealthy.head htu htnil
  have hflight : (tcpOutput t).tx.unacked ≠ [] := by
    refine sends_tcpOutput hhealthy htidle htu ?_ htnil
    have hcut : (splitHead keep s.tx.sndWnd seg).data.length ≤ s.tx.sndWnd := by
      simp only [splitHead, List.length_take]
      omega
    have hwnd : t.tx.sndWnd = s.tx.sndWnd := by
      rw [ht]
      rfl
    unfold sendWindow
    rw [hwnd]
    omega
  have hroute : t.pcb.env.route = true := hhealthy.routed rfl
  have hfails : outputFails t = false := by simp [outputFails, ackFails, htu, hmem, hroute]
  have hfire : persistFire keep s = tcpOutput t := by
    unfold persistFire
    rw [if_neg h0, heq]
    simp only [hfails, Bool.false_eq_true, if_false]
  have hclock := sameClock_tcpOutput t
  have hafter := (hhealthy.moves (moves_tcpOutput t)).timed.rexmit hflight
  rw [hfire]
  refine ⟨?_, fun hq => hflight (List.append_eq_nil_iff.1 hq).1, hclock.mem.trans hmem⟩
  have hnrtx : (tcpOutput t).rexmit.nrtx = s.rexmit.nrtx := by
    rw [hclock.nrtx, ht]
    rfl
  unfold rank slack
  rw [if_pos hflight, if_neg (not_not.2 hnil), if_neg h0, hnrtx]
  omega

lemma rank_persistFire (h : Live iss s) (hw : Waiting s) (hp : 0 < s.persist.backoff)
    (hlt : s.persist.probe < tcpMaxrtx o) (hfin : FinWhole s.tx) (keep : ℕ) :
    rank (persistFire keep s) < rank s ∧ Waiting (persistFire keep s) := by
  have hnil := h.healthy.timed.persist hp
  by_cases h0 : s.tx.sndWnd = 0
  · exact rank_probe h.healthy hw hnil h0 hlt
  · cases hu : s.tx.unsent with
    | nil => exact absurd (by rw [outbound, hnil, hu]; rfl) hw.queued
    | cons seg rest =>
      rcases h.running with hun | hun | ⟨-, hfit⟩
      · rw [hun] at hu
        cases hu
      · exact absurd hnil hun
      · exact rank_split h.healthy h.idle hw hnil h0 hu (hfit seg (by simp [hu])) hfin

lemma rank_persistTick (h : Live iss s) (hw : Waiting s) (hp : 0 < s.persist.backoff)
    (hlt : s.persist.probe < tcpMaxrtx o) (hfin : FinWhole s.tx) (keep : ℕ) :
    rank (persistTick keep s) < rank s ∧ Waiting (persistTick keep s) := by
  -- a tick of the persist timer brings it nearer to its end
  have hnil := h.healthy.timed.persist hp
  have hslot := persistBackoff_le (s.persist.backoff - 1)
  unfold persistTick
  dsimp only
  by_cases hcnt : s.persist.cnt < tcpPersistBackoff.getD (s.persist.backoff - 1) 0
  · rw [if_pos hcnt]
    have hlive : Live iss { s with persist := { s.persist with cnt := s.persist.cnt + 1 } } :=
      h.settle (.single (.persist _ (.inr hp))) (.still ⟨rfl, rfl, rfl, rfl, id, rfl⟩)
    have hwait : Waiting { s with persist := { s.persist with cnt := s.persist.cnt + 1 } } :=
      ⟨hw.queued, hw.mem⟩
    have hrank : rank { s with persist := { s.persist with cnt := s.persist.cnt + 1 } } <
      rank s := by
      have hnil' : ({ s with persist := { s.persist with cnt := s.persist.cnt + 1 } } : Sender
        o).tx.unacked = [] := hnil
      unfold rank slack
      rw [if_neg (not_not.2 hnil'), if_neg (not_not.2 hnil)]
      change _ + (if s.tx.sndWnd = 0 then _ else _) < _
      split_ifs <;> dsimp only <;> omega
    split_ifs
    · obtain ⟨h1, h2⟩ := rank_persistFire hlive hwait hp hlt hfin keep
      exact ⟨h1.trans hrank, h2⟩
    · exact ⟨hrank, hwait⟩
  · rw [if_neg hcnt, if_pos (not_lt.1 hcnt)]
    exact rank_persistFire h hw hp hlt hfin keep

lemma timeout_keeps (s : Sender o) : (backOff (tcpRexmitRtoPrepare s)).rexmit.nrtx = s.rexmit.nrtx ∧
    outbound (backOff (tcpRexmitRtoPrepare s)).tx = outbound s.tx ∧
    (backOff (tcpRexmitRtoPrepare s)).pcb.env = s.pcb.env := by
  unfold tcpRexmitRtoPrepare
  split
  · exact ⟨rfl, rfl, rfl⟩
  · exact ⟨rfl, rfl, rfl⟩

lemma rank_rexmitFire (h : Live iss s) (hw : Waiting s) (hp : s.persist.backoff = 0)
    (hlt : s.rexmit.nrtx < tcpMaxrtx o) (hord : InOrder s.tx) :
    rank (rexmitFire s) < rank s ∧ Waiting (rexmitFire s) := by
  have hmax := tcpMaxrtx_le o
  have hq : ¬(s.tx.unacked = [] ∧ s.tx.unsent = []) :=
    fun hq => hw.queued (List.append_eq_nil_iff.2 hq)
  obtain ⟨hx, hout, henv⟩ := timeout_keeps s
  have hidle : (backOff (tcpRexmitRtoPrepare s)).pcb.inputPcb = false :=
    (inputPcb_of_core (core_tcpRexmitRtoPrepare s)).trans h.idle
  have hmoves : Moves fair s { backOff (tcpRexmitRtoPrepare s) with
      rexmit := countRexmit (backOff (tcpRexmitRtoPrepare s)).rexmit } :=
    .head (.timeout hp hq fun _ => hord) (.single .countRexmit)
  unfold rexmitFire tcpRexmitRtoCommit
  rw [if_neg hq]
  generalize backOff (tcpRexmitRtoPrepare s) = t at hx hout henv hidle hmoves
  have hhealthy := h.healthy.moves hmoves
  have hclock := sameClock_tcpOutput { t with rexmit := countRexmit t.rexmit }
  have hslack := slack_lt (hhealthy.moves (moves_tcpOutput _)).timed
  have hnrtx : (tcpOutput { t with rexmit := countRexmit t.rexmit }).rexmit.nrtx =
    s.rexmit.nrtx + 1 := by
    rw [hclock.nrtx]
    change (countRexmit t.rexmit).nrtx = _
    unfold countRexmit
    rw [if_pos (by omega), hx]
  refine ⟨?_, ?_, ?_⟩
  · unfold rank
    have hdrop : (tcpMaxrtx o - s.rexmit.nrtx) * 0x8100 =
        (tcpMaxrtx o - (s.rexmit.nrtx + 1)) * 0x8100 + 0x8100 := by
      rw [← Nat.succ_mul]
      congr 1
      omega
    rw [hnrtx, hdrop]
    exact (Nat.add_lt_add_left hslack _).trans_le (Nat.le_add_right _ _)
  · refine queued_tcpOutput hhealthy hidle ?_
    change outbound t.tx ≠ []
    rw [hout]
    exact hw.queued
  · rw [hclock.mem]
    change t.pcb.env.mem = true
    rw [henv]
    exact hw.mem

lemma rank_rexmitTick (h : Live iss s) (hw : Waiting s) (hp : s.persist.backoff = 0)
    (hlt : s.rexmit.nrtx < tcpMaxrtx o) (hord : InOrder s.tx) :
    rank (rexmitTick s) < rank s ∧ Waiting (rexmitTick s) := by
  -- so does a tick of the retransmission timer, or the timer is due
  have hflight : s.tx.unacked ≠ [] := by
    intro hnil
    rcases h.running with hun | hun | ⟨hpos, -⟩
    · exact hw.queued (by rw [outbound, hnil, hun]; rfl)
    · exact hun hnil
    · omega
  have hrun := h.healthy.timed.rexmit hflight
  have hrto := h.healthy.rto
  have hlive : Live iss { s with rexmit := tickTimer s.rexmit } :=
    h.settle (.single .tickTimer) (.still ⟨rfl, rfl, rfl, rfl, id, rfl⟩)
  have hwait : Waiting { s with rexmit := tickTimer s.rexmit } := ⟨hw.queued, hw.mem⟩
  have hnrtx : (tickTimer s.rexmit).nrtx = s.rexmit.nrtx := by
    unfold tickTimer
    split_ifs <;> rfl
  have hslack : ∀ x, slack ({ s with rexmit := x } : Sender o) = (0x8000 - x.rtime).toNat :=
    fun x => if_pos hflight
  have hsame : slack s = (0x8000 - s.rexmit.rtime).toNat := if_pos hflight
  unfold rexmitTick
  dsimp only
  split_ifs with hdue
  · obtain ⟨h1, h2⟩ := rank_rexmitFire hlive hwait hp (hnrtx.symm ▸ hlt) hord
    refine ⟨h1.trans_le ?_, h2⟩
    have hle := tickTimer_le s.rexmit
    unfold rank
    rw [hslack, hsame]
    dsimp only
    rw [hnrtx]
    omega
  · refine ⟨?_, hwait⟩
    have htick : (tickTimer s.rexmit).rtime = s.rexmit.rtime + 1 := by
      unfold tickTimer at hdue ⊢
      split_ifs with hmax
      · rfl
      · rw [if_neg hmax] at hdue
        omega
    unfold rank
    rw [hslack, hsame]
    dsimp only
    rw [hnrtx, htick]
    rw [htick] at hdue
    omega

lemma rank_sendTick (h : Live iss s) (hw : Waiting s) (hlt : s.rexmit.nrtx < tcpMaxrtx o)
    (hprobe : 0 < s.persist.backoff → s.persist.probe < tcpMaxrtx o) (hok : TickOk s) (keep : ℕ) :
    rank (sendTick keep s) < rank s ∧ Waiting (sendTick keep s) := by
  unfold sendTick
  split_ifs with hp
  · exact rank_persistTick h hw hp (hprobe hp) (hok.2 hp) keep
  · exact rank_rexmitTick h hw (Nat.eq_zero_of_not_pos hp) hlt hok.1

lemma calm_dropStaleOoseq (s : Sender o) : Calm s (s.mapPcb dropStaleOoseq) := by
  refine calm_pcb ?_ (inputPcb_of_core (core_dropStaleOoseq _)) ?_ <;>
  · unfold dropStaleOoseq
    split_ifs <;> rfl

lemma rank_tcpSlowtmr {keep : ℕ} (h : Live iss s) (hw : Waiting s) (hok : TickOk s)
    (hs : tcpSlowtmr keep s = some s') :
    rank s' < rank s ∧ Waiting s' := by
  -- the slow timer removes the sender or comes nearer to that
  have hcalm : Calm s (s.mapPcb fun pcb => { pcb with ticks := pcb.ticks + 1 }) :=
    calm_pcb rfl rfl rfl
  have hlive : Live iss (s.mapPcb fun pcb => { pcb with ticks := pcb.ticks + 1 }) :=
    h.settle (.single (.quiet (quiet_pcb rfl rfl rfl rfl (.stay _) id))) (.still hcalm.toStill)
  have hlist : (s.mapPcb fun pcb => { pcb with ticks := pcb.ticks + 1 }).pcb.list = .active :=
    hw.active h.healthy
  rw [← hcalm.rank_eq]
  have hok' : TickOk (s.mapPcb fun pcb => { pcb with ticks := pcb.ticks + 1 }) := hok
  replace hw := hw.of_calm hcalm
  unfold tcpSlowtmr at hs
  dsimp only at hs
  generalize (s.mapPcb fun pcb => { pcb with ticks := pcb.ticks + 1 }) = u at *
  rw [hlist] at hs
  unfold slowtmrActive at hs
  dsimp only at hs
  split_ifs at hs with h1 h2
  obtain rfl := Option.some.inj hs
  obtain ⟨hrank, hwait⟩ := rank_sendTick hlive hw (not_le.1 h1)
    (fun hp => not_le.1 fun hle => h2 ⟨hp, hle⟩) hok' keep
  generalize sendTick keep u = v at hrank hwait
  have hround : Calm v (v.mapPcb fun pcb =>
      { pcb with env := { pcb.env with rto := v.trip.rto.toNat, exhausted := false } }) := calm_pcb
        rfl rfl rfl
  have htail := hround.trans (calm_dropStaleOoseq _)
  exact ⟨htail.rank_eq.trans_lt hrank, hwait.of_calm htail⟩

/-! ### The end -/

/-- An event in which the peer has no part. Memory stays as it is. -/
def Silent : Event → Prop
  | .segment _ => False
  | .mem _ => False
  | _ => True

instance : DecidablePred Silent
  | .segment _ => isFalse id
  | .mem _ => isFalse id
  | .write _ => isTrue trivial
  | .shutdown => isTrue trivial
  | .close => isTrue trivial
  | .recved _ => isTrue trivial
  | .output => isTrue trivial
  | .fasttmr => isTrue trivial
  | .slowtmr _ => isTrue trivial
  | .route _ => isTrue trivial

def isSlowtmr : Event → Bool
  | .slowtmr _ => true
  | _ => false

/-- Slow timer ticks after which a silent peer has been given up, whatever its round trip was. -/
def giveUpTicks (o : Platform) : ℕ := (tcpMaxrtx o + 1) * 0x8100

lemma rank_step {e : Event} (h : Live iss s) (hw : Waiting s) (he : Respects fair (some s) e)
    (hsil : Silent e) (hs : step (some s) e = some s') :
    Waiting s' ∧ rank s' + (isSlowtmr e).toNat ≤ rank s := by
  have hord : ∀ {t}, Orderly fair s t → Waiting t ∧ rank t + false.toNat ≤ rank s := by
    intro t ho
    obtain ⟨hrank, hwait⟩ := rank_orderly h hw ho
    exact ⟨hwait, by rw [hrank, Bool.toNat_false, Nat.add_zero]⟩
  have happ : ∀ f : Sender o → Sender o, (s.pcb.state ≠ .synRcvd → Orderly fair s (f s)) →
      Orderly fair s (whenOpen f s) := by
    intro f hf
    unfold whenOpen
    split_ifs with hst
    · exact .calm (.refl s)
    · exact hf hst
  cases e with
  | write data =>
    obtain rfl := Option.some.inj hs
    exact hord (happ _ fun hst => orderly_write data h.healthy.ledger hst he)
  | shutdown =>
    obtain rfl := Option.some.inj hs
    exact hord (happ _ fun hst => orderly_shutdown hst he)
  | close => exact hord (orderly_closeStep he hs)
  | recved len =>
    obtain rfl := Option.some.inj hs
    exact hord (happ _ fun _ => orderly_recved len s)
  | output =>
    obtain rfl := Option.some.inj hs
    exact hord (.output s .refl (Calm.refl s).grows (.refl _))
  | segment seg => exact hsil.elim
  | fasttmr =>
    obtain rfl := Option.some.inj hs
    unfold whenActive
    split_ifs
    · obtain ⟨ho, hmoves, hcore⟩ := orderly_fasttmrAck (g := fair) s
      obtain ⟨hrank, hwait⟩ := rank_orderly h hw ho
      have hlive := h.settle hmoves (ho.settles h.idle)
      have hfin := orderly_fasttmrFin hlive.pend he
      obtain ⟨hrank', hwait'⟩ := rank_orderly hlive hwait hfin
      refine ⟨hwait', ?_⟩
      change _ + false.toNat ≤ _
      rw [hrank', hrank, Bool.toNat_false, Nat.add_zero]
    · exact hord (.calm (.refl s))
  | slowtmr keep =>
    obtain ⟨hrank, hwait⟩ := rank_tcpSlowtmr h hw (he rfl) hs
    exact ⟨hwait, hrank⟩
  | mem ok => exact hsil.elim
  | route ok =>
    obtain rfl := Option.some.inj hs
    exact hord (.calm (calm_pcb rfl rfl rfl))

lemma rank_lt (h : Timed s) : rank s < giveUpTicks o := by
  have hslack := slack_lt h
  have hle := Nat.mul_le_mul_right 0x8100 (Nat.sub_le (tcpMaxrtx o) s.rexmit.nrtx)
  unfold rank giveUpTicks
  omega

/-- A sender with something queued, memory and a route to send it is removed after `giveUpTicks`
ticks of the slow timer without a segment from the peer, whatever the application does meanwhile. -/
theorem silent_peer_given_up {syn : Segment} (hwnd : 2 ≤ syn.wnd) (h : Opened syn iss s)
    (hroute : s.pcb.env.route = true) {es es' : List Event}
    (hes : Runs.Along step (Respects fair) (some s) es) (ht : Runs.run step (some s) es = some t)
    (hq : outbound t.tx ≠ []) (hmem : t.pcb.env.mem = true)
    (hes' : Runs.Along step (fun u e => Respects fair u e ∧ Silent e) (some t) es')
    (hlong : giveUpTicks o ≤ es'.countP isSlowtmr) : Runs.run step (some t) es' = none := by
  have hlive : Live iss t := by
    have := live_run (h.live hwnd hroute) hes
    rw [ht] at this
    exact this
  refine Runs.run_eq_none (fun u => Live iss u ∧ Waiting u) rank isSlowtmr (fun _ => rfl)
    (fun u e u' hu he hs => ?_)
    ⟨hlive, hq, hmem⟩ hes' ((rank_lt hlive.healthy.timed).trans_le hlong)
  obtain ⟨hwait, hrank⟩ := rank_step hu.1 hu.2 he.1 he.2 hs
  exact ⟨⟨live_step hu.1 he.1 hs, hwait⟩, hrank⟩

lemma along_removed (n : ℕ) :
    Runs.Along step (fun u e => Respects fair u e ∧ Silent e)
    (none : Option (Sender o)) (List.replicate n (.slowtmr 0)) := by
  induction n with
  | zero => trivial
  | succ n ih => exact ⟨⟨trivial, trivial⟩, ih⟩

/-- A handshake that the peer never completes. -/
theorem silent_peer_given_up_greeted :
    Runs.run step (some (greeted .ios)) (List.replicate (giveUpTicks .ios) (.slowtmr 0)) =
      none := by
  have hstart : Runs.Along step (Respects fair) (some (greeted .ios)) [] := trivial
  refine silent_peer_given_up (by decide) (greeted_opened .ios) rfl hstart rfl (by decide) rfl ?_ ?_
  · rw [show giveUpTicks .ios = 42 + (giveUpTicks .ios - 42) from rfl, List.replicate_add,
      Runs.along_append]
    refine ⟨by decide +kernel, ?_⟩
    rw [show Runs.run step (some (greeted .ios)) (List.replicate 42 (.slowtmr 0)) =
      none by decide +kernel]
    exact along_removed _
  · rw [List.countP_replicate]
    exact Nat.le_refl _

end TunForge.SendEngine
