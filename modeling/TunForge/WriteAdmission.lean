import TunForge.PcbHistory

/-! When a write is admitted. The sending side of a living connection stays open until
the application shuts it, so on an empty send queue only the two limits of the
queue decide: its bytes, and its segments at the size segments are cut to. -/
namespace TunForge.WriteAdmission
open SerialNumber PbufChain LwipTypes TcpOut TcpIn Tcp Connection Callbacks Stack
open BoundaryRule PcbFrames CalmSteps InputCases StackRuns WorkFrames
open Inflow InflowSteps InflowEvents InflowCalls InboundRule PcbHistory

variable {o : Platform} {s s₀ : State o} {e : Event}

/-! ### The sending side over a run -/

/-- The sending side is in order, and open while nothing has shut it. -/
def Sending (v : View o) : Prop :=
  ∀ p, v.pcb = some p → MssOk p ∧
    (p.state = .synRcvd ∨ (v.living = true ∧ v.writeFIN = false) → SendOpen p)

lemma Sending.onward {v w : View o} (h : Sending v) (ho : Onward v w)
    (hl : w.living = true → v.living = true) (hf : w.writeFIN = false → v.writeFIN = false) :
    Sending w := by
  intro q hq
  obtain ⟨p, hp, hk, hs⟩ := ho q hq
  obtain ⟨hm, hopen⟩ := h p hp
  refine ⟨hk.mss hm, fun hc => hk.sends (hopen ?_)⟩
  exact hc.imp hs fun hc => ⟨hl hc.1, hf hc.2⟩

lemma sending_none {v : View o} (h : v.pcb = none) : Sending v := by
  intro p hp
  rw [h] at hp
  cases hp

lemma writeFIN_taking {c : Pbuf} {v w : View o} (h : Taking c v w) : w.writeFIN = v.writeFIN := by
  cases h with
  | dropped => rfl
  | delivered _ _ hd => cases hd <;> rfl

lemma sending_flow {ph ph' : Phase} {v w : View o} (he : e ≠ .listenerClosed) (h : Sending v)
    (hf : Flow s₀ e (ph, v) (ph', w)) : Sending w := by
  have ho := onward_flow he hf
  cases hf with
  | made hp hfresh _ _ _ _ hk =>
    -- a pcb waiting for its handshake is open, so the new connection starts with an open one
    intro q hq
    cases hq
    obtain ⟨hm, hopen⟩ := h _ hp
    exact ⟨hk.mss hm, fun _ => hk.sends (hopen (.inl hfresh))⟩
  | @retaken _ _ w p r _ _ hp _ _ ht =>
    have hlife : w.living = v.living := congrArg Life.living (taking_frame ht).1
    have hfin : w.writeFIN = v.writeFIN := (writeFIN_taking ht :)
    refine h.onward ho (fun hl => ?_) fun hw => ?_
    · rw [← hlife]
      split_ifs at hl <;> exact hl
    · rw [← hfin]
      split_ifs at hw <;> exact hw
  | taken _ ht =>
    have hlife : w.living = v.living := congrArg Life.living (taking_frame ht).1
    exact h.onward ho (hlife ▸ id) (writeFIN_taking ht ▸ id)
  | orphaned => exact sending_none rfl
  | removed => exact sending_none rfl
  | _ => exact h.onward ho id id

lemma sending_app {a : AppEvent} {w : View o} (hw : Wf s) (h : Sending (view s))
    (hf : AppFlow s a w) : Sending w := by
  cases hf with
  | idle => exact h
  | @worked _ fin p q _ hp _ _ hs _ hm hv hfin =>
    intro q' hq'
    cases hq'
    obtain ⟨hmss, hopen⟩ := h p hp
    refine ⟨mssOk_of_eq (mss_of_side hm.side) hmss, fun hc => ?_⟩
    rcases hc with hq | ⟨hl, hnot⟩
    · rw [living_of_fresh hw hp (hs hq)] at hv
      cases hv
    · obtain ⟨hwas, hk⟩ := hfin hnot
      exact hk.sends (hopen (.inr ⟨hl, hwas⟩))
  | @activated p _ _ hp _ _ _ _ hq =>
    subst hq
    intro q' hq'
    cases hq'
    exact h p hp
  | enabled => exact h.onward (.refl _) id id
  | acknowledged hp hq =>
    exact h.onward (onward_set hp rfl (keeps_of_credit hq) fun hs => (state_of_core hq.core) ▸ hs)
      id id
  | @closed p q hp _ _ _ hs hm =>
    intro q' hq'
    cases hq'
    refine ⟨mssOk_of_eq (mss_of_side hm.side) (h p hp).1, fun hc => ?_⟩
    rcases hc with hc | ⟨hc, -⟩
    · exact absurd hc hs
    · have hover : ((view s).ended .close).living = false := living_ended .close (view s)
      rw [hover] at hc
      cases hc
  | discarded => exact sending_none rfl
  | aborted => exact sending_none rfl
  | handlers => exact h.onward (.refl _) id id
  | ran => exact h.onward (.refl _) id id
  | released => exact h.onward (.refl _) (fun hl => by cases hl) id
  | env => exact h.onward (.refl _) id id

lemma sending_step (hs : Sound s) (h : Sending (view s)) (e : Event) :
    Sending (view (step s e)) := by
  by_cases happ : ∃ a, e = .app a
  · obtain ⟨a, rfl⟩ := happ
    exact sending_app hs.wf h (flow_appStep hs.wf a)
  by_cases hl : e = .listenerClosed
  · subst hl
    intro q hq
    obtain ⟨p, hp, rfl⟩ := Option.map_eq_some_iff.1 (show s.pcb.map _ = some q from hq)
    exact h p hp
  · exact keeps_event (I := fun _ v => Sending v) hs (fun a h => happ ⟨a, h⟩) h fun _ hi hf =>
      sending_flow hl hi hf

lemma sending_initial (h : Initial s) : Sending (view s) := by
  obtain ⟨syn, iss, env, ticks, tf, pcb, hpcb, -, rfl⟩ := h
  intro p hp
  cases hp
  have hcore := (core_tcpListenInput hpcb).1
  refine ⟨?_, fun _ => ⟨.inl (congrArg Core.state hcore), congrArg Core.closePend hcore⟩⟩
  have hmss : pcb.mss = (newPcb o syn iss env ticks).mss := by
    have henq := side_tcpEnqueueFlags (newPcb o syn iss env ticks) true false
    revert hpcb
    unfold tcpListenInput
    split
    · next p hp =>
      rw [hp] at henq
      rintro ⟨⟩
      exact mss_of_side ((side_tcpOutput p).trans henq)
    · rintro ⟨⟩
  have hdefault : 0 < 536 ∧ 536 ≤ tcpMss := by decide
  exact mssOk_of_eq hmss (mssOk_tcpParseopt syn hdefault)

lemma sending_reachable (h : Reachable s) : Sound s ∧ Sending (view s) := by
  obtain ⟨s₀, es, h₀, rfl⟩ := h
  refine Runs.invariant_all step (fun s => Sound s ∧ Sending (view s)) (fun s e h => ?_)
    ⟨sound_initial h₀, sending_initial h₀⟩ es
  exact ⟨sound_step h.1 e, sending_step h.1 h.2 e⟩

/-! ### Writing on an empty queue -/

/-- Everything that was written has been acknowledged. -/
structure SendDrained (p : Pcb o) : Prop where
  sndBuf : p.tx.sndBuf = o.tcpSndBuf
  queuelen : p.tx.sndQueuelen = 0
  unsent : p.tx.unsent = []
  unacked : p.tx.unacked = []

lemma tcpSndQueuelen_le (o : Platform) : tcpSndQueuelen o ≤ 0xFFFF - 3 := by cases o <;> decide

lemma newSegments_isSome {p : Pcb o} {m : ℕ} (hm : 0 < m) (hmem : p.env.mem = true) (fuel : ℕ)
    (seqno : Seq) (first : Bool) (queuelen oversize : ℕ) (data : Bytes) (hlen : data.length ≤ fuel)
    (hq : queuelen ≤ tcpSndQueuelen o) :
    (newSegments p m fuel seqno first queuelen oversize data).isSome = true ↔
      data.length ≤ m * (tcpSndQueuelen o - queuelen) := by
  -- new segments are cut as long as the queue has room for one more
  induction fuel generalizing seqno first queuelen oversize data with
  | zero =>
    obtain rfl : data = [] := List.length_eq_zero_iff.1 (by omega)
    simp [newSegments]
  | succ fuel ih =>
    unfold newSegments
    by_cases hd : data = []
    · subst hd
      simp
    have hpos : 0 < data.length := List.length_pos_iff.2 hd
    rw [if_neg hd, hmem, min_eq_left (tcpSndQueuelen_le o)]
    by_cases hfull : tcpSndQueuelen o < queuelen + 1
    · obtain hz : tcpSndQueuelen o - queuelen = 0 := by omega
      simp [hfull, hz]
      omega
    · rw [if_neg (by simpa using hfull)]
      have hstep := ih (seqno + BitVec.ofNat 32 (data.take m).length) false (queuelen + 1)
        (preallocOversize p.tx (data.take m).length m first) (data.drop m)
        (by simp only [List.length_drop]; omega) (by omega)
      have hroom : m * (tcpSndQueuelen o - queuelen) =
          m * (tcpSndQueuelen o - (queuelen + 1)) + m := by
        obtain ⟨k, hk⟩ : ∃ k, tcpSndQueuelen o - queuelen = k + 1 :=
          ⟨tcpSndQueuelen o - (queuelen + 1), by omega⟩
        have hk' : tcpSndQueuelen o - (queuelen + 1) = k := by omega
        rw [hk, hk', Nat.mul_succ]
      rw [hroom]
      rw [List.length_drop] at hstep
      revert hstep
      dsimp only
      generalize newSegments p m fuel (seqno + BitVec.ofNat 32 (data.take m).length) false
        (queuelen + 1)
        (preallocOversize p.tx (data.take m).length m first) (data.drop m) = r
      intro hstep
      cases r with
      | none =>
        simp only [Option.isSome_none, Bool.false_eq_true, false_iff, not_le] at hstep ⊢
        omega
      | some r =>
        simp only [Option.isSome_some, true_iff] at hstep ⊢
        omega

lemma mssLocal_pos {p : Pcb o} (h : MssOk p) : 0 < mssLocal p := by
  have := h.1
  unfold mssLocal
  dsimp only
  split_ifs <;> omega

lemma tcpWrite_drained {p : Pcb o} (hs : SendOpen p) (hmss : MssOk p) (hd : SendDrained p)
    (hm : p.env.mem = true) {data : Bytes} (hn : data ≠ []) :
    (tcpWrite p data).2 =
      if data.length ≤ o.tcpSndBuf ∧ data.length ≤ mssLocal p * tcpSndQueuelen o then .ok
      else .mem := by
  have hpos : 0 < data.length := List.length_pos_iff.2 hn
  have hlimit : 0 < tcpSndQueuelen o := by cases o <;> decide
  have hstate : ¬ (p.state ≠ .established ∧ p.state ≠ .closeWait ∧ p.state ≠ .synSent ∧
      p.state ≠ .synRcvd) := by
    rcases hs.1 with h | h | h <;> simp [h]
  have hcheck : tcpWriteChecks p data.length = if o.tcpSndBuf < data.length then .mem else .ok := by
    unfold tcpWriteChecks
    rw [if_neg hstate, if_neg (by omega), hd.sndBuf, hd.queuelen]
    have hnot : ¬ min (tcpSndQueuelen o) (0xFFFF - 3 + 1) ≤ 0 := by omega
    rw [if_neg hnot]
  have hext : extendLast p (mssLocal p) data.length = some (0, 0, 0) := by
    simp [extendLast, hd.unsent]
  unfold tcpWrite
  rw [hcheck]
  by_cases hbuf : o.tcpSndBuf < data.length
  · rw [if_pos hbuf, if_neg (by omega)]
  · rw [if_neg hbuf]
    dsimp only
    rw [hext]
    dsimp only
    have hsegs := newSegments_isSome (mssLocal_pos hmss) hm data.length
      (p.tx.sndLbb + BitVec.ofNat 32 (0 + 0)) true (p.tx.sndQueuelen + 0) 0 (data.drop (0 + 0))
        (by simp)
      (by rw [hd.queuelen]; omega)
    simp only [if_true]
    revert hsegs
    generalize newSegments p (mssLocal p) data.length (p.tx.sndLbb + BitVec.ofNat 32 (0 + 0)) true
      (p.tx.sndQueuelen + 0) 0
      (data.drop (0 + 0)) = r
    rw [hd.queuelen]
    simp only [List.drop_zero, Nat.add_zero, Nat.sub_zero]
    intro hsegs
    cases r with
    | none =>
      rw [if_neg]
      rintro ⟨-, hfit⟩
      simpa using hsegs.2 hfit
    | some r => rw [if_pos ⟨by omega, hsegs.1 rfl⟩]

lemma writeBytes_status {p : Pcb o} (hp : s.pcb = some p) (hal : s.conn.alive = true)
    (hpcb : s.conn.pcb = true) (ha : s.conn.state = .active) (hf : s.conn.writeFIN = false)
    {bytes : Bytes} (hn : bytes ≠ []) (hmax : bytes.length ≤ 0xFFFF) :
    (writeBytes bytes s).2 = match (tcpWrite p bytes).2 with
      | .ok => (bytes.length, .ok)
      | .mem => (0, .wouldBlock)
      | _ => (0, .error) := by
  have hrw : (RawApi.write p bytes : Pcb o × Err) = tcpWrite p bytes := rfl
  unfold writeBytes
  rw [if_neg hn, if_neg (by omega), if_neg (by simp [hal, hpcb, ha, hf]), hp, Option.map_some, hrw]
  generalize tcpWrite p bytes = r
  obtain ⟨q, err⟩ := r
  cases err <;> rfl

lemma writeBytes_drained (h : Reachable s) {p : Pcb o} (hp : s.pcb = some p) (hl : living s = true)
    (ha : s.conn.state = .active) (hf : s.conn.writeFIN = false) (hd : SendDrained p)
    (hm : p.env.mem = true) {bytes : Bytes} (hn : 1 ≤ bytes.length) (hmax : bytes.length ≤ 0xFFFF) :
    (writeBytes bytes s).2 =
      if bytes.length ≤ o.tcpSndBuf ∧ bytes.length ≤ mssLocal p * tcpSndQueuelen o then
        (bytes.length, .ok)
      else (0, .wouldBlock) := by
  obtain ⟨hsound, hsend⟩ := sending_reachable h
  obtain ⟨hmss, hopen⟩ := hsend p hp
  have halive : s.conn.alive = true := by
    simp only [living, Bool.and_eq_true] at hl
    exact hl.2
  have hpcb : s.conn.pcb = true := hsound.wf.coherent.pcb_eq.trans halive
  have hne : bytes ≠ [] := List.ne_nil_of_length_pos hn
  rw [writeBytes_status hp halive hpcb ha hf hne hmax, tcpWrite_drained
    (hopen (.inr ⟨hl, hf⟩)) hmss hd hm hne]
  split_ifs <;> rfl

/-- On an empty queue a write is taken whole exactly if its bytes fit the send buffer and the
segments it is cut into fit the queue. -/
theorem write_accepted_iff (h : Reachable s) {p : Pcb o} (hp : s.pcb = some p)
    (hl : living s = true) (ha : s.conn.state = .active) (hf : s.conn.writeFIN = false)
    (hd : SendDrained p) (hm : p.env.mem = true) {bytes : Bytes} (hn : 1 ≤ bytes.length)
    (hmax : bytes.length ≤ 0xFFFF) :
    (writeBytes bytes s).2 = (bytes.length, .ok) ↔
      bytes.length ≤ o.tcpSndBuf ∧ bytes.length ≤ mssLocal p * tcpSndQueuelen o := by
  rw [writeBytes_drained h hp hl ha hf hd hm hn hmax]
  split_ifs with hfit
  · simp [hfit]
  · simp [hfit]

/-! ### Two peers -/

/-- A connection that has been activated, to a peer whose window is always `wnd`. -/
def activated (o : Platform) (wnd : ℕ) : State o :=
  let syn : Segment := { openingSyn with wnd := wnd }
  Runs.run step (opened ((tcpListenInput o syn 6510 calmEnv 0).getD (newPcb o syn 6510 calmEnv 0))
    calmTf)
    [.segment { ackSegment 101 6511 with wnd := wnd }, .app .runConnectionsBlock,
      .app (.api .markActive)]

lemma activated_reachable (o : Platform) (wnd : ℕ) : Reachable (activated o wnd) := by
  refine ⟨_, _, ⟨{ openingSyn with wnd := wnd }, 6510, calmEnv, 0, calmTf, _, ?_, rfl, rfl⟩, rfl⟩
  rfl

/-- Three bytes to a peer with a window of 1000. -/
theorem write_accepted_iff_small :
    ∃ p, (activated .macos 1000).pcb = some p ∧ SendDrained p ∧
      (writeBytes [1, 2, 3] (activated .macos 1000)).2 = (3, .ok) := by
  have hp : (activated .macos 1000).pcb = some ((activated .macos 1000).pcb.get (by decide)) := by
    simp
  have hd : SendDrained ((activated .macos 1000).pcb.get (by decide)) :=
    ⟨by decide, by decide, by decide, by decide⟩
  refine ⟨_, hp, hd, ?_⟩
  have hiff : (writeBytes [1, 2, 3] (activated .macos 1000)).2 = (3, .ok) ↔ _ :=
    write_accepted_iff (activated_reachable .macos 1000) hp (by decide) (by decide) (by decide) hd
      (by decide) (by decide)
      (by decide)
  exact hiff.2 (by decide)

/-- One byte more than the send buffer holds is refused on iOS, and 719 bytes on macOS when the
peer never opened its window beyond 2, however often the write is tried again. -/
theorem drained_write_refused :
    (Reachable (activated .ios 65535) ∧ living (activated .ios 65535) = true ∧
      (∃ p, (activated .ios 65535).pcb = some p ∧ SendDrained p ∧ p.env.mem = true) ∧
      (writeBytes (List.replicate 16385 0) (activated .ios 65535)).2 = (0, .wouldBlock)) ∧
    (Reachable (activated .macos 2) ∧ living (activated .macos 2) = true ∧
      (∃ p, (activated .macos 2).pcb = some p ∧ SendDrained p ∧ p.env.mem = true) ∧
      (writeBytes (List.replicate 719 0) (activated .macos 2)).2 = (0, .wouldBlock)) := by
  have hp : (activated .ios 65535).pcb = some ((activated .ios 65535).pcb.get (by decide)) := by
    simp
  have hd : SendDrained ((activated .ios 65535).pcb.get (by decide)) :=
    ⟨by decide, by decide, by decide, by decide⟩
  have hq : (activated .macos 2).pcb = some ((activated .macos 2).pcb.get (by decide)) := by simp
  have he : SendDrained ((activated .macos 2).pcb.get (by decide)) :=
    ⟨by decide, by decide, by decide, by decide⟩
  refine ⟨⟨activated_reachable _ _, by decide, ⟨_, hp, hd, by decide⟩, ?_⟩,
    ⟨activated_reachable _ _, by decide, ⟨_, hq, he, by decide⟩, ?_⟩⟩
  · rw [writeBytes_drained (activated_reachable _ _) hp (by decide) (by decide) (by decide) hd
      (by decide)
      (by rw [List.length_replicate]; decide) (by rw [List.length_replicate]; decide), if_neg]
    rw [List.length_replicate]
    exact fun h => absurd h.1 (by decide)
  · have hsize : mssLocal ((activated .macos 2).pcb.get (by decide)) = 1 := by decide
    rw [writeBytes_drained (activated_reachable _ _) hq (by decide) (by decide) (by decide) he
      (by decide)
      (by rw [List.length_replicate]; decide) (by rw [List.length_replicate]; decide), if_neg]
    rw [hsize, List.length_replicate]
    decide

end TunForge.WriteAdmission
