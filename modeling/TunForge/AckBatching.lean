import TunForge.InflowSteps
import TunForge.OrderlyClose

/-! Credit for delivered bytes does not depend on how the consumer batches its
acknowledgements. -/
namespace TunForge.AckBatching
open SerialNumber PbufChain LwipTypes TcpOut TcpIn Tcp Connection Callbacks Stack
open Boundary StackRuns Inflow InflowSteps OrderlyClose

variable {o : Platform} {s t u : State o} {m n : ℕ}

/-- Between `s` and `t` exactly `n` bytes have been given back: the counter went down by `n`,
the window up by `n` as far as its maximum, and `tcp_recved` was called with non-zero `u16_t`
chunks that sum to `n`. -/
structure GivenBack (n : ℕ) (s t : State o) : Prop where
  conn : t.conn = { s.conn with inflightAckBytes := s.conn.inflightAckBytes - n }
  pcb : ∀ p, s.pcb = some p → ∃ q, t.pcb = some q ∧ Credit n p q
  chunks : ∃ cs : List ℕ, t.log.lwip = s.log.lwip ++ cs.map .recved ∧
    (∀ c ∈ cs, 0 < c ∧ c ≤ 0xFFFF) ∧ cs.sum = n

lemma givenBack_zero (s : State o) : GivenBack 0 s s := by
  refine ⟨rfl, fun p hp => ⟨p, hp, credit_refl p⟩, [], ?_, ?_, rfl⟩
  · simp
  · simp

lemma GivenBack.trans (h : GivenBack m s t) (h' : GivenBack n t u) : GivenBack (m + n) s u := by
  refine ⟨?_, ?_, ?_⟩
  · rw [h'.conn, h.conn]
    simp only [Nat.sub_sub]
  · intro p hp
    obtain ⟨q, hq, hpq⟩ := h.pcb p hp
    obtain ⟨r, hr, hqr⟩ := h'.pcb q hq
    exact ⟨r, hr, credit_trans hpq hqr⟩
  · obtain ⟨cs, hl, hc, hsum⟩ := h.chunks
    obtain ⟨ds, hl', hd, hsum'⟩ := h'.chunks
    refine ⟨cs ++ ds, ?_, ?_, ?_⟩
    · rw [hl', hl, List.map_append, List.append_assoc]
    · intro c hcd
      rcases List.mem_append.mp hcd with h | h
      · exact hc c h
      · exact hd c h
    · rw [List.sum_append, hsum, hsum']

lemma recvedLoop_chunks (fuel : ℕ) (hn : n ≤ fuel) :
    ∃ cs : List ℕ, (recvedLoop fuel n s).log.lwip = s.log.lwip ++ cs.map .recved ∧
      (∀ c ∈ cs, 0 < c ∧ c ≤ 0xFFFF) ∧ cs.sum = n := by
  -- with as much fuel as there are bytes the chunk loop passes all of them on
  induction fuel generalizing s n with
  | zero =>
    obtain rfl : n = 0 := by omega
    exact ⟨[], by simp [recvedLoop], by simp, rfl⟩
  | succ fuel ih =>
    unfold recvedLoop
    split_ifs with h0
    · exact ⟨[], by simp, by simp, h0.symm⟩
    · obtain ⟨cs, hl, hc, hsum⟩ :=
        ih (s := s.callLwip (.recved (min n 0xFFFF)) (RawApi.recved · (min n 0xFFFF)))
        (n := n - min n 0xFFFF) (by omega)
      refine ⟨min n 0xFFFF :: cs, ?_, ?_, ?_⟩
      · rw [hl]
        simp [Sys.callLwip]
      · intro c hmem
        rcases List.mem_cons.mp hmem with rfl | hmem
        · omega
        · exact hc c hmem
      · rw [List.sum_cons, hsum]
        omega

/-- The connection may be given credit: it is alive and active, on a pcb, and its counter is an
`NSUInteger`. -/
structure Open (s : State o) : Prop where
  alive : s.conn.alive = true
  pcb : s.conn.pcb = true
  active : s.conn.state = .active
  counter : s.conn.inflightAckBytes < 2 ^ 64
  lwip : ∃ p, s.pcb = some p

lemma Open.givenBack (h : Open s) (hg : GivenBack n s t) : Open t := by
  obtain ⟨p, hp⟩ := h.lwip
  obtain ⟨q, hq, -⟩ := hg.pcb p hp
  refine ⟨?_, ?_, ?_, ?_, q, hq⟩
  · rw [hg.conn]
    exact h.alive
  · rw [hg.conn]
    exact h.pcb
  · rw [hg.conn]
    exact h.active
  · rw [hg.conn]
    exact lt_of_le_of_lt (Nat.sub_le _ _) h.counter

lemma recvedLoop_fuel (fuel : ℕ) (hn : n ≤ fuel) (s : State o) :
    recvedLoop (fuel + 1) n s = recvedLoop fuel n s := by
  induction fuel generalizing s n with
  | zero =>
    obtain rfl : n = 0 := by omega
    rfl
  | succ fuel ih =>
    unfold recvedLoop
    split_ifs with h0
    · rfl
    · exact ih (by omega) _

lemma givenBack_acknowledge (h : Open s) (n : ℕ) :
    GivenBack (min n s.conn.inflightAckBytes) s (acknowledgeDeliveredBytes n s) := by
  unfold acknowledgeDeliveredBytes
  rw [if_neg (by simp [h.alive, h.pcb]), if_neg (by simp [h.active])]
  split_ifs with h0
  · have hnil : min n s.conn.inflightAckBytes = 0 := by omega
    rw [hnil]
    exact givenBack_zero s
  · rw [not_or] at h0
    generalize hcredit : min n s.conn.inflightAckBytes = credit
    have hle : credit ≤ s.conn.inflightAckBytes := by omega
    obtain ⟨p, hp⟩ := h.lwip
    obtain ⟨q, hq, hv, hconn⟩ := recvedLoop_credit credit le_rfl hp
    refine ⟨?_, ?_, recvedLoop_chunks credit le_rfl⟩
    · dsimp only [updateInflightAckBytes]
      rw [hconn]
      exact congrArg (fun k => { s.conn with inflightAckBytes := k }) 
        (afterDelta_credit h.counter hle)
    · intro p' hp'
      obtain rfl : p = p' := Option.some.inj (hp.symm.trans hp')
      exact ⟨q, congrArg View.pcb hv, hq⟩

lemma givenBack_all (h : Open s) (bs : List ℕ) :
    GivenBack (min bs.sum s.conn.inflightAckBytes) s
      (bs.foldl (fun s b => acknowledgeDeliveredBytes b s) s) := by
  induction bs generalizing s with
  | nil =>
    rw [List.sum_nil, Nat.zero_min]
    exact givenBack_zero s
  | cons b bs ih =>
    have hfirst := givenBack_acknowledge h b
    have hrest := ih (h.givenBack hfirst)
    have hleft : (acknowledgeDeliveredBytes b s).conn.inflightAckBytes =
        s.conn.inflightAckBytes - min b s.conn.inflightAckBytes :=
          congrArg Conn.inflightAckBytes hfirst.conn
    rw [hleft] at hrest
    have hsum : min (b :: bs).sum s.conn.inflightAckBytes = min b s.conn.inflightAckBytes +
        min bs.sum (s.conn.inflightAckBytes - min b s.conn.inflightAckBytes) := by
      rw [List.sum_cons]
      omega
    rw [hsum]
    exact hfirst.trans hrest

/-- What `tcp_recved` is told, and what the counter and the window end up as, depend on the
acknowledged total alone. -/
theorem acknowledgements_batch {p : Pcb o} (halive : s.conn.alive = true) (hpcb : s.conn.pcb = true)
    (hactive : s.conn.state = .active) (hcounter : s.conn.inflightAckBytes < 2 ^ 64)
    (hp : s.pcb = some p) (hwnd : p.rx.rcvWnd ≤ p.wndMax) (bs : List ℕ) :
    let total := min bs.sum s.conn.inflightAckBytes
    let t := bs.foldl (fun s b => acknowledgeDeliveredBytes b s) s
    let u := acknowledgeDeliveredBytes total s
    (∃ cs : List ℕ, t.log.lwip = s.log.lwip ++ cs.map .recved ∧ (∀ c ∈ cs, 0 < c ∧ c ≤ 0xFFFF) ∧
      cs.sum = total) ∧
    (∀ n fuel, n ≤ fuel → recvedLoop (fuel + 1) n s = recvedLoop fuel n s) ∧
    t.conn.inflightAckBytes = u.conn.inflightAckBytes ∧
      t.conn.inflightAckBytes = s.conn.inflightAckBytes - total ∧
    ∃ q r, t.pcb = some q ∧ u.pcb = some r ∧ q.rx.rcvWnd = r.rx.rcvWnd ∧
      q.rx.rcvWnd = min (p.rx.rcvWnd + total) p.wndMax := by
  intro total t u
  have h : Open s := ⟨halive, hpcb, hactive, hcounter, p, hp⟩
  have hsplit : GivenBack total s t := givenBack_all h bs
  have honce : GivenBack total s u := by
    have hone := givenBack_acknowledge h total
    rwa [Nat.min_assoc, Nat.min_self] at hone
  obtain ⟨q, hq, hpq⟩ := hsplit.pcb p hp
  obtain ⟨r, hr, hpr⟩ := honce.pcb p hp
  rw [Pcb.wndMax_eq] at hwnd ⊢
  refine ⟨hsplit.chunks, fun n fuel hn => recvedLoop_fuel fuel hn s, ?_, ?_, q, r, hq, hr, ?_,
    hpq.wnd hwnd⟩
  · rw [hsplit.conn, honce.conn]
  · rw [hsplit.conn]
  · rw [hpq.wnd hwnd, hpr.wnd hwnd]

/-- Five bytes have been delivered to the slice handler. -/
def delivered (o : Platform) : State o :=
  Runs.run step (listening o)
    (opening ++ [.segment fiveBytes])

/-- The five bytes are acknowledged by halves, the second time with far too large a count. -/
theorem acknowledgements_batch_halves :
    ∃ q, ([2, 0, 70000].foldl (fun s b => acknowledgeDeliveredBytes b s) (delivered .ios)).pcb =
      some q ∧
      q.rx.rcvWnd = Platform.ios.tcpWnd := by
  have hp : (delivered .ios).pcb = some ((delivered .ios).pcb.get (by decide)) := by simp
  obtain ⟨-, -, -, -, q, r, hq, -, -, hw⟩ :=
    acknowledgements_batch (by decide) (by decide) (by decide) (by decide) hp (by decide)
      [2, 0, 70000]
  exact ⟨q, hq, hw.trans (by decide)⟩

end TunForge.AckBatching
