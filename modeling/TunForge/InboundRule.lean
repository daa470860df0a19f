import TunForge.InflowCalls

/-! The induction rule of the inbound machine: what every stage keeps, every event
of the running stack keeps. Along the stages of one event the surroundings stay
as they were, and until a segment is looked at so does most of the pcb. -/
namespace TunForge.InboundRule
open SerialNumber PbufChain LwipTypes TcpOut TcpIn Tcp Connection Callbacks Stack
open Boundary Termination OrdinarySteps BoundaryRule PcbFrames CalmSteps InputCases Refinement
  WellFormed
open ReceiveSteps Inflow InflowSteps InflowEvents InflowRuns InflowCalls

variable {o : Platform} {s s₀ : State o} {e : Event}

/-- The surroundings in which an event finds the stack. -/
structure Framed (s₀ : State o) (v : View o) : Prop where
  malloc : v.malloc = s₀.env.malloc
  kept : living s₀ = true → v.handlers = s₀.conn.handlers ∧ v.recvEnabled = s₀.conn.recvEnabled ∧
    (v.living = true → v.state = s₀.conn.state)
  made : living s₀ = false → v.living = true → v.recvEnabled = false

/-- Nothing that lwIP holds back for the connection would be taken now. -/
def Untouched (s₀ : State o) : Prop :=
  refused s₀ = none ∨ (living s₀ = true ∧ (view s₀).ready = false ∧
    ∀ r ∈ refused s₀, (offerSplit o r.p).1.totLen ≠ 0)

instance (s₀ : State o) : Decidable (Untouched s₀) := inferInstanceAs (Decidable (_ ∨ _))

/-- The pcb `p` before a segment is looked at, when the segment found `p₀`. -/
structure Later (s₀ : State o) (p₀ p : Pcb o) : Prop where
  list : p.list = p₀.list
  nxt : p.rx.rcvNxt = p₀.rx.rcvNxt
  ooseq : p.rx.ooseq = p₀.rx.ooseq
  wnd : p₀.rx.rcvWnd ≤ o.tcpWnd → p₀.rx.rcvWnd ≤ p.rx.rcvWnd ∧ p.rx.rcvWnd ≤ o.tcpWnd
  state : p.state = p₀.state ∨ (p₀.state = .synRcvd ∧ p.state = .established)
  held : Untouched s₀ → p = p₀ ∨ (living s₀ = false ∧ inbox p = inbox p₀)

structure Since (s₀ : State o) (v : View o) : Prop where
  life : living s₀ = true → v.living = true
  pcb : ∀ p, v.pcb = some p → ∃ p₀, s₀.pcb = some p₀ ∧ Later s₀ p₀ p

/-! ### What taking a payload leaves alone -/

structure Life where
  living : Bool
  state : ConnState
  recvEnabled : Bool
  reason : Reason
  handlers : Handlers
  malloc : Bool
  trace : List (CBlock × Outcome)

def life (v : View o) : Life :=
  ⟨v.living, v.state, v.recvEnabled, v.reason, v.handlers, v.malloc, v.trace⟩

/-- The pcb is the same, or has been credited some bytes. -/
def MaybeCredited (v w : View o) : Prop :=
  w.pcb = v.pcb ∨ ∃ p q n, v.pcb = some p ∧ w.pcb = some q ∧ Credit n p q

lemma delivery_frame {c : Pbuf} {v w : View o} (h : Delivery c v w) :
    life w = life v ∧ MaybeCredited v w ∧ w.offers = v.offers ∧ w.readEOF = v.readEOF := by
  cases h with
  | bytes => exact ⟨rfl, .inl rfl, rfl, rfl⟩
  | copied _ _ hp hq => exact ⟨rfl, .inr ⟨_, _, _, hp, rfl, hq⟩, rfl, rfl⟩
  | failed => exact ⟨rfl, .inl rfl, rfl, rfl⟩
  | unread _ hp hq => exact ⟨rfl, .inr ⟨_, _, _, hp, rfl, hq⟩, rfl, rfl⟩

lemma taking_frame {c : Pbuf} {v w : View o} (h : Taking c v w) :
    life w = life v ∧ MaybeCredited v w ∧ w.offers = v.offers ++ [⟨c, true⟩] ∧
    w.readEOF = v.readEOF := by
  cases h with
  | dropped => exact ⟨rfl, .inl rfl, rfl, rfl⟩
  | delivered _ _ hd =>
    obtain ⟨h1, h2, h3, h4⟩ := delivery_frame hd
    refine ⟨h1, h2, ?_, h4⟩
    rw [h3]

lemma life_retaken {c : Pbuf} {v w : View o} {q : Pcb o} (b : Bool)
    (h : Taking c { v with pcb := some q } w) :
    life (if b then w.finTold else w) = life v := by
  have hw : life w = life v := (taking_frame h).1
  cases b
  · exact hw
  · exact hw

lemma refusedData_taking {c : Pbuf} {v w : View o} {p q : Pcb o} (h : Taking c v w)
    (hp : v.pcb = some p) (hq : w.pcb = some q) : q.rx.refusedData = p.rx.refusedData := by
  rcases (taking_frame h).2.1 with hsame | ⟨p', q', n, hp', hq', hcred⟩
  · cases hp.symm.trans (hsame.symm.trans hq)
    rfl
  · cases hp.symm.trans hp'
    cases hq.symm.trans hq'
    exact congrArg Inbox.refusedData hcred.inbox

lemma refusedData_correctFin (p : Pcb o) : (correctFin p).rx.refusedData = p.rx.refusedData := by
  unfold correctFin
  split_ifs <;> rfl

lemma refusedData_retaken {c : Pbuf} {v w : View o} {p q : Pcb o} {r : Option Refused} {b : Bool}
    (h : Taking c { v with pcb := some (setRefused r p) } w)
    (hq : (if b then w.finTold else w).pcb = some q) :
    q.rx.refusedData = r := by
  cases b with
  | false => exact refusedData_taking h rfl hq
  | true =>
    obtain ⟨q', hq', rfl⟩ := Option.map_eq_some_iff.1 (show w.pcb.map correctFin = some q from hq)
    exact (refusedData_correctFin q').trans (refusedData_taking h rfl hq')

/-! ### Along the stages of one event -/

lemma framed_start (s₀ : State o) : Framed s₀ (view s₀) :=
  ⟨rfl, fun _ => ⟨rfl, rfl, fun _ => rfl⟩, fun h h' => by
    have : living s₀ = true := h'
    rw [h] at this
    cases this⟩

lemma Framed.same {v w : View o} (h : Framed s₀ v) (hs : life w = life v) : Framed s₀ w := by
  simp only [life, Life.mk.injEq] at hs
  obtain ⟨h1, h2, h3, -, h5, h6, -⟩ := hs
  rcases h with ⟨g1, g2, g3⟩
  rw [← h6] at g1
  rw [← h1, ← h2, ← h3, ← h5] at g2
  rw [← h1, ← h3] at g3
  exact ⟨g1, g2, g3⟩

lemma framed_flow {ph ph' : Phase} {v w : View o} (h : Framed s₀ v)
    (hf : Flow s₀ e (ph, v) (ph', w)) : Framed s₀ w := by
  have hsame : ∀ (p : Option (Pcb o)) (q : List CBlock) (os : List Offer),
      Framed s₀ ({ v with pcb := p, queue := q, offers := os } : View o) :=
    fun p q os => h.same rfl
  cases hf with
  | worked => exact hsame _ _ _
  | hinted => exact hsame _ _ _
  | refusedAgain => exact hsame _ _ _
  | retaken _ _ _ _ _ ht => exact h.same (life_retaken _ ht)
  | ignored => exact h
  | received => exact hsame _ _ _
  | queued => exact hsame _ _ _
  | purged => exact hsame _ _ _
  | made _ _ hs₀ => exact ⟨h.malloc, fun hl => by simp [hs₀] at hl, fun _ _ => rfl⟩
  | orphaned _ _ hs₀ hv =>
    refine ⟨h.malloc, fun hl => by simp [hs₀] at hl, fun _ hl => ?_⟩
    simp [View.orphaned, hv] at hl
  | reopened => exact hsame _ _ _
  | taken _ ht => exact h.same (taking_frame ht).1
  | refused => exact hsame _ _ _
  | finMarked => exact hsame _ _ _
  | finTold => exact h.same rfl
  | settled => exact h
  | staleDropped => exact hsame _ _ _
  | doomed => exact h
  | @removed _ r =>
    cases hv : v.living with
    | false =>
      rw [ended_of_over r hv]
      exact hsame _ _ _
    | true =>
      simp only [View.ended, hv, if_true]
      refine ⟨h.malloc, fun hl => ?_, fun _ hl => by cases hl⟩
      obtain ⟨h1, h2, -⟩ := h.kept hl
      exact ⟨h1, h2, fun hl => by cases hl⟩

lemma Framed.gate {v : View o} (h : Framed s₀ v) (hr : v.ready = true) :
    living s₀ = true ∧ s₀.conn.recvEnabled = true ∧ s₀.conn.state = .active ∧
    v.handlers = s₀.conn.handlers ∧
      v.malloc = s₀.env.malloc := by
  simp only [View.ready, Bool.and_eq_true, decide_eq_true_eq] at hr
  obtain ⟨⟨⟨hv, hen⟩, hact⟩, -⟩ := hr
  cases hl : living s₀ with
  | false =>
    rw [h.made hl hv] at hen
    cases hen
  | true =>
    obtain ⟨h1, h2, h3⟩ := h.kept hl
    exact ⟨rfl, h2 ▸ hen, (h3 hv) ▸ hact, h1, h.malloc⟩

lemma since_start (s₀ : State o) : Since s₀ (view s₀) :=
  ⟨id, fun p hp => ⟨p, hp, rfl, rfl, rfl, fun h => ⟨le_rfl, h⟩, .inl rfl, fun _ => .inl rfl⟩⟩

lemma Later.credit {p₀ p q : Pcb o} {n : ℕ} (h : Later s₀ p₀ p) (hq : Credit n p q)
    (hn : ¬ Untouched s₀) : Later s₀ p₀ q := by
  have hin := hq.inbox
  refine ⟨(list_of_core hq.core).trans h.list, (congrArg Inbox.rcvNxt hin).trans h.nxt,
    (congrArg Inbox.ooseq hin).trans h.ooseq, fun hw => ?_, ?_, fun hu => absurd hu hn⟩
  · obtain ⟨h1, h2⟩ := h.wnd hw
    have := hq.wnd h2
    omega
  · rw [state_of_core hq.core]
    exact h.state

lemma Later.correctFin {p₀ p : Pcb o} (h : Later s₀ p₀ p) (hn : ¬ Untouched s₀) :
    Later s₀ p₀ (correctFin p) := by
  have hc := core_correctFin p
  refine ⟨(list_of_core hc).trans h.list, ?_, ?_,
    fun hw => ?_, by rw [state_of_core hc]; exact h.state, fun hu => absurd hu hn⟩
  · unfold Stack.correctFin
    split_ifs <;> exact h.nxt
  · unfold Stack.correctFin
    split_ifs <;> exact h.ooseq
  · obtain ⟨h1, h2⟩ := h.wnd hw
    have hmod := tcpWnd_lt_wndMod o
    unfold Stack.correctFin
    rw [Pcb.wndMax_eq]
    split_ifs with hne
    · have hlt : p.rx.rcvWnd + 1 < o.wndMod := by omega
      simp only [Nat.mod_eq_of_lt hlt]
      omega
    · exact ⟨h1, h2⟩

lemma touched_of_retaken {v w : View o} {p : Pcb o} {r : Refused} (hfr : Framed s₀ v)
    (hs : Since s₀ v) (hp : v.pcb = some p) (hr : p.rx.refusedData = some r)
    (ht : Taking (offerSplit o r.p).1
      { v with pcb := some (setRefused ((offerSplit o r.p).2.map fun q => ⟨q, r.fin⟩) p) } w) :
        ¬ Untouched s₀ := by
  -- refused data is not taken in an event that finds it untouchable
  intro hu
  obtain ⟨p₀, hp₀, hlater⟩ := hs.pcb p hp
  have href : refused s₀ = some r := by
    have hsame : p.rx.refusedData = p₀.rx.refusedData := by
      rcases hlater.held hu with rfl | ⟨-, hin⟩
      · rfl
      · exact congrArg Inbox.refusedData hin
    simp [Stack.refused, hp₀, ← hsame, hr]
  rcases hu with hnone | ⟨hl, hready, hlen⟩
  · rw [hnone] at href
    cases href
  · have hu : Untouched s₀ := .inr ⟨hl, hready, hlen⟩
    have hv := hs.life hl
    cases ht with
    | dropped h =>
      rcases h with h | h
      · have h' : v.living = false := h
        rw [hv] at h'
        cases h'
      · exact hlen r href h
    | delivered hr' _ _ =>
      rcases hlater.held hu with rfl | ⟨hdead, -⟩
      · have hopen := hr'
        simp only [View.ready, Bool.and_eq_true, decide_eq_true_eq, Option.any_some] at hopen
        obtain ⟨-, h2, h3⟩ := hfr.kept hl
        have hw : rcvLowWater p ≤ p.rx.rcvWnd := hopen.2
        have hready' : (view s₀).ready = true := by
          have hpv : (view s₀).pcb = some p := hp₀
          have hlv : (view s₀).living = true := hl
          have hen : (view s₀).recvEnabled = true := h2.symm.trans hopen.1.1.2
          have hac : (view s₀).state = .active := (h3 hv).symm.trans hopen.1.2
          simp [View.ready, hpv, hlv, hen, hac, hw]
        rw [hready] at hready'
        cases hready'
      · rw [hl] at hdead
        cases hdead

lemma since_flow {v w : View o} (hfr : Framed s₀ v) (h : Since s₀ v)
    (hf : Flow s₀ e (.arriving, v) (.arriving, w)) :
    Since s₀ w := by
  cases hf with
  | worked hph => exact absurd rfl hph
  | hinted => exact ⟨h.life, h.pcb⟩
  | refusedAgain => exact ⟨h.life, h.pcb⟩
  | @retaken _ _ w p r _ _ hp _ hr ht =>
    have hn := touched_of_retaken hfr h hp hr ht
    have hlife := life_retaken (r.fin && (offerSplit o r.p).2.isNone) ht
    refine ⟨fun hl => (congrArg Life.living hlife).trans (h.life hl), fun q hq => ?_⟩
    obtain ⟨p₀, hp₀, hlater⟩ := h.pcb p hp
    have hset : Later s₀ p₀ (setRefused ((offerSplit o r.p).2.map fun q => ⟨q, r.fin⟩) p) :=
      ⟨hlater.list, hlater.nxt, hlater.ooseq, hlater.wnd, hlater.state, fun hu => absurd hu hn⟩
    refine ⟨p₀, hp₀, ?_⟩
    have hw : ∀ q, w.pcb = some q → Later s₀ p₀ q := by
      intro q hq
      rcases (taking_frame ht).2.1 with hsame | ⟨p', q', n, hp', hq', hcred⟩
      · rw [hsame] at hq
        cases hq
        exact hset
      · cases hp'
        rw [hq'] at hq
        cases hq
        exact hset.credit hcred hn
    split_ifs at hq with hfin
    · simp only [View.finTold, Option.map_eq_some_iff] at hq
      obtain ⟨q', hq', rfl⟩ := hq
      exact (hw q' hq').correctFin hn
    · exact hw q hq
  | @made _ p q hp hf hs₀ hin hl hst =>
    refine ⟨fun _ => rfl, fun p' hp' => ?_⟩
    cases hp'
    obtain ⟨p₀, hp₀, hlater⟩ := h.pcb p hp
    refine ⟨p₀, hp₀, hl.trans hlater.list, (congrArg Inbox.rcvNxt hin).trans hlater.nxt,
      (congrArg Inbox.ooseq hin).trans hlater.ooseq, ?_, ?_, fun hu => .inr ⟨hs₀, hin.trans ?_⟩⟩
    · have hwnd : q.rx.rcvWnd = p.rx.rcvWnd := congrArg Inbox.rcvWnd hin
      rw [hwnd]
      exact hlater.wnd
    · rcases hlater.state with h1 | ⟨-, h2⟩
      · exact .inr ⟨h1 ▸ hf, hst⟩
      · rw [hf] at h2
        cases h2
    · rcases hlater.held hu with rfl | ⟨-, h2⟩
      · rfl
      · exact h2

/-! ### What a stage can change -/

def isDelivery : CBlock → Bool
  | .readEOF => true
  | b => isReadable b

def Fresh (v : View o) : Prop := ∃ p, v.pcb = some p ∧ p.state = .synRcvd

lemma taking_queue {c : Pbuf} {v w : View o} (h : Taking c v w) :
    ∃ bs, w.queue = v.queue ++ bs ∧ ∀ b ∈ bs, v.living = true ∧ isReadable b = true := by
  cases h with
  | dropped => exact ⟨[], by simp⟩
  | delivered hr _ hd =>
    have hl : v.living = true := by
      simp only [View.ready, Bool.and_eq_true] at hr
      exact hr.1.1.1
    cases hd with
    | bytes => exact ⟨_, rfl, by simp [hl, isReadable]⟩
    | copied => exact ⟨_, rfl, by simp [hl, isReadable]⟩
    | failed => exact ⟨[], by simp⟩
    | unread => exact ⟨[], by simp⟩

lemma finTold_queue (v : View o) :
    ∃ bs, v.finTold.queue = v.queue ++ bs ∧ ∀ b ∈ bs, v.living = true ∧ b = .readEOF := by
  refine ⟨_, rfl, fun b hb => ?_⟩
  split_ifs at hb with h
  · simp only [Bool.and_eq_true] at h
    exact ⟨h.1.1, by simpa using hb⟩
  · simp at hb

/-- Only hints have been posted, and deliveries of a living connection. -/
def Posts (v w : View o) : Prop :=
  ∃ bs, w.queue = v.queue ++ bs ∧ ∀ b ∈ bs, isHint b = true ∨
    (v.living = true ∧ isDelivery b = true)

lemma Posts.refl {v w : View o} (h : w.queue = v.queue) : Posts v w := ⟨[], by simp [h]⟩

lemma isDelivery_of_readable {b : CBlock} (h : isReadable b = true) : isDelivery b = true := by
  cases b <;> simp_all [isReadable, isDelivery]

lemma posts_taking {c : Pbuf} {v w : View o} (h : Taking c v w) : Posts v w := by
  obtain ⟨bs, hq, hb⟩ := taking_queue h
  exact ⟨bs, hq, fun b hm => .inr ⟨(hb b hm).1, isDelivery_of_readable (hb b hm).2⟩⟩

lemma posts_finTold (v : View o) : Posts v v.finTold := by
  obtain ⟨bs, hq, hb⟩ := finTold_queue v
  refine ⟨bs, hq, fun b hm => .inr ⟨(hb b hm).1, ?_⟩⟩
  rw [(hb b hm).2]
  rfl

lemma Posts.trans {u v w : View o} (h : Posts u v) (h' : Posts v w) (hl : v.living = u.living) :
    Posts u w := by
  obtain ⟨bs, hq, hb⟩ := h
  obtain ⟨cs, hq', hc⟩ := h'
  rw [hl] at hc
  refine ⟨bs ++ cs, by rw [hq', hq, List.append_assoc], fun b hm => ?_⟩
  rcases List.mem_append.1 hm with hm | hm
  · exact hb b hm
  · exact hc b hm

/-- A stage leaves the connection's life alone, makes the connection, drops it again for want of a
delegate, or ends it. -/
lemma flow_life {ph ph' : Phase} {v w : View o} (hf : Flow s₀ e (ph, v) (ph', w)) :
    (life w = life v ∧ Posts v w) ∨
    (ph = .arriving ∧ Fresh v ∧ living s₀ = false ∧ ∃ q, w = v.begun q) ∨
    (ph = .arriving ∧ Fresh v ∧ v.living = false ∧ s₀.env.delegate = false ∧ w = v.orphaned) ∨
    (∃ r, ph = .ending r ∧ v.living = true ∧ w = { v.ended r with pcb := none }) := by
  cases hf with
  | hinted hb => exact .inl ⟨rfl, [_], rfl, by simp [hb]⟩
  | @retaken _ _ w p r _ _ _ _ _ ht =>
    refine .inl ⟨life_retaken _ ht, ?_⟩
    have hw : Posts v w := (posts_taking ht :)
    split_ifs
    · exact hw.trans (posts_finTold w) (congrArg Life.living (taking_frame ht).1)
    · exact hw
  | made hp hf hs₀ => exact .inr (.inl ⟨rfl, ⟨_, hp, hf⟩, hs₀, _, rfl⟩)
  | orphaned hp hf _ hv hd => exact .inr (.inr (.inl ⟨rfl, ⟨_, hp, hf⟩, hv, hd, rfl⟩))
  | taken _ ht => exact .inl ⟨(taking_frame ht).1, posts_taking ht⟩
  | finTold => exact .inl ⟨rfl, posts_finTold v⟩
  | @removed _ r =>
    cases hl : v.living with
    | false =>
      rw [ended_of_over r hl]
      exact .inl ⟨rfl, .refl rfl⟩
    | true => exact .inr (.inr (.inr ⟨r, rfl, rfl, rfl⟩))
  | _ => exact .inl ⟨rfl, .refl rfl⟩

lemma fresh_taking {c : Pbuf} {v w : View o} (h : Taking c v w) (hw : Fresh w) : Fresh v := by
  obtain ⟨q, hq, hs⟩ := hw
  rcases (taking_frame h).2.1 with hsame | ⟨p', q', n, hp', hq', hcred⟩
  · exact ⟨q, hsame ▸ hq, hs⟩
  · rw [hq'] at hq
    cases hq
    exact ⟨p', hp', (state_of_core hcred.core) ▸ hs⟩

lemma fresh_finTold {v : View o} (hw : Fresh v.finTold) : Fresh v := by
  obtain ⟨q, hq, hs⟩ := hw
  simp only [View.finTold, Option.map_eq_some_iff] at hq
  obtain ⟨p, hp, rfl⟩ := hq
  exact ⟨p, hp, (state_of_core (core_correctFin p)) ▸ hs⟩

lemma flow_fresh {ph ph' : Phase} {v w : View o} (hf : Flow s₀ e (ph, v) (ph', w)) (hw : Fresh w) :
    Fresh v := by
  have hset : ∀ {p q : Pcb o}, Fresh ({ v with pcb := some q } : View o) → v.pcb = some p →
      (q.state = .synRcvd → p.state = .synRcvd) → Fresh v := by
    rintro p q ⟨q', hq', hst⟩ hp hs
    cases hq'
    exact ⟨p, hp, hs hst⟩
  cases hf with
  | worked _ hp _ _ hs => exact hset hw hp hs
  | hinted => exact hw
  | refusedAgain => exact hw
  | @retaken _ _ w p r _ _ hp _ _ ht =>
    have hu : Fresh w := by
      split_ifs at hw
      · exact fresh_finTold hw
      · exact hw
    exact hset (fresh_taking ht hu) hp id
  | ignored => exact hw
  | received _ hp _ _ _ hs => exact hset hw hp fun h => absurd h hs
  | queued _ hp _ _ hs => exact hset hw hp fun h => absurd h hs
  | purged _ hp _ _ _ hs => exact hset hw hp fun h => absurd h hs
  | made hp hf => exact ⟨_, hp, hf⟩
  | orphaned hp hf => exact ⟨_, hp, hf⟩
  | reopened hp hf => exact ⟨_, hp, hf⟩
  | taken _ ht => exact fresh_taking ht hw
  | refused hp =>
    obtain ⟨q', hq', hst⟩ := hw
    cases hq'
    exact ⟨_, hp, hst⟩
  | finMarked hp => exact hset hw hp id
  | finTold => exact fresh_finTold hw
  | settled => exact hw
  | staleDropped hp _ _ hs => exact hset hw hp hs
  | doomed => exact hw
  | removed =>
    obtain ⟨q', hq', -⟩ := hw
    cases hq'

lemma appFlow_fresh {a : AppEvent} {w : View o} (hf : AppFlow s a w) (hw : Fresh w) :
    Fresh (view s) := by
  obtain ⟨q', hq', hst⟩ := hw
  cases hf with
  | worked hp _ _ hs =>
    cases hq'
    exact ⟨_, hp, hs hst⟩
  | activated hp _ _ hs =>
    cases hq'
    exact ⟨_, hp, hs hst⟩
  | acknowledged hp hq =>
    cases hq'
    exact ⟨_, hp, (state_of_core hq.core) ▸ hst⟩
  | closed _ _ _ _ hs =>
    cases hq'
    exact absurd hst hs
  | discarded => cases hq'
  | aborted => cases hq'
  | _ => exact ⟨q', hq', hst⟩

/-- What is known at a stage of an event that found the stack in `s₀`. -/
structure Within (s₀ : State o) (e : Event) (ph : Phase) (v : View o) : Prop where
  framed : Framed s₀ v
  since : ph = .arriving → start e = .arriving ∧ Since s₀ v
  hand : ∀ data fin, ph = .hand data fin → start e = .arriving
  fresh : Fresh v → ∃ p₀, s₀.pcb = some p₀ ∧ p₀.state = .synRcvd
  born : living s₀ = false → v.living = true → start e = .arriving ∧ ∃ p₀, s₀.pcb = some p₀ ∧
    p₀.state = .synRcvd

lemma within_start (s₀ : State o) (e : Event) : Within s₀ e (start e) (view s₀) := by
  refine ⟨framed_start s₀, fun h => ⟨h, since_start s₀⟩, fun data fin h => ?_, id, fun h h' => ?_⟩
  · cases e <;> cases h
  · simp [view, h] at h'

lemma within_flow {ph ph' : Phase} {v w : View o} (h : Within s₀ e ph v)
    (hf : Flow s₀ e (ph, v) (ph', w)) :
    Within s₀ e ph' w := by
  refine ⟨framed_flow h.framed hf, fun hph => ?_, fun data fin hph => ?_,
    fun hw => h.fresh (flow_fresh hf hw), fun hl hw => ?_⟩
  · subst hph
    -- only a segment that has not been looked at can still be waiting to be
    have hfrom : ph = .arriving := by
      cases hf <;> rfl
    subst hfrom
    exact ⟨(h.since rfl).1, since_flow h.framed (h.since rfl).2 hf⟩
  · subst hph
    have hfrom : ph = .arriving ∨ ∃ data fin, ph = .hand data fin := by
      cases hf <;> simp
    rcases hfrom with rfl | ⟨data, fin, rfl⟩
    · exact (h.since rfl).1
    · exact h.hand data fin rfl
  · rcases flow_life hf with ⟨hsame, -⟩ | ⟨rfl, hfresh, -, -⟩ | ⟨-, -, hv, -, rfl⟩ | ⟨r, -, hv, rfl⟩
    · exact h.born hl ((congrArg Life.living hsame).symm.trans hw)
    · exact ⟨(h.since rfl).1, h.fresh hfresh⟩
    · exact absurd (hv.symm.trans hw) (by simp)
    · simp [View.ended, hv] at hw

/-- What every stage keeps, every event of lwIP keeps. -/
theorem keeps_event {I : Phase → View o → Prop} (h : Sound s) (he : ∀ a, e ≠ .app a)
    (h₀ : I (start e) (view s)) (hstep : ∀ {ph v ph' w}, Within s e ph v → I ph v →
      Flow s e (ph, v) (ph', w) → I ph' w) :
    I .rest (view (step s e)) := by
  have hall : ∀ x, Path s e (start e, view s) x → I x.1 x.2 ∧ Within s e x.1 x.2 := by
    intro x hx
    induction hx with
    | refl => exact ⟨h₀, within_start s e⟩
    | tail _ hxy ih => exact ⟨hstep ih.2 ih.1 hxy, within_flow ih.2 hxy⟩
  exact (hall _ (path_step h he)).1

end TunForge.InboundRule
