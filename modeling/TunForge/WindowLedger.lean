import TunForge.OrderlyClose
import TunForge.ReceiveBuffer

/-! The receive window as an account: what is missing from its maximum is with the connection
or held back by the pcb. -/
namespace TunForge.WindowLedger
open SerialNumber PbufChain LwipTypes TcpOut TcpIn Tcp Connection Callbacks Stack StackRuns
open Boundary Termination OrdinarySteps BoundaryRule PcbFrames CalmSteps InputCases Refinement
  WellFormed
open ReceiveSteps Inflow InflowSteps InflowEvents InflowRuns InflowCalls InboundRule Reassembly
  ReceiveBuffer OrderlyClose

variable {o : Platform} {s s₀ : State o} {e : Event} {p q : Pcb o} {exact : Prop}

/-- A payload that gets past the gate finds memory and a handler. -/
def Served (s : State o) (e : Event) : Prop :=
  retries e = true → living s = true → s.conn.recvEnabled = true → s.conn.state = .active →
    s.env.malloc = true ∧ (s.conn.handlers.onReadableBytes = true ∨
      s.conn.handlers.onReadable = true)

instance (s : State o) (e : Event) : Decidable (Served s e) := inferInstanceAs (Decidable (_ → _))

/-- No refused data is purged with the move from CLOSING to TIME-WAIT. -/
def Unpurged (s : State o) : Event → Prop :=
  AtSegment fun seg => ∀ p ∈ s.pcb, p.state = .closing → acksAllSent p seg = true →
    p.rx.refusedData = none

instance (s : State o) (e : Event) : Decidable (Unpurged s e) :=
  inferInstanceAs (Decidable (AtSegment _ e))

def counter (s : State o) : ℕ := if living s then s.conn.inflightAckBytes else 0

/-- One event cannot take the counter past its range. -/
def NoWrap (s : State o) : Prop := counter s + 2 ^ 17 ≤ 2 ^ 64

instance (s : State o) : Decidable (NoWrap s) := inferInstanceAs (Decidable (_ ≤ _))

/-- The account of a pcb with `k` bytes in flight and `x` numbers on their way. It is settled to
the byte if `exact` is asked for, and otherwise covers at least what the window lacks as long as
the pcb is active or has something to pass on. -/
structure Account (exact : Prop) (limit k x : ℕ) (p : Pcb o) : Prop where
  lower : exact ∨ p.list = .active ∨ 0 < heldBack p + x →
    o.tcpWnd ≤ p.rx.rcvWnd + k + heldBack p + x
  upper : exact → p.rx.rcvWnd + k + heldBack p + x ≤ o.tcpWnd
  bound : k + heldBack p + x ≤ limit

def limit (s₀ : State o) : Phase → ℕ
  | .arriving => counter s₀ + o.tcpWnd
  | _ => counter s₀ + 2 * o.tcpWnd

structure Ledger (exact : Prop) (s₀ : State o) (ph : Phase) (v : View o) : Prop where
  account : v.living = true → ∀ p, v.pcb = some p →
    Account exact (limit s₀ ph) v.inflight (load ph) p
  books : exact → v.living = true → v.handed = v.inflight + v.credited
  unopened : Fresh v → v.handed = v.credited

/-! ### Single operations -/

variable {l k x : ℕ}

lemma Account.leave {l' x' : ℕ} (h : Account exact l k x p) (hl : p.list = .active)
    (hsum : q.rx.rcvWnd + heldBack q + x' = p.rx.rcvWnd + heldBack p + x)
    (hb : k + heldBack q + x' ≤ l') :
    Account exact l' k x' q := by
  refine ⟨fun _ => ?_, fun hex => ?_, hb⟩
  · have := h.lower (.inr (.inl hl))
    omega
  · have := h.upper hex
    omega

lemma Account.move {x' : ℕ} (h : Account exact l k x p) (hl : q.list = p.list)
    (hw : q.rx.rcvWnd = p.rx.rcvWnd) (hsum : heldBack q + x' = heldBack p + x) :
    Account exact l k x' q := by
  have hbound := h.bound
  refine ⟨fun hor => ?_, fun hex => ?_, by omega⟩
  · have := h.lower (by rwa [hl, hsum] at hor)
    omega
  · have := h.upper hex
    omega

lemma Account.same (h : Account exact l k x p) (hin : inbox q = inbox p) (hl : q.list = p.list) :
    Account exact l k x q := by
  have hh := heldBack_congr (congrArg Inbox.refusedData hin)
  exact h.move hl (congrArg Inbox.rcvWnd hin) (by omega)

lemma Account.credit {n d : ℕ} (h : Account exact l (k + d) x p) (hw : p.rx.rcvWnd ≤ o.tcpWnd)
    (hq : Credit n p q) (hd : d ≤ n) (hx : exact → n = d) : Account exact l k x q := by
  have hwnd := hq.wnd hw
  have hh : heldBack q = heldBack p := heldBack_congr (congrArg Inbox.refusedData hq.inbox)
  have hl := list_of_core hq.core
  have hbound := h.bound
  refine ⟨fun hor => ?_, fun hex => ?_, ?_⟩
  · have := h.lower (hh ▸ hl ▸ hor)
    omega
  · have := h.upper hex
    have := hx hex
    omega
  · omega

lemma Account.correctFin (h : Account exact l k (x + 1) p) (hw : p.rx.rcvWnd ≤ o.tcpWnd) :
    Account exact l k x (correctFin p) := by
  have hwnd := rcvWnd_correctFin hw
  have hh := heldBack_congr (refusedData_correctFin p)
  have hl := list_of_core (core_correctFin p)
  have hbound := h.bound
  refine ⟨fun hor => ?_, fun hex => ?_, ?_⟩
  · have := h.lower (hor.imp_right (Or.imp (fun hact => hl ▸ hact) fun _ => by omega))
    omega
  · have := h.upper hex
    omega
  · omega

lemma account_delivery {c : Pbuf} {v w : View o} (hd : Delivery c v w) (hp : v.pcb = some p)
    (hq : w.pcb = some q) (hc : c.size ≤ o.tcpWnd) (hw : p.rx.rcvWnd ≤ o.tcpWnd) (hl : l < 2 ^ 64)
    (hserved : exact → v.handlers.onReadableBytes = true ∨ v.handlers.onReadable = true)
    (h : Account exact l v.inflight (c.size + x) p) : Account exact l w.inflight x q := by
  -- a payload is taken: it goes on the counter, or back to the window
  have hmax := tcpWnd_le o
  have hbound := h.bound
  have htot : c.totLen = c.size := Pbuf.totLen_eq (by omega)
  have hcount : counted c v = v.inflight + c.size := by
    unfold counted
    rw [htot, Nat.mod_eq_of_lt (by omega)]
  have hmoved : Account exact l (v.inflight + c.size) x p :=
    ⟨fun hor => (by have := h.lower (hor.imp_right (Or.imp_right fun _ => by omega)); omega),
      fun hex => (by have := h.upper hex; omega), by omega⟩
  cases hd with
  | bytes =>
    cases hp.symm.trans hq
    rw [hcount]
    exact hmoved
  | copied _ _ hp' hcred =>
    cases hp.symm.trans hp'
    cases hq
    rw [hcount, htot, Nat.min_eq_left (Nat.le_add_left _ _)] at hcred ⊢
    rw [Nat.add_sub_cancel]
    exact hmoved.credit hw hcred le_rfl fun _ => rfl
  | failed =>
    cases hp.symm.trans hq
    rw [hcount]
    exact hmoved
  | unread hh hp' hcred =>
    cases hp.symm.trans hp'
    cases hq
    rw [hcount]
    refine Account.credit (d := 0) hmoved hw hcred (Nat.zero_le _) fun hex => ?_
    rcases hserved hex with hset | hset
    · rw [hh.1] at hset
      cases hset
    · rw [hh.2] at hset
      cases hset

lemma account_taking {c : Pbuf} {v w : View o} (ht : Taking c v w) (hv : v.living = true)
    (hp : v.pcb = some p) (hq : w.pcb = some q) (hc : c.size ≤ o.tcpWnd)
    (hw : p.rx.rcvWnd ≤ o.tcpWnd) (hl : l < 2 ^ 64)
    (hserved : v.ready = true → exact → v.handlers.onReadableBytes = true ∨
      v.handlers.onReadable = true)
    (h : Account exact l v.inflight (c.size + x) p) : Account exact l w.inflight x q := by
  cases ht with
  | dropped hno =>
    have hmax := tcpWnd_le o
    have hzero : c.size = 0 := by
      rcases hno with hno | hno
      · rw [hv] at hno
        cases hno
      · rwa [Pbuf.totLen_eq (by omega)] at hno
    cases hp.symm.trans hq
    rwa [hzero, Nat.zero_add] at h
  | @delivered w hr _ hd =>
    have hq' : w.pcb = some q := hq
    have hdone := account_delivery hd hp hq' hc hw hl (hserved hr) h
    exact hdone

lemma books_taking {c : Pbuf} {v w : View o} (ht : Taking c v w) (hc : c.size < 2 ^ 16)
    (hwrap : v.inflight + c.size < 2 ^ 64)
    (hserved : v.ready = true → v.malloc = true ∧
      (v.handlers.onReadableBytes = true ∨ v.handlers.onReadable = true))
    (h : v.handed = v.inflight + v.credited) : w.handed = w.inflight + w.credited := by
  -- what is handed to a handler is in flight or credited
  have htot : c.totLen = c.size := Pbuf.totLen_eq hc
  have hcount : counted c v = v.inflight + c.size := by
    unfold counted
    rw [htot, Nat.mod_eq_of_lt hwrap]
  cases ht with
  | dropped => exact h
  | delivered hr _ hd =>
    obtain ⟨hmem, hset⟩ := hserved hr
    cases hd with
    | bytes =>
      dsimp only
      omega
    | copied =>
      dsimp only
      omega
    | failed hm =>
      rw [hmem] at hm
      cases hm
    | unread hh =>
      rcases hset with hset | hset
      · rw [hh.1] at hset
        cases hset
      · rw [hh.2] at hset
        cases hset

/-! ### One event -/

lemma served_ready {v : View o} (hok : Served s e) (he : retries e = true) (hfr : Framed s v)
    (hr : v.ready = true) :
    v.malloc = true ∧ (v.handlers.onReadableBytes = true ∨ v.handlers.onReadable = true) := by
  obtain ⟨h1, h2, h3, h4, h5⟩ := hfr.gate hr
  rw [h4, h5]
  exact hok he h1 h2 h3

lemma limit_lt (ph : Phase) (h : NoWrap s) : limit s ph < 2 ^ 64 := by
  have hmax := tcpWnd_le o
  unfold NoWrap at h
  cases ph <;> simp only [limit] <;> omega

lemma limit_le {ph ph' : Phase} (h : ph' ≠ .arriving) : limit s ph ≤ limit s ph' := by
  cases ph <;> cases ph' <;> simp only [limit] <;> first | omega | exact absurd rfl h

lemma retries_of_start (h : start e = .arriving) : retries e = true := by
  cases e <;> first | rfl | cases h

lemma Account.next {ph : Phase} (h : Account exact (limit s ph) k x p) (ph' : Phase)
    (hph : ph' ≠ .arriving) :
    Account exact (limit s ph') k x p := ⟨h.lower, h.upper, h.bound.trans (limit_le hph)⟩

lemma load_start (e : Event) : load (start e) = 0 := by cases e <;> rfl

lemma Ledger.put {ph ph' : Phase} {v : View o} {os : List Offer} (h : Ledger exact s ph v)
    (hacc : v.living = true → Account exact (limit s ph') v.inflight (load ph') q)
    (hfr : Fresh ({ v with pcb := some q, offers := os } : View o) → Fresh v) :
    Ledger exact s ph' { v with pcb := some q, offers := os } := by
  refine ⟨fun hv p' hp' => ?_, h.books, fun hfw => h.unopened (hfr hfw)⟩
  cases hp'
  exact hacc hv

lemma Ledger.next {ph ph' : Phase} {v : View o} (h : Ledger exact s ph v) (hph : ph' ≠ .arriving)
    (hload : v.living = true → load ph = load ph') : Ledger exact s ph' v :=
  ⟨fun hv p hp => hload hv ▸ (h.account hv p hp).next ph' hph, h.books, h.unopened⟩

lemma ledger_retaken {ph : Phase} {v w : View o} {r : Refused} (hw : NoWrap s)
    (hok : exact → Served s e) (hwi : Within s e ph v) (hst : Stocked s ph v)
    (h : Ledger exact s ph v) (hph : ph = start e) (he : retries e = true) (hp : v.pcb = some p)
    (hr : p.rx.refusedData = some r)
    (ht : Taking r.p { v with pcb := some (setRefused none p) } w) :
    Ledger exact s ph (if r.fin then w.finTold else w) := by
  have hsto := hst.stored p hp
  have hmax := tcpWnd_le o
  have hsize := hsto.refused_le hr
  have hlife := (taking_frame ht).1
  have hliving : w.living = v.living := congrArg Life.living hlife
  have hready : exact → ({ v with pcb := some (setRefused none p) } : View o).ready = true →
      v.malloc = true ∧
      (v.handlers.onReadableBytes = true ∨ v.handlers.onReadable = true) :=
    fun hex hr => served_ready (v := { v with pcb := some (setRefused none p) }) (hok hex) he
      (hwi.framed.same rfl) hr
  have hacc : v.living = true → ∀ q, w.pcb = some q →
      Account exact (limit s ph) w.inflight r.fin.toNat q ∧
      q.rx.rcvWnd ≤ o.tcpWnd := by
    intro hv q hq
    have hmoved : Account exact (limit s ph) v.inflight (r.p.size + r.fin.toNat)
        (setRefused none p) := by
      have hold := h.account hv p hp
      refine hold.move rfl rfl ?_
      rw [heldBack_of_none (p := setRefused none p) rfl, heldBack_of_some hr, hph, load_start]
      omega
    refine ⟨account_taking ht hv rfl hq hsize hsto.boxed.wnd (limit_lt _ hw)
      (fun hr hex => (hready hex hr).2) hmoved, ?_⟩
    exact (stored_taking ph ht (fun q hq => by cases hq; exact hsto.release) q hq).boxed.wnd
  have hbooks : exact → v.living = true → w.handed = w.inflight + w.credited := by
    intro hex hv
    have hbound := (h.account hv p hp).bound
    have hlim := limit_lt ph hw
    rw [heldBack_of_some hr] at hbound
    exact books_taking ht (by omega) (by dsimp only; omega) (hready hex) (h.books hex hv)
  have hnot : ¬ Fresh w := by
    intro hfw
    obtain ⟨p', hp', hs⟩ := fresh_taking ht hfw
    cases hp'
    have hnone := (hsto.fresh hs).2
    rw [hr] at hnone
    cases hnone
  cases hfin : r.fin with
  | false =>
    refine ⟨fun hv q hq => ?_, fun hex hv => hbooks hex (hliving ▸ hv), fun hfw => absurd hfw hnot⟩
    have hq' := (hacc (hliving ▸ hv) q hq).1
    rw [hfin] at hq'
    rw [hph, load_start] at *
    exact hq'
  | true =>
    refine ⟨fun hv q hq => ?_, fun hex hv => hbooks hex (hliving ▸ hv),
      fun hfw => absurd (fresh_finTold hfw) hnot⟩
    obtain ⟨q', hq', rfl⟩ := Option.map_eq_some_iff.1 (show w.pcb.map correctFin = some q from hq)
    obtain ⟨hacc', hmax'⟩ := hacc (hliving ▸ hv) q' hq'
    rw [hfin] at hacc'
    rw [hph, load_start] at *
    exact Account.correctFin (x := 0) hacc' hmax'

lemma ledger_taken {v w : View o} {c : Pbuf} {fin : Bool} (hw : NoWrap s) (hok : exact → Served s e)
    (hwi : Within s e (.hand (some c) fin) v) (hst : Stocked s (.hand (some c) fin) v)
    (h : Ledger exact s (.hand (some c) fin) v) (hp : v.pcb = some p) (ht : Taking c v w) :
    Ledger exact s (.hand none fin) w := by
  have hsto := hst.stored p hp
  have hmax := tcpWnd_le o
  have hsize := hsto.size_le
  have hliving : w.living = v.living := congrArg Life.living (taking_frame ht).1
  have hready : exact → v.ready = true → v.malloc = true ∧
      (v.handlers.onReadableBytes = true ∨ v.handlers.onReadable = true) :=
    fun hex hr => served_ready (hok hex) (retries_of_start (hwi.hand _ _ rfl)) hwi.framed hr
  refine ⟨fun hv q hq => ?_, fun hex hv => ?_, fun hfw => ?_⟩
  · have hv' : v.living = true := hliving ▸ hv
    have hold := h.account hv' p hp
    have hload : load (.hand (some c) fin) = c.size + load (.hand none fin) := by
      simp [load, dataSize]
    rw [hload] at hold
    exact account_taking ht hv' hp hq hsize hsto.boxed.wnd (limit_lt _ hw)
      (fun hr hex => (hready hex hr).2)
      ⟨hold.lower, hold.upper, hold.bound⟩
  · have hv' : v.living = true := hliving ▸ hv
    have hbound := (h.account hv' p hp).bound
    have hlim := limit_lt (.hand (some c) fin) hw
    simp only [load, dataSize, Option.elim] at hbound
    exact books_taking ht (by omega) (by omega) (hready hex) (h.books hex hv')
  · obtain ⟨p', hp', hs⟩ := fresh_taking ht hfw
    exact absurd hs ((hst.stored p' hp').past _ _ rfl)

lemma ledger_flow {ph ph' : Phase} {v w : View o} (hw : NoWrap s)
    (hok : exact → Served s e ∧ Unpurged s e) (ho : KeepsOrder s e) (hwi : Within s e ph v)
    (hst : Stocked s ph v) (h : Ledger exact s ph v) (hf : Flow s e (ph, v) (ph', w)) :
    Ledger exact s ph' w := by
  have hfresh := flow_fresh hf
  cases hf with
  | worked hph hp hin hl => exact h.put (fun hv => (h.account hv _ hp).same hin hl) hfresh
  | hinted => exact ⟨h.account, h.books, fun hfw => h.unopened (hfresh hfw)⟩
  | refusedAgain => exact ⟨h.account, h.books, fun hfw => h.unopened (hfresh hfw)⟩
  | retaken hph he hp hl hr ht =>
    rw [offerSplit_small ((hst.stored _ hp).refused_le hr)] at ht ⊢
    have hdone := ledger_retaken hw (fun hex => (hok hex).1) hwi hst h hph he hp hr ht
    simpa using hdone
  | ignored => exact h.next (by simp) fun _ => rfl
  | received he hp hl hr hseq hs hplace =>
    subst he
    have hin := hplace.imp And.right fun x => x.2.2.2
    obtain ⟨-, hnone, hwnd, -⟩ := stored_received ho hwi hst hp hl hr hseq hs hin
    refine h.put (fun hv => (h.account hv _ hp).leave hl ?_ ?_) hfresh
    · rw [heldBack_of_none hnone, heldBack_of_none hr]
      simp only [load]
      omega
    · have hbound := (h.account hv _ hp).bound
      have hmax : _ ≤ o.tcpWnd := (hst.stored _ hp).boxed.wnd
      rw [heldBack_of_none hr] at hbound
      rw [heldBack_of_none hnone]
      simp only [load, limit, inbox] at hbound hmax ⊢
      omega
  | @queued _ _ p q _ _ hp hl _ _ hl' hin =>
    have hheld := heldBack_congr (congrArg Inbox.refusedData hin)
    refine h.put (fun hv => ?_) hfresh
    have hacc := (h.account hv p hp).next .rest (by simp)
    exact hacc.move (hl'.trans hl.symm) (congrArg Inbox.rcvWnd hin) (by simp only [load]; omega)
  | @purged _ seg p q he hp hl hcl hack _ hl' hin =>
    have hwnd : q.rx.rcvWnd = p.rx.rcvWnd := congrArg Inbox.rcvWnd hin
    have hzero := heldBack_of_none (p := q) (congrArg Inbox.refusedData hin)
    -- to the byte only where nothing is purged; otherwise the pcb has left the active list
    have hclean : exact → heldBack p = 0 := by
      intro hex
      have hun := (hok hex).2
      rw [he] at hun
      rcases hst.unmoved rfl p hp with hnone | hp₀
      · exact heldBack_of_none hnone
      · exact heldBack_of_none (hun p hp₀ hcl hack)
    refine h.put (fun hv => ?_) hfresh
    have hacc := (h.account hv p hp).next .rest (by simp)
    have hbound := hacc.bound
    simp only [load] at hacc hbound ⊢
    refine ⟨fun hor => ?_, fun hex => ?_, by omega⟩
    · rcases hor with hex | hact | hsome
      · have := hacc.lower (.inl hex)
        have := hclean hex
        omega
      · rw [hl'] at hact
        cases hact
      · omega
    · have := hacc.upper hex
      omega
  | @made _ p q hp hf _ hin _ =>
    obtain ⟨hfull, hnone⟩ := (hst.stored p hp).fresh hf
    have hwnd : q.rx.rcvWnd = p.rx.rcvWnd := congrArg Inbox.rcvWnd hin
    have hzero := heldBack_of_none (p := q) ((congrArg Inbox.refusedData hin).trans hnone)
    refine ⟨fun _ p' hp' => ?_, fun _ _ => ?_, fun hfw => h.unopened (hfresh hfw)⟩
    · cases hp'
      simp only [load, View.begun]
      exact ⟨fun _ => (by omega), fun _ => (by omega), by omega⟩
    · have := h.unopened ⟨p, hp, hf⟩
      simpa [View.begun] using this
  | orphaned _ _ _ hv =>
    refine ⟨fun hl => ?_, fun _ hl => ?_, fun hfw => h.unopened (hfresh hfw)⟩
    · simp [View.orphaned, hv] at hl
    · simp [View.orphaned, hv] at hl
  | @reopened _ p q x hp hf hin hx hl =>
    have hfull := ((hst.stored p hp).fresh hf).1
    have hwnd : q.rx.rcvWnd = x := congrArg Inbox.rcvWnd hin
    have hheld := heldBack_congr (congrArg Inbox.refusedData hin)
    refine h.put (fun hv => ?_) hfresh
    have hacc := (h.account hv p hp).next .rest (by simp)
    exact hacc.move hl (by omega) (by simp only [load]; omega)
  | taken hp ht =>
    rw [offerSplit_small (hst.stored _ hp).size_le] at ht ⊢
    exact ledger_taken hw (fun hex => (hok hex).1) hwi hst h hp ht
  | @refused _ c fin p hp =>
    have hzero := heldBack_of_none ((hst.stored p hp).free c fin rfl)
    have hheld := heldBack_of_some (p := setRefused (some ⟨c, false⟩) p) rfl
    simp only [Bool.toNat_false, Nat.add_zero] at hheld
    refine h.put (fun hv => ?_) hfresh
    have hacc := (h.account hv p hp).next (.hand none fin) (by simp)
    simp only [load, dataSize, Option.elim] at hacc ⊢
    exact hacc.move rfl rfl (by omega)
  | @finMarked _ p r hp hr =>
    have hclear := (hst.stored p hp).unmarked _ _ rfl hr
    have hold := heldBack_of_some hr
    have hnew := heldBack_of_some (p := setRefused (some { r with fin := true }) p) rfl
    rw [hclear] at hold
    simp only [Bool.toNat_false, Bool.toNat_true, Nat.add_zero] at hold hnew
    refine h.put (fun hv => ?_) hfresh
    have hacc := (h.account hv p hp).next .rest (by simp)
    simp only [load, dataSize, Option.elim, Bool.toNat_true] at hacc ⊢
    exact hacc.move rfl rfl (by omega)
  | @finTold _ p hp _ =>
    refine ⟨fun hv q hq => ?_, h.books, fun hfw => h.unopened (hfresh hfw)⟩
    obtain ⟨p', hp', rfl⟩ := Option.map_eq_some_iff.1 hq
    have hacc := (h.account hv p' hp').next .rest (by simp)
    exact Account.correctFin (x := 0) hacc (hst.stored p' hp').boxed.wnd
  | settled => exact h.next (by simp) fun _ => rfl
  | @staleDropped _ p q hp hin hl =>
    have hheld := heldBack_congr (congrArg Inbox.refusedData hin)
    refine h.put (fun hv => ?_) hfresh
    exact (h.account hv p hp).move hl (congrArg Inbox.rcvWnd hin) (by omega)
  | doomed hph =>
    refine h.next (by simp) fun hv => ?_
    rcases hph with rfl | hph
    · exact load_start e
    · rw [hv] at hph
      cases hph
  | @removed _ r =>
    have hover : (v.ended r).living = false := living_ended r v
    refine ⟨fun _ p hp => (by cases hp), fun _ hv => ?_, fun hfw => ?_⟩
    · have hv' : (v.ended r).living = true := hv
      rw [hover] at hv'
      cases hv'
    · obtain ⟨p, hp, -⟩ := hfw
      cases hp

/-! ### Whole events -/

lemma ledger_begin (h : Ledger exact s₀ .rest (view s)) (hst : ∀ p, s.pcb = some p → Stored .rest p)
    (e : Event) :
    Ledger exact s (start e) (view s) := by
  refine ⟨fun hv p hp => ?_, h.books, h.unopened⟩
  have hacc := h.account hv p hp
  have hfits := (hst p hp).fits
  have hcount : counter s = s.conn.inflightAckBytes := if_pos hv
  refine ⟨?_, ?_, ?_⟩
  · rw [load_start]
    exact hacc.lower
  · rw [load_start]
    exact hacc.upper
  · have hlim : counter s + o.tcpWnd ≤ limit s (start e) := by
      cases e <;> simp only [start, limit] <;> omega
    rw [load_start]
    simp only [load, view] at hfits ⊢
    omega

lemma totals_ended (r : Reason) (v : View o) :
    (v.ended r).handed = v.handed ∧ (v.ended r).credited = v.credited := by
  cases hv : v.living with
  | false =>
    rw [ended_of_over r hv]
    exact ⟨rfl, rfl⟩
  | true => simp [View.ended, hv]

lemma ledger_app {a : AppEvent} {w : View o} (hw : Wf s) (hwrap : NoWrap s)
    (hst : ∀ p, s.pcb = some p → Stored .rest p) (h : Ledger exact s .rest (view s))
    (hf : AppFlow s a w) :
    Ledger exact s .rest w := by
  have hfresh := appFlow_fresh hf
  have hover : ∀ {w : View o}, w.living = false → w.handed = s.log.handed ∧
      w.credited = s.log.credited →
      (Fresh w → Fresh (view s)) → Ledger exact s .rest w := by
    intro w hv htot hfr
    refine ⟨fun hl => ?_, fun _ hl => ?_, fun hfw => ?_⟩
    · rw [hv] at hl
      cases hl
    · rw [hv] at hl
      cases hl
    · rw [htot.1, htot.2]
      exact h.unopened (hfr hfw)
  have hset : ∀ {p q : Pcb o} {w : View o}, s.pcb = some p → w.pcb = some q → w.living = living s →
      w.inflight = s.conn.inflightAckBytes → w.handed = s.log.handed ∧ w.credited = s.log.credited →
        inbox q = inbox p →
      q.list = p.list → (Fresh w → Fresh (view s)) → Ledger exact s .rest w := by
    intro p q w hp hq hv hk htot hin hl hfr
    refine ⟨fun hlive p' hp' => ?_, fun hex hlive => ?_, fun hfw => ?_⟩
    · cases hq.symm.trans hp'
      rw [hk]
      exact (h.account (hv.symm.trans hlive) p hp).same hin hl
    · rw [htot.1, htot.2, hk]
      exact h.books hex (hv.symm.trans hlive)
    · rw [htot.1, htot.2]
      exact h.unopened (hfr hfw)
  cases hf with
  | idle => exact h
  | worked hp hin hl => exact hset hp rfl rfl rfl ⟨rfl, rfl⟩ hin hl hfresh
  | activated hp hin hl => exact hset hp rfl rfl rfl ⟨rfl, rfl⟩ hin hl hfresh
  | enabled => exact ⟨h.account, h.books, h.unopened⟩
  | @acknowledged n p q hp hq hv =>
    have hcount : counter s = s.conn.inflightAckBytes := if_pos hv
    have hle : min n s.conn.inflightAckBytes ≤ s.conn.inflightAckBytes := Nat.min_le_right _ _
    have hk : s.conn.inflightAckBytes < 2 ^ 64 := by
      unfold NoWrap at hwrap
      omega
    have hdelta := afterDelta_credit hk hle
    refine ⟨fun _ p' hp' => ?_, fun hex _ => ?_, fun hfw => ?_⟩
    · cases hp'
      have hacc := h.account hv p hp
      rw [show (view s).inflight = (s.conn.inflightAckBytes - min n s.conn.inflightAckBytes) +
        min n s.conn.inflightAckBytes
        from (Nat.sub_add_cancel hle).symm] at hacc
      have hdone := hacc.credit (hst p hp).boxed.wnd hq le_rfl fun _ => rfl
      rw [← hdelta] at hdone
      exact hdone
    · have hbooks : s.log.handed = s.conn.inflightAckBytes + s.log.credited := h.books hex hv
      dsimp only [view]
      omega
    · obtain ⟨p', hp', hsyn⟩ := hfresh hfw
      rw [living_of_fresh hw hp' hsyn] at hv
      cases hv
  | closed => exact hover (living_ended _ _) (totals_ended _ _) hfresh
  | discarded => exact hover (living_ended _ _) (totals_ended _ _) hfresh
  | aborted => exact hover (living_ended _ _) (totals_ended _ _) hfresh
  | handlers => exact ⟨h.account, h.books, h.unopened⟩
  | ran => exact ⟨h.account, h.books, h.unopened⟩
  | released => exact hover rfl ⟨rfl, rfl⟩ id
  | env => exact ⟨h.account, h.books, h.unopened⟩

lemma ledger_step (hs : Sound s) (ho : KeepsOrder s e) (hwrap : NoWrap s)
    (hok : exact → Served s e ∧ Unpurged s e) (hst : ∀ p, s.pcb = some p → Stored .rest p)
    (h : Ledger exact s₀ .rest (view s)) :
    Ledger exact s .rest (view (step s e)) := by
  have hbegin := ledger_begin h hst e
  by_cases happ : ∃ a, e = .app a
  · obtain ⟨a, rfl⟩ := happ
    exact ledger_app hs.wf hwrap hst hbegin (flow_appStep hs.wf a)
  · have hkept := keeps_event (I := fun ph v => Stocked s ph v ∧ Ledger exact s ph v) hs
      (fun a ha => happ ⟨a, ha⟩)
      ⟨stocked_start hst e, hbegin⟩ fun hwi hi hf =>
        ⟨stocked_flow ho hwi hi.1 hf, ledger_flow hwrap hok ho hwi hi.1 hi.2 hf⟩
    exact hkept.2

lemma ledger_initial (h : Initial s) : Ledger exact s .rest (view s) := by
  obtain ⟨syn, iss, env, ticks, tf, pcb, hpcb, -, rfl⟩ := h
  exact ⟨fun hv => (by cases hv), fun _ hv => (by cases hv), fun _ => rfl⟩

/-! ### Whole runs -/

/-- What the sums below rest on, event by event. -/
def Conserving (s : State o) (e : Event) : Prop := KeepsOrder s e ∧ Served s e ∧ Unpurged s e

instance (s : State o) (e : Event) : Decidable (Conserving s e) :=
  inferInstanceAs (Decidable (_ ∧ _))

lemma living_pcb (hw : Wf s) (hl : living s = true) : ∃ p, s.pcb = some p := by
  simp only [living, Bool.and_eq_true] at hl
  exact Option.isSome_iff_exists.1 (hw.coherent.attached hl.1 hl.2).1

lemma noWrap_of_exact (hw : Wf s) (h : Ledger True s₀ .rest (view s)) : NoWrap s := by
  have hmax := tcpWnd_le o
  unfold NoWrap counter
  split_ifs with hl
  · obtain ⟨p, hp⟩ := living_pcb hw hl
    have hup := (h.account hl p hp).upper trivial
    simp only [view] at hup
    omega
  · omega

/-- Receive credit is conserved: what was handed to the handlers is in flight or credited, and what
the window lacks is in flight or held back. -/
theorem receive_credit_conserved (h₀ : Initial s₀) {es : List Event}
    (hes : Runs.Along step Conserving s₀ es) (hl : living (Runs.run step s₀ es) = true)
    (hp : (Runs.run step s₀ es).pcb = some p) :
    let s := Runs.run step s₀ es
    s.log.handed = s.conn.inflightAckBytes + s.log.credited ∧
    p.wndMax = p.rx.rcvWnd + s.conn.inflightAckBytes + p.rx.refusedData.elim 0
      (fun r => r.p.totLen) +
      p.rx.refusedData.elim 0 (fun r => r.fin.toNat) := by
  have hrun : Sound (Runs.run step s₀ es) ∧
      (∀ p, (Runs.run step s₀ es).pcb = some p → Stored .rest p) ∧
      ∃ t, Ledger True t .rest (view (Runs.run step s₀ es)) := by
    refine Runs.invariant step (fun s => Sound s ∧ (∀ p, s.pcb = some p → Stored .rest p) ∧
      ∃ t, Ledger True t .rest (view s)) (fun s e h he => ?_)
        ⟨sound_initial h₀, stored_initial h₀, s₀, ledger_initial h₀⟩ hes
    obtain ⟨hs, hst, t, hled⟩ := h
    exact ⟨sound_step hs e, stored_step hs he.1 hst, s,
      ledger_step hs he.1 (noWrap_of_exact hs.wf hled) (fun _ => he.2) hst hled⟩
  obtain ⟨-, hst, t, hled⟩ := hrun
  have hacc := hled.account hl p hp
  have hlow := hacc.lower (.inl trivial)
  have hup := hacc.upper trivial
  refine ⟨hled.books trivial hl, ?_⟩
  have hheld : heldBack p = p.rx.refusedData.elim 0 (fun r => r.p.totLen) + p.rx.refusedData.elim 0
      (fun r => r.fin.toNat) := by
    cases hr : p.rx.refusedData with
    | none => exact heldBack_of_none hr
    | some r =>
      have hmax := tcpWnd_le o
      have hsize := (hst p hp).refused_le hr
      rw [heldBack_of_some hr]
      have htot : r.p.totLen = r.p.size := Pbuf.totLen_eq (by omega)
      simp only [Option.elim, htot]
  rw [Pcb.wndMax_eq]
  simp only [load, view] at hlow hup
  omega

/-- Five bytes in sequence, and one byte with the FIN behind them. -/
def farewell : Segment := { ackSegment 106 6511 with
    fin := true, p := ⟨[⟨1, [6]⟩]⟩, fits := by decide }

/-- Five bytes are in flight, and one is held back with the FIN behind it. -/
theorem receive_credit_conserved_heldBack :
    ∃ p, (Runs.run step (listening .macos) (opening ++ [.segment fiveBytes,
        .app (.api (.setInboundDeliveryEnabled false)), .segment farewell])).pcb = some p ∧
      p.rx.rcvWnd = 65528 ∧ p.wndMax = p.rx.rcvWnd + 5 + 1 + 1 := by
  have hes : Runs.Along step Conserving (listening .macos) (opening ++ [.segment fiveBytes,
    .app (.api (.setInboundDeliveryEnabled false)), .segment farewell]) := by decide
  have hw : ((Runs.run step (listening .macos) (opening ++ [.segment fiveBytes,
    .app (.api (.setInboundDeliveryEnabled false)), .segment farewell])).pcb.map fun p =>
      (p.rx.rcvWnd, p.rx.refusedData.map fun r => (r.p.totLen, r.fin))) =
        some (65528, some (1, true)) := by decide
  obtain ⟨p, hp, hrx⟩ := Option.map_eq_some_iff.1 hw
  simp only [Prod.mk.injEq, Option.map_eq_some_iff] at hrx
  obtain ⟨hwnd, r, hr, hlen, hfin⟩ := hrx
  have hsum := (receive_credit_conserved (listening_initial .macos) hes (by decide) hp).2
  rw [hr] at hsum
  simp only [Option.elim, hlen, hfin] at hsum
  exact ⟨p, hp, hwnd, hsum.trans (by rfl)⟩

/-- No memory for five bytes that have passed the gate: they are on the counter and gone from the
window, and no handler has heard of them that could acknowledge them. -/
theorem receive_credit_lost : Initial (listening .ios) ∧
    let s := Runs.run step (listening .ios)
      (opening ++ [.app (.env { calmTf with malloc := false }), .segment fiveBytes])
    living s = true ∧ s.conn.inflightAckBytes = 5 ∧ s.log.handed = 0 ∧ s.log.credited = 0 := by
  exact ⟨listening_initial .ios, by decide⟩

end TunForge.WindowLedger
