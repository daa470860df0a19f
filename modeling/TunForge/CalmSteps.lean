import TunForge.Stack
import TunForge.PcbFrames
import TunForge.Lifecycle

/-! The parts of lwIP's input and timer functions that only talk to an accepted
connection: every one of them is a run of the boundary machine, and leaves the
life cycle of the connection and the place of its pcb alone. -/
namespace TunForge.CalmSteps
open SerialNumber PbufChain LwipTypes TcpOut TcpIn Tcp Connection Callbacks Stack
open Boundary OrdinarySteps PcbFrames

variable {o : Platform} {s t u : State o}

/-! ### What the receive path does to a pcb -/

section

variable {P : Type} [RawApi P] {s t u : Sys P}

/-- The pcb has been credited some bytes and is otherwise untouched. -/
def Credited (s t : Sys P) : Prop :=
  ∃ ns : List ℕ, t.pcb = s.pcb.map fun pcb => ns.foldl RawApi.recved pcb

lemma Credited.refl (s : Sys P) : Credited s s := ⟨[], by simp⟩

lemma Credited.trans (h : Credited s t) (h' : Credited t u) : Credited s u := by
  obtain ⟨ns, hn⟩ := h
  obtain ⟨ms, hm⟩ := h'
  refine ⟨ns ++ ms, ?_⟩
  rw [hm, hn, Option.map_map]
  simp [Function.comp_def]

lemma credited_of_eq (h : t.pcb = s.pcb) : Credited s t := ⟨[], by simp [h]⟩

lemma credited_recvedLoop (fuel remaining : ℕ) (s : Sys P) :
    Credited s (recvedLoop fuel remaining s) := by
  induction fuel generalizing remaining s with
  | zero => exact .refl s
  | succ fuel ih =>
    unfold recvedLoop
    split_ifs
    · exact .refl s
    · exact Credited.trans ⟨[min remaining 0xFFFF], rfl⟩ (ih _ _)

lemma credited_acknowledge (n : ℕ) (s : Sys P) : Credited s (acknowledgeDeliveredBytes n s) := by
  unfold acknowledgeDeliveredBytes
  split_ifs
  · exact .refl s
  · exact .refl s
  · exact .refl s
  · exact (credited_recvedLoop _ _ s).trans (credited_of_eq rfl)

lemma credited_deliver (p : Pbuf) (s : Sys P) : Credited s (deliver p s) := by
  simp only [deliver]
  split_ifs
  · exact credited_of_eq rfl
  · exact credited_of_eq rfl
  · have hack := credited_acknowledge p.totLen ((updateInflightAckBytes p.totLen s).free (.pbuf p))
    exact Credited.trans (credited_of_eq rfl) (hack.trans (credited_of_eq rfl))
  · exact credited_of_eq rfl
  · exact ⟨[p.totLen], rfl⟩

lemma credited_eventRecv (p : Pbuf) (s : Sys P) : Credited s (eventRecv p s).1 := by
  have hnote := fun arg => noteCall_pcb .recv arg s
  unfold eventRecv
  split
  · unfold tfTcpRecv
    dsimp only
    split_ifs
    · exact credited_of_eq (hnote _)
    · exact absurd rfl ‹Err.ok ≠ Err.ok›
    · exact credited_of_eq (hnote _)
    · exact credited_of_eq (hnote _)
    · exact Credited.trans (credited_of_eq (hnote _))
        (Credited.trans (credited_deliver p _) (credited_of_eq rfl))
  · exact ⟨[p.totLen], rfl⟩

end

/-! ### Calm actions -/

/-- Actions that keep a pcb in its place: work on it that does, and the callbacks for data, a
FIN or an acknowledgement. -/
def IsCalm : Action (Pcb o) → Prop
  | .lwip f => ∀ pcb, core (f pcb) = core pcb
  | .recv _ | .closed | .sent _ => True
  | _ => False

/-- The pcb exists and belongs, or has belonged, to a connection. -/
structure Taken (s : State o) : Prop where
  isSome : s.pcb.isSome = true
  recv : s.hooks.recv ≠ .recvNull

/-- The life cycle of the connection and the place of its pcb are as before. -/
structure Steady (s t : State o) : Prop where
  alive : t.conn.alive = s.conn.alive
  state : t.conn.state = s.conn.state
  reason : t.conn.terminationReason = s.conn.terminationReason
  hooks : t.hooks = s.hooks
  exist : t.connExists = s.connExists
  env : t.env = s.env
  core : t.pcb.map core = s.pcb.map core

lemma Steady.refl (s : State o) : Steady s s := ⟨rfl, rfl, rfl, rfl, rfl, rfl, rfl⟩

lemma Steady.trans (h : Steady s t) (h' : Steady t u) : Steady s u :=
  ⟨h'.alive.trans h.alive, h'.state.trans h.state, h'.reason.trans h.reason, h'.hooks.trans h.hooks,
    h'.exist.trans h.exist, h'.env.trans h.env, h'.core.trans h.core⟩

lemma Steady.isSome (h : Steady s t) : t.pcb.isSome = s.pcb.isSome := by
  have := congrArg Option.isSome h.core
  simpa using this

lemma Steady.taken (h : Steady s t) (hs : Taken s) : Taken t :=
  ⟨h.isSome.trans hs.isSome, by rw [h.hooks]; exact hs.recv⟩

lemma steady_of_ordinary {k : Scope} (h : Ordinary k s t) (hc : t.pcb.map core = s.pcb.map core) :
    Steady s t :=
  ⟨h.alive, h.state, h.reason, h.hooks, h.exist, h.env, hc⟩

lemma core_foldl_recved (ns : List ℕ) (pcb : Pcb o) :
    core (ns.foldl RawApi.recved pcb) = core pcb := by
  induction ns generalizing pcb with
  | nil => rfl
  | cons n ns ih =>
    rw [List.foldl_cons, ih]
    exact (tcpRecved_frame pcb n).1

lemma core_of_credited (h : Credited s t) : t.pcb.map core = s.pcb.map core := by
  obtain ⟨ns, hn⟩ := h
  rw [hn, Option.map_map]
  congr 1
  funext pcb
  exact core_foldl_recved ns pcb

lemma steady_eventRecv (p : Pbuf) : Steady s (eventRecv p s).1 :=
  steady_of_ordinary (ordinary_eventRecv p) (core_of_credited (credited_eventRecv p s))

lemma steady_eventClosed (h : s.hooks.recv ≠ .recvNull) : Steady s (eventClosed s) := by
  have hnote : Steady s (noteCall .recv s.hooks.arg s) :=
    steady_of_ordinary (k := .hints) (ordinary_noteCall _) (by rw [noteCall_pcb])
  unfold eventClosed
  split
  · unfold tfTcpRecv
    dsimp only
    split_ifs with hg hok
    · exact hnote
    · exact absurd rfl hok
    · refine hnote.trans ?_
      unfold handlePeerFINLocked
      split_ifs
      · exact .refl _
      · exact ⟨rfl, rfl, rfl, rfl, rfl, rfl, rfl⟩
  · exact .refl s
  · next hr => exact absurd hr h

lemma eventSent_pcb (len : ℕ) : (eventSent len s).pcb = s.pcb := by
  have hnote := noteCall_pcb .sent s.hooks.arg s
  unfold eventSent tfTcpSent
  split_ifs
  · exact hnote
  · exact (updateWritableLocked_pcb _ _).trans hnote
  · rfl

lemma steady_eventSent (len : ℕ) : Steady s (eventSent len s) := by
  refine steady_of_ordinary (ordinary_eventSent (k := .hints) len) ?_
  rw [eventSent_pcb]

lemma steady_act {a : Action (Pcb o)} (hs : Taken s) (ha : IsCalm a) : Steady s (act s a) := by
  cases a with
  | lwip f =>
    refine steady_of_ordinary (k := .hints) (t := act s (.lwip f)) ?_ ?_
    · simp only [act, hs.isSome, if_true, lwipAct]
      exact ordinary_pcb f
    · simp only [act, hs.isSome, if_true, lwipAct, Option.map_map]
      congr 1
      funext pcb
      exact ha pcb
  | recv p => simpa only [act, hs.isSome, if_true, lwipAct] using steady_eventRecv p
  | closed => simpa only [act, hs.isSome, if_true, lwipAct] using steady_eventClosed hs.recv
  | sent len => simpa only [act, hs.isSome, if_true, lwipAct] using steady_eventSent len
  | _ => exact ha.elim

def Calm (s t : State o) : Prop := ∃ as, (∀ a ∈ as, IsCalm a) ∧ Runs.run act s as = t

lemma Calm.refl (s : State o) : Calm s s := ⟨[], by simp⟩

lemma Calm.trans (h : Calm s t) (h' : Calm t u) : Calm s u := by
  obtain ⟨as, ha, rfl⟩ := h
  obtain ⟨bs, hb, rfl⟩ := h'
  refine ⟨as ++ bs, fun a hm => ?_, Runs.run_append act s as bs⟩
  rcases List.mem_append.1 hm with hm | hm
  · exact ha a hm
  · exact hb a hm

lemma Calm.steady (h : Calm s t) (hs : Taken s) : Steady s t := by
  obtain ⟨as, ha, rfl⟩ := h
  induction as generalizing s with
  | nil => exact .refl s
  | cons a as ih =>
    have hstep := steady_act hs (ha a List.mem_cons_self)
    exact hstep.trans (ih (hstep.taken hs) fun b hb => ha b (List.mem_cons_of_mem _ hb))

lemma calm_single {a : Action (Pcb o)} (ha : IsCalm a) : Calm s (act s a) :=
  ⟨[a], by simpa using ha, rfl⟩

/-! ### Input processing -/

lemma calm_modPcb {f : Pcb o → Pcb o} (hf : ∀ pcb, core (f pcb) = core pcb) :
    Calm s (modPcb f s) := by
  have hact : act s (.lwip f) = modPcb f s := by
    unfold act modPcb
    cases h : s.pcb with
    | none =>
      obtain ⟨_, _, _, _⟩ := s
      simp_all
    | some pcb => simp [lwipAct, h]
  rw [← hact]
  exact calm_single hf

lemma calm_eventRecv (p : Pbuf) (hs : s.pcb.isSome = true) : Calm s (eventRecv p s).1 := by
  have hact : act s (.recv p) = (eventRecv p s).1 := by simp [act, lwipAct, hs]
  rw [← hact]
  exact calm_single trivial

lemma core_setRefused (r : Option Refused) (pcb : Pcb o) : core (setRefused r pcb) = core pcb := rfl

lemma core_correctFin (pcb : Pcb o) : core (correctFin pcb) = core pcb := by
  unfold correctFin
  split_ifs <;> rfl

lemma calm_deliverFin (hs : s.pcb.isSome = true) : Calm s (deliverFin s) := by
  have hsome : (modPcb correctFin s).pcb.isSome = true := by simpa [modPcb] using hs
  have hact : act (modPcb correctFin s) .closed = deliverFin s := by
    simp [act, lwipAct, hsome, deliverFin]
  rw [← hact]
  exact (calm_modPcb core_correctFin).trans (calm_single trivial)

lemma calm_refusedLoop (fuel : ℕ) (hs : s.hooks.recv ≠ .recvNull) :
    Calm s (refusedLoop fuel s) := by
  -- the retry loop for refused data is calm, round by round
  induction fuel generalizing s with
  | zero => exact .refl s
  | succ fuel ih =>
    unfold refusedLoop
    split
    · exact .refl s
    · next r hr =>
      have hsome : s.pcb.isSome = true := by
        cases hp : s.pcb <;> simp_all
      have htaken : Taken s := ⟨hsome, hs⟩
      dsimp only
      generalize hmod : modPcb (setRefused ((offerSplit o r.p).2.map fun q => ⟨q, r.fin⟩)) s = s₁
      have h₁ : Calm s s₁ := hmod ▸ calm_modPcb (core_setRefused _)
      have ht₁ := (h₁.steady htaken).taken htaken
      have h₂ : Calm s (eventRecv (offerSplit o r.p).1 s₁).1 :=
        h₁.trans (calm_eventRecv _ ht₁.isSome)
      have ht₂ := (h₂.steady htaken).taken htaken
      revert h₂ ht₂
      generalize eventRecv (offerSplit o r.p).1 s₁ = res
      obtain ⟨s₂, err⟩ := res
      intro h₂ ht₂
      have hback : Calm s (modPcb
          (setRefused (some ⟨rejoin (offerSplit o r.p).1 (offerSplit o r.p).2, r.fin⟩)) s₂) :=
        h₂.trans (calm_modPcb (core_setRefused _))
      cases err with
      | ok =>
        dsimp only
        split_ifs with hfin
        · have h₃ : Calm s (deliverFin s₂) := h₂.trans (calm_deliverFin ht₂.isSome)
          exact h₃.trans (ih ((h₃.steady htaken).taken htaken).recv)
        · exact h₂.trans (ih ht₂.recv)
      | abrt => exact h₂
      | _ => exact hback

lemma calm_tcpProcessRefusedData (hs : s.hooks.recv ≠ .recvNull) :
    Calm s (tcpProcessRefusedData s) := by
  unfold tcpProcessRefusedData
  split
  · exact .refl s
  · exact calm_refusedLoop _ hs

lemma calm_eventSent (len : ℕ) (hs : s.pcb.isSome = true) : Calm s (eventSent len s) := by
  have hact : act s (.sent len) = eventSent len s := by simp [act, lwipAct, hs]
  rw [← hact]
  exact calm_single trivial

lemma calm_sentLoop (fuel acked : ℕ) (hs : Taken s) : Calm s (sentLoop fuel acked s) := by
  induction fuel generalizing acked s with
  | zero => exact .refl s
  | succ fuel ih =>
    unfold sentLoop
    split_ifs
    · exact .refl s
    · have h := calm_eventSent (min acked 0xFFFF) hs.isSome
      exact h.trans (ih _ ((h.steady hs).taken hs))
    · exact calm_eventSent acked hs.isSome

lemma calm_offerData (fuel : ℕ) (p : Pbuf) (hs : Taken s)
    (hrx : ∀ pcb, s.pcb = some pcb → pcb.rxClosed = false) :
    Calm s (offerData fuel p s) := by
  -- data for a pcb whose receiving side is open is offered calmly
  induction fuel generalizing p s with
  | zero => exact .refl s
  | succ fuel ih =>
    unfold offerData
    split
    · exact .refl s
    · next pcb hpcb =>
      simp only [hrx pcb hpcb, Bool.false_eq_true, if_false]
      have h₁ := calm_eventRecv (s := s) (offerSplit o p).1 hs.isSome
      have hst := h₁.steady hs
      revert h₁ hst
      generalize eventRecv (offerSplit o p).1 s = res
      obtain ⟨s₁, err⟩ := res
      intro h₁ hst
      have hrx₁ : ∀ q, s₁.pcb = some q → q.rxClosed = false := by
        intro q hq
        have hcore := hst.core
        simp only [hq, hpcb, Option.map_some, Option.some.injEq] at hcore
        exact (rxClosed_of_core hcore).trans (hrx pcb hpcb)
      have hback : Calm s (modPcb
          (setRefused (some ⟨rejoin (offerSplit o p).1 (offerSplit o p).2, false⟩)) s₁) :=
        h₁.trans (calm_modPcb (core_setRefused _))
      cases err with
      | ok =>
        dsimp only
        split
        · exact h₁
        · exact h₁.trans (ih _ (hst.taken hs) hrx₁)
      | abrt => exact h₁
      | _ => exact hback

lemma calm_handleFin (hs : Taken s) : Calm s (handleFin s) := by
  unfold handleFin
  split
  · exact calm_modPcb (core_setRefused _)
  · exact calm_deliverFin hs.isSome

end TunForge.CalmSteps
