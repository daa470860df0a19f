import TunForge.OrderlyClose
import TunForge.SendLedger
import TunForge.SendTicks

/-! The send engine and the running stack side by side. What the stack takes from its surroundings
is what the send engine computes, and what the send engine takes for granted, an application that
takes the data it is offered, is what the connection of the stack does. Told of each other, the two
keep the same pcb over whole runs. -/
namespace TunForge.SendRefinement
open SerialNumber PbufChain LwipTypes TcpOut TcpIn Tcp Connection Callbacks Stack
open InputCases Inflow InflowEvents StackRuns OrderlyClose SendAgreement SendOutputs SendSegments
  SendCalls
open SendTicks
open SendEngine (Sender)

variable {o : Platform} {x : State o}

/-- What happens to a connection: segments of the peer, the timers of lwIP, the application's
events, and memory and the route to the peer coming and going. -/
inductive Happening
  | segment (seg : Segment)
  | fasttmr
  | slowtmr (keep : ℕ)
  | app (e : AppEvent)
  | mem (ok : Bool)
  | route (ok : Bool)
  deriving DecidableEq

/-- A connection of the stack, and the send engine that goes with it. -/
structure Joint (o : Platform) where
  stack : State o
  sender : Option (Sender o)

/-- What the send engine hears of it. -/
def heard (x : State o) : Happening → List SendEngine.Event
  | .segment seg => [.segment seg]
  | .fasttmr => [.fasttmr]
  | .slowtmr keep => .slowtmr keep :: heardPoll x
  | .app e => heardApp x e
  | .mem ok => [.mem ok]
  | .route ok => [.route ok]

/-- The events of the stack that happen. -/
def occurring : Happening → List Event
  | .segment seg => [.segment seg]
  | .fasttmr => [.fasttmr]
  | .slowtmr _ => [.slowtmr]
  | .app e => [.app e]
  | .mem _ | .route _ => []

/-- What the stack is told: first what the send engine foresees, then what happens. -/
def told (j : Joint o) (h : Happening) : List Event :=
  match j.sender, h with
  | none, h => occurring h
  | some s, .slowtmr keep => toldSlowtmr j.stack keep s
  | some s, h => .env (surroundings s (outputsAlong (some s) (heard j.stack h))) :: occurring h

def jointStep (j : Joint o) (h : Happening) : Joint o where
  stack := Runs.run step j.stack (told j h)
  sender := Runs.run SendEngine.step j.sender (heard j.stack h)

/-- TunForge aborts the connection. -/
def givesUp (x : State o) : Happening → Bool
  | .segment _ => !(x.env.stack && x.env.delegate)
  | .slowtmr _ => newStateTimedOut x
  | .app e => aborts x e
  | _ => false

/-- The application takes the data it is offered, without copying it, and TunForge does not
abort. -/
def Obliging (j : Joint o) (h : Happening) : Prop :=
  refused (jointStep j h).stack = none ∧ ZeroCopy j.stack ∧ givesUp j.stack h = false

instance (x : State o) : Decidable (ZeroCopy x) := inferInstanceAs (Decidable (_ → _))

instance (j : Joint o) (h : Happening) : Decidable (Obliging j h) :=
  inferInstanceAs (Decidable (_ ∧ _ ∧ _))

/-- The two machines are in step. -/
structure InStep (j : Joint o) : Prop where
  sound : Sound j.stack
  refused : refused j.stack = none
  agree : Agree j.stack.pcb j.sender

lemma sound_run {x : State o} (h : Sound x) (es : List Event) : Sound (Runs.run step x es) :=
  Runs.invariant_all step Sound (fun _ e hs => sound_step hs e) h es

lemma outputsAlong_nil (s : Option (Sender o)) : outputsAlong s [] = [] := by
  cases s <;> rfl

lemma outputsAlong_single (s : Sender o) (e : SendEngine.Event) :
    outputsAlong (some s) [e] = outputsOf s e := by
  rw [outputsAlong, outputsAlong_nil, List.append_nil]

variable {p : Pcb o}

lemma appFlow_none {a : AppEvent} {w : View o} (h : AppFlow x a w) (hp : x.pcb = none) :
    w.pcb = none := by
  cases h with
  | worked hp' | activated hp' | acknowledged hp' | closed hp' | discarded hp' =>
    simp [hp] at hp'
  | aborted => rfl
  | idle | enabled | handlers | ran | released | env => exact hp

lemma occurring_none (hw : Wf x) (hp : x.pcb = none) (h : Happening) :
    (Runs.run step x (occurring h)).pcb = none := by
  cases h with
  | segment seg =>
    change (tcpInput seg x).pcb = none
    simp [tcpInput, hp]
  | fasttmr =>
    change (tcpFasttmr x).pcb = none
    simp [tcpFasttmr, hp]
  | slowtmr keep =>
    change (tcpSlowtmr x).pcb = none
    simp [tcpSlowtmr, modPcb_of_none hp, hp]
  | app e => exact appFlow_none (InflowCalls.flow_appStep hw e) hp
  | mem ok => exact hp
  | route ok => exact hp

lemma tcpWrite_fails (p : Pcb o) (data : Bytes) :
    ((tcpWrite p data).2 = .ok ∨ (tcpWrite p data).2 = .mem) ↔
    (tcpWriteChecks p data.length = .ok ∨ tcpWriteChecks p data.length = .mem) := by
  unfold tcpWrite
  cases tcpWriteChecks p data.length with
  | ok =>
    dsimp only
    cases extendLast p (mssLocal p) data.length with
    | none => simp
    | some found =>
      dsimp only
      split <;> simp
  | _ => simp

lemma fatalWrite_eq (hp : x.pcb = some p) (data : Bytes) : fatalWrite x data = true ↔
    ¬data = [] ∧ ¬0xFFFF < data.length ∧
      ¬(!x.conn.alive || !x.conn.pcb || decide (x.conn.state ≠ .active) || x.conn.writeFIN) = true ∧
      ¬(tcpWriteChecks p data.length = .ok ∨ tcpWriteChecks p data.length = .mem) := by
  have hraw : (RawApi.write p data : Pcb o × Err) = tcpWrite p data := rfl
  rw [← tcpWrite_fails]
  unfold fatalWrite writeBytes
  rw [hp, Option.map_some, hraw]
  generalize tcpWrite p data = r
  obtain ⟨q, err⟩ := r
  split_ifs with h1 h2 h3
  · simp [h1]
  · simp [h2]
  · exact ⟨fun h => by simp at h, fun h => absurd h3 h.2.2.1⟩
  · simp only [h1, h2, h3]
    cases err <;> simp

lemma aborts_env (e : Env) (hp : x.pcb = some p) (a : AppEvent) :
    aborts (step x (.env e)) a = aborts x a := by
  have hwrite : ∀ data, fatalWrite (step x (.env e)) data = fatalWrite x data := by
    intro data
    rw [Bool.eq_iff_iff, fatalWrite_eq hp,
      fatalWrite_eq (p := { p with env := e }) (congrArg Sys.pcb (modPcb_some hp))]
    rfl
  cases a with
  | api c =>
    cases c with
    | writeBytes data | writeData data => exact hwrite data
    | _ => rfl
  | _ => rfl

lemma heardApp_env (e : Env) (x : State o) (a : AppEvent) :
    heardApp (step x (.env e)) a = heardApp x a := by
  cases a with
  | api c => cases c <;> rfl
  | _ => rfl

lemma agree_happening {s : Sender o} {env : Env} (hx : Sound x) (hfree : p.rx.refusedData = none)
    (hp : x.pcb = some p) (hshows : Shows env p s.pcb) (h : Happening)
    (ho : Obliging ⟨x, some s⟩ h) :
    Agree (jointStep ⟨x, some s⟩ h).stack.pcb (jointStep ⟨x, some s⟩ h).sender := by
  -- what happens to a connection that both machines have
  obtain ⟨href, hz, hgive⟩ := ho
  have hw : ∀ e, Wf (step x (.env e)) := fun e => StackRuns.wf_step hx.wf _
  have hpcb : ∀ e, (step x (.env e)).pcb = some { p with env := e } := fun e =>
    congrArg Sys.pcb (modPcb_some hp)
  have hprep := fun outputs => prepared_told hshows s outputs rfl
  cases h with
  | segment seg =>
    have hs : told ⟨x, some s⟩ (.segment seg) =
        [.env (surroundings s (outputsOf s (.segment seg))), .segment seg] := by
      rw [← outputsAlong_single]
      rfl
    unfold jointStep at href ⊢
    rw [hs] at href ⊢
    rw [givesUp, Bool.not_eq_false'] at hgive
    obtain ⟨t, b, rfl⟩ := hshows
    exact agree_tcpInput (hw _) (hpcb _) hfree ⟨⟨t, b, rfl⟩, rfl, rfl⟩ hz hgive href
  | fasttmr =>
    have hs : told ⟨x, some s⟩ .fasttmr = [.env (surroundings s (fasttmrOutputs s)), .fasttmr] := by
      rw [show fasttmrOutputs s = outputsOf s .fasttmr from rfl, ← outputsAlong_single]
      rfl
    unfold jointStep
    rw [hs]
    exact agree_tcpFasttmr (hw _) (hpcb _) hfree (hprep _)
  | slowtmr keep => exact agree_tcpSlowtmr hx keep hp hgive hshows
  | app a =>
    have hgo := aborts_env (surroundings s (outputsAlong (some s) (heardApp x a))) hp a
    have happ := agree_appStep (hw (surroundings s (outputsAlong (some s) (heardApp x a))))
      (hpcb _) a (hgo.trans hgive) (s := s)
    rw [heardApp_env] at happ
    exact happ (hprep _)
  | mem ok =>
    obtain ⟨t, b, rfl⟩ := hshows
    rw [show (jointStep ⟨x, some s⟩ (.mem ok)).stack.pcb = _ from hpcb _]
    exact ⟨_, t, b, rfl⟩
  | route ok =>
    obtain ⟨t, b, rfl⟩ := hshows
    rw [show (jointStep ⟨x, some s⟩ (.route ok)).stack.pcb = _ from hpcb _]
    exact ⟨_, t, b, rfl⟩

lemma inStep_step {j : Joint o} (hj : InStep j) (h : Happening) (ho : Obliging j h) :
    InStep (jointStep j h) := by
  refine ⟨sound_run hj.sound _, ho.1, ?_⟩
  obtain ⟨x, sender⟩ := j
  obtain ⟨hx, href, hagree⟩ := hj
  dsimp only at hx href hagree
  cases hp : x.pcb with
  | none =>
    rw [hp] at hagree
    cases sender with
    | none =>
      have hnone : (jointStep ⟨x, none⟩ h).stack.pcb = none := occurring_none hx.wf hp h
      have hover : (jointStep ⟨x, none⟩ h).sender = none := run_none (heard x h)
      rw [hnone, hover]
      trivial
    | some s => exact hagree.elim
  | some p =>
    rw [hp] at hagree
    cases sender with
    | none => exact hagree.elim
    | some s =>
      obtain ⟨env, hshows⟩ := hagree
      refine agree_happening hx ?_ hp hshows h ho
      simpa [refused, hp] using href

/-! ### Whole runs -/

/-- The sender that is about to send its SYN|ACK. -/
def answering (o : Platform) (syn : Segment) (iss : Seq) (env : Env) (ticks : ℕ) : Sender o :=
  SendEngine.newSender (tcpEnqueueFlags (newPcb o syn iss env ticks) true false).1

/-- What the stack is told when it answers a SYN. -/
def toldSyn (o : Platform) (syn : Segment) (iss : Seq) (env : Env) (ticks : ℕ) : Env :=
  surroundings (answering o syn iss env ticks) [answering o syn iss env ticks]

/-- Both machines answer a SYN. -/
def openBoth (o : Platform) (syn : Segment) (iss : Seq) (env : Env) (ticks : ℕ) (tf : TfEnv) :
    Option (Joint o) :=
  match tcpListenInput o syn iss (toldSyn o syn iss env ticks) ticks,
    SendEngine.tcpListenInput o syn iss env ticks with
  | some pcb, some s => some ⟨opened pcb tf, some s⟩
  | _, _ => none

section Opening

variable {syn : Segment} {iss : Seq} {env : Env} {ticks : ℕ} {tf : TfEnv} {j : Joint o}

lemma tuned_newPcb {env env' : Env} (hm : env'.mem = env.mem) (hr : env'.route = env.route) :
    Tuned env' (newPcb o syn iss env' ticks) (newPcb o syn iss env ticks) := by
  unfold newPcb
  refine Tuned.parseopt ?_ syn
  exact ⟨⟨0, true, rfl⟩, hm, hr⟩

lemma newPcb_idle : (newPcb o syn iss env ticks).inputPcb = false ∧
    (newPcb o syn iss env ticks).env = env := by
  unfold newPcb tcpParseopt
  cases syn.mss <;> cases syn.wndScale <;> dsimp only <;> (try split_ifs) <;> exact ⟨rfl, rfl⟩

lemma tcpEnqueueFlags_frame (p : Pcb o) (syn fin : Bool) :
    (tcpEnqueueFlags p syn fin).1.inputPcb = p.inputPcb ∧
    (tcpEnqueueFlags p syn fin).1.env = p.env := by
  unfold tcpEnqueueFlags
  split_ifs <;> exact ⟨rfl, rfl⟩

lemma agree_listenInput {pcb : Pcb o} {s : Sender o}
    (hp : tcpListenInput o syn iss (toldSyn o syn iss env ticks) ticks = some pcb)
    (hs : SendEngine.tcpListenInput o syn iss env ticks = some s) : ∃ env, Shows env pcb s.pcb := by
  have henv : (answering o syn iss env ticks).pcb.env = env :=
    (tcpEnqueueFlags_frame _ true false).2.trans newPcb_idle.2
  have hidle : (answering o syn iss env ticks).pcb.inputPcb = false :=
    (tcpEnqueueFlags_frame _ true false).1.trans newPcb_idle.1
  have hnew : Tuned (toldSyn o syn iss env ticks)
      (newPcb o syn iss (toldSyn o syn iss env ticks) ticks) (newPcb o syn iss env ticks) := by
    refine tuned_newPcb ?_ ?_
    · change (answering o syn iss env ticks).pcb.env.mem = env.mem
      rw [henv]
    · change (answering o syn iss env ticks).pcb.env.route = env.route
      rw [henv]
  obtain ⟨hflags, -⟩ := hnew.enqueueFlags true false
  have hsent := tuned_tcpOutput (s := answering o syn iss env ticks) hflags
    (foretells_surroundings _ _ []) hidle
  unfold answering at hsent
  unfold tcpListenInput at hp
  unfold SendEngine.tcpListenInput at hs
  generalize tcpEnqueueFlags (newPcb o syn iss (toldSyn o syn iss env ticks) ticks) true false =
    r at hp hsent
  generalize tcpEnqueueFlags (newPcb o syn iss env ticks) true false = r' at hs hsent
  obtain ⟨q, err⟩ := r
  obtain ⟨q', err'⟩ := r'
  dsimp only at hsent hp hs
  cases err with
  | ok =>
    cases err' with
    | ok =>
      obtain rfl := Option.some.inj hp
      obtain rfl := Option.some.inj hs
      exact ⟨_, hsent.shows⟩
    | _ => cases hs
  | _ => cases hp

lemma inStep_open (hsyn : syn.syn = true) (hj : openBoth o syn iss env ticks tf = some j) :
    InStep j ∧ ∃ s, j.sender = some s ∧ SendEngine.Opened syn iss s := by
  unfold openBoth at hj
  split at hj
  · next pcb s hp hs =>
    obtain rfl := Option.some.inj hj
    have hinit : Initial (opened pcb tf) := ⟨syn, iss, _, ticks, tf, pcb, hp, hsyn, rfl⟩
    have hsound := sound_initial hinit
    have hfree : pcb.rx.refusedData = none := by
      have hok := hsound.wf.pcb pcb rfl
      exact (hok.unread (hok.fresh.1 rfl)).2.1
    exact ⟨⟨hsound, hfree, agree_listenInput hp hs⟩, s, rfl, hsyn, env, ticks, hs⟩
  · cases hj

lemma inStep_run (hj : InStep j) {hs : List Happening} (hok : Runs.Along jointStep Obliging j hs) :
    InStep (Runs.run jointStep j hs) :=
  Runs.invariant jointStep InStep (fun _ h hk ho => inStep_step hk h ho) hj hok

lemma sender_run (j : Joint o) (hs : List Happening) :
    ∃ es, (Runs.run jointStep j hs).sender = Runs.run SendEngine.step j.sender es := by
  induction hs generalizing j with
  | nil => exact ⟨[], rfl⟩
  | cons h hs ih =>
    obtain ⟨es, hes⟩ := ih (jointStep j h)
    refine ⟨heard j.stack h ++ es, ?_⟩
    rw [Runs.run_cons, hes, Runs.run_append]
    rfl

/-- The stack, told what the send engine computes, and the send engine, told what the connection of
the stack does, have the same pcb over any run in which the application takes its data and does not
abort. -/
theorem stack_shows_engine (hsyn : syn.syn = true) (hj : openBoth o syn iss env ticks tf = some j)
    {hs : List Happening} (hok : Runs.Along jointStep Obliging j hs) :
    Agree (Runs.run jointStep j hs).stack.pcb (Runs.run jointStep j hs).sender :=
  (inStep_run (inStep_open hsyn hj).1 hok).agree

/-- Both machines have answered `openingSyn`. -/
def bothOpen : Joint .ios :=
  (openBoth .ios openingSyn 6510 calmEnv 0 calmTf).get (by decide +kernel)

lemma bothOpen_eq : openBoth .ios openingSyn 6510 calmEnv 0 calmTf = some bothOpen :=
  (Option.some_get _).symm

/-- Data in both directions; ours has to be retransmitted before it is acknowledged. -/
def exchange : List Happening :=
  [.segment (ackSegment 101 6511), .app .runConnectionsBlock, .app (.setHandlers readers),
    .app (.api .markActive), .app (.api (.setInboundDeliveryEnabled true)), .segment fiveBytes,
    .app (.api (.acknowledgeDeliveredBytes 5)), .app (.api (.writeBytes [1, 2, 3])), .fasttmr] ++
  List.replicate 8 (.slowtmr 0) ++
  [.segment (ackSegment 106 6514), .app (.api .shutdownWrite), .segment (ackSegment 106 6515)]

theorem stack_shows_engine_exchange :
    let j := Runs.run jointStep bothOpen exchange
    Agree j.stack.pcb j.sender ∧ j.stack.pcb.map (·.state) = some .finWait2 ∧
      j.sender.map (·.wire.length) = some 4 :=
  ⟨stack_shows_engine rfl bothOpen_eq (by decide +kernel), by decide +kernel, by decide +kernel⟩

/-- What holds of every run of the send engine so holds of the stack: here, of its send buffer. -/
theorem stack_send_books (hsyn : syn.syn = true) (hj : openBoth o syn iss env ticks tf = some j)
    {hs : List Happening} (hok : Runs.Along jointStep Obliging j hs) {p : Pcb o}
    (hp : (Runs.run jointStep j hs).stack.pcb = some p) (hl : p.list = .active) :
    SendEngine.Balanced o.tcpSndBuf p.tx := by
  obtain ⟨hstep, s, hs₀, hopened⟩ := inStep_open hsyn hj
  have hagree := (inStep_run hstep hok).agree
  obtain ⟨es, hes⟩ := sender_run j hs
  have hledger := SendEngine.opened_keeps (g := {}) (I := SendEngine.Ledger)
    (fun _ _ => SendEngine.ledger_move)
    (fun _ hf _ => hf.ledger) hopened
      (Runs.along_of_forall SendEngine.step SendEngine.respects_free (some s) es)
  rw [hes, hs₀, hp] at hagree
  generalize Runs.run SendEngine.step (some s) es = out at hagree hledger
  cases out with
  | none => exact hagree.elim
  | some t =>
    obtain ⟨env', t', b, rfl⟩ := hagree
    exact hledger.books hl

/-- Three bytes are in flight. -/
theorem stack_send_books_exchange :
    ∃ p, (Runs.run jointStep bothOpen (exchange.take 8)).stack.pcb = some p ∧ p.tx.sndBuf = 16381 ∧
      SendEngine.Balanced Platform.ios.tcpSndBuf p.tx := by
  have hpcb : (Runs.run jointStep bothOpen (exchange.take 8)).stack.pcb.map
      (fun p => (p.list, p.tx.sndBuf)) =
      some (.active, 16381) := by decide +kernel
  obtain ⟨p, hp, hfields⟩ := Option.map_eq_some_iff.1 hpcb
  obtain ⟨hl, hbuf⟩ := Prod.mk.inj hfields
  exact ⟨p, hp, hbuf, stack_send_books rfl bothOpen_eq (by decide +kernel) hp hl⟩

end Opening

end TunForge.SendRefinement
