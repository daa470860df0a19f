import TunForge.InflowCalls
import TunForge.SendSegments

/-! The calls of the application, as the running stack makes them and as the send engine hears of
them. -/
namespace TunForge.SendCalls
open SerialNumber PbufChain LwipTypes TcpOut TcpIn Tcp Connection Callbacks Stack
open OrdinarySteps WellFormed PcbFrames InputCases Inflow SendAgreement SendOutputs SendSegments
open SendEngine (Sender)

variable {o : Platform} {y : State o}

/-- The pieces in which `acknowledgeDeliveredBytes:` credits `remaining` bytes. -/
def pieces : ℕ → ℕ → List ℕ
  | 0, _ => []
  | fuel + 1, remaining =>
    if remaining = 0 then []
    else min remaining 0xFFFF :: pieces fuel (remaining - min remaining 0xFFFF)

/-- What the send engine hears of a method call: the calls of the raw API it leads to. -/
def heardCall (x : State o) : ApiCall → List SendEngine.Event
  | .acknowledgeDeliveredBytes bytes =>
    if !x.conn.alive || !x.conn.pcb then []
    else if x.conn.state ≠ .active then []
    else if bytes = 0 ∨ x.conn.inflightAckBytes = 0 then []
    else
      let credit := min bytes x.conn.inflightAckBytes
      (pieces credit credit).map .recved
  | .writeBytes bytes | .writeData bytes =>
    if bytes = [] then []
    else if 0xFFFF < bytes.length then []
    else if !x.conn.alive || !x.conn.pcb || x.conn.state ≠ .active || x.conn.writeFIN then []
    else [.write bytes]
  | .shutdownWrite =>
    if !x.conn.alive || !x.conn.pcb then []
    else if x.conn.state = .closed then []
    else if x.conn.writeFIN then []
    else [.shutdown, .output]
  | .gracefulClose => if !x.conn.alive || !x.conn.pcb then [] else [.close]
  | .markActive | .setInboundDeliveryEnabled _ | .abort => []

section Calls

variable {p : Pcb o} {s s₀ : Sender o} {outputs : List (Sender o)}

lemma agree_of_prepared (h : Prepared s₀ outputs p s.pcb) : Agree (some p) (some s) := by
  obtain ⟨env, ht, -⟩ := h
  exact ⟨env, ht.shows⟩

lemma agree_unmoved (hp : y.pcb = some p) (h : Prepared s₀ outputs p s.pcb) :
    Agree y.pcb (some s) := by
  rw [hp]
  exact agree_of_prepared h

lemma placed_of_alive (hw : Wf y) (ha : y.conn.alive = true) (hp : y.pcb = some p) : Placed p := by
  have hok := hw.pcb p hp
  refine placed_of_pcbOk hok fun hs => ?_
  have hdead := (hw.coherent.fresh (hok.fresh.2 hs)).2.1
  rw [ha] at hdead
  cases hdead

lemma inputPcb_of_prepared (h : Prepared s₀ outputs p s.pcb) (hpl : Placed p) :
    s.pcb.inputPcb = false := by
  obtain ⟨env, ⟨⟨t, b, heq⟩, -, -⟩, -⟩ := h
  have hin := hpl.input
  rw [heq] at hin
  exact hin

lemma taken_of_prepared (h : Prepared s₀ outputs p s.pcb) (hpl : Placed p) :
    s.pcb.state ≠ .synRcvd := by
  obtain ⟨env, ht, -⟩ := h
  exact ht.state_eq ▸ hpl.live.2.2.2

lemma recvedLoop_pcb (fuel n : ℕ) (x : State o) :
    (recvedLoop fuel n x).pcb = x.pcb.map fun p => (pieces fuel n).foldl tcpRecved p := by
  induction fuel generalizing n x with
  | zero => simp [recvedLoop, pieces]
  | succ fuel ih =>
    unfold recvedLoop pieces
    split_ifs
    · simp
    · rw [ih]
      simp only [Sys.callLwip, Option.map_map]
      rfl

lemma agree_recved (ns : List ℕ) (h : Prepared s₀ (outputsAlong (some s) (ns.map .recved)) p s.pcb)
    (hpl : Placed p) :
    Agree (some (ns.foldl tcpRecved p)) (Runs.run SendEngine.step (some s) (ns.map .recved)) := by
  induction ns generalizing p s with
  | nil => exact agree_of_prepared h
  | cons n ns ih =>
    have hidle := inputPcb_of_prepared h hpl
    have hstep : SendEngine.step (some s) (.recved n) = some (SendEngine.tcpRecved n s) :=
      congrArg some (if_neg (taken_of_prepared h hpl))
    rw [List.map_cons, outputsAlong, hstep] at h
    rw [List.map_cons, Runs.run_cons, hstep, List.foldl_cons]
    exact ih (Prepared.recved n h hidle) (hpl.of_core (tcpRecved_frame p n).1)

lemma alive_of_guard {a b : Bool} (h : ¬(!a || !b) = true) : a = true := by
  cases a
  · simp at h
  · rfl

lemma agree_acknowledge (hw : Wf y) (hp : y.pcb = some p) (n : ℕ)
    (h : Prepared s (outputsAlong (some s) (heardCall y (.acknowledgeDeliveredBytes n))) p s.pcb) :
    Agree (acknowledgeDeliveredBytes n y).pcb
      (Runs.run SendEngine.step (some s) (heardCall y (.acknowledgeDeliveredBytes n))) := by
  unfold heardCall at h ⊢
  unfold acknowledgeDeliveredBytes
  dsimp only at h ⊢
  split_ifs at h ⊢ with hgone hstate hzero
  · exact agree_unmoved hp h
  · exact agree_unmoved hp h
  · exact agree_unmoved hp h
  · have hpl := placed_of_alive hw (alive_of_guard hgone) hp
    have hloop := recvedLoop_pcb (min n y.conn.inflightAckBytes) (min n y.conn.inflightAckBytes) y
    rw [hp] at hloop
    change Agree (recvedLoop _ _ y).pcb _
    rw [hloop]
    exact agree_recved _ h hpl

lemma agree_writeBytes (hw : Wf y) (hp : y.pcb = some p) (bytes : Bytes)
    (hfatal : fatalWrite y bytes = false)
    (h : Prepared s (outputsAlong (some s) (heardCall y (.writeBytes bytes))) p s.pcb) :
    Agree (writeBytes bytes y).1.pcb
      (Runs.run SendEngine.step (some s) (heardCall y (.writeBytes bytes))) := by
  unfold fatalWrite at hfatal
  unfold heardCall at h ⊢
  unfold writeBytes at hfatal ⊢
  dsimp only at h ⊢
  split_ifs at h hfatal ⊢ with hnil hlong hgone
  · exact agree_unmoved hp h
  · exact agree_unmoved hp h
  · exact agree_unmoved hp h
  · have halive : y.conn.alive = true := by
      simp only [Bool.or_eq_true, not_or] at hgone
      simpa using hgone.1.1.1
    have hpl := placed_of_alive hw halive hp
    have hidle := inputPcb_of_prepared h hpl
    have hstep : SendEngine.step (some s) (.write bytes) = some (SendEngine.write bytes s) :=
      congrArg some (if_neg (taken_of_prepared h hpl))
    rw [outputsAlong, hstep] at h
    rw [Runs.run_cons, hstep, Runs.run_nil]
    have hwrite := (Prepared.write bytes h hidle).2
    have hraw : (RawApi.write p bytes : Pcb o × Err) = tcpWrite p bytes := rfl
    rw [hp, Option.map_some, hraw] at hfatal ⊢
    generalize tcpWrite p bytes = r at hwrite hfatal ⊢
    obtain ⟨q, err⟩ := r
    cases err with
    | ok =>
      rw [if_pos rfl] at hwrite
      dsimp only
      rw [updateWritableLocked_pcb]
      simp only [Sys.callLwip, hp, Option.map_some]
      exact agree_of_prepared hwrite
    | mem =>
      rw [if_neg (by simp)] at hwrite
      dsimp only
      rw [updateWritableLocked_pcb]
      simp only [Sys.callLwip, hp, Option.map_some]
      exact agree_of_prepared hwrite
    | _ => simp at hfatal

lemma agree_shutdownWrite (hw : Wf y) (hp : y.pcb = some p)
    (h : Prepared s (outputsAlong (some s) (heardCall y .shutdownWrite)) p s.pcb) :
    Agree (shutdownWrite y).pcb
      (Runs.run SendEngine.step (some s) (heardCall y .shutdownWrite)) := by
  unfold heardCall at h ⊢
  unfold shutdownWrite
  dsimp only at h ⊢
  split_ifs at h ⊢ with hgone hstate hfin
  · exact agree_unmoved hp h
  · exact agree_unmoved hp h
  · exact agree_unmoved hp h
  · have hpl := placed_of_alive hw (alive_of_guard hgone) hp
    have hidle := inputPcb_of_prepared h hpl
    have hstep : SendEngine.step (some s) .shutdown = some (SendEngine.tcpShutdownTx s) :=
      congrArg some (if_neg (taken_of_prepared h hpl))
    rw [outputsAlong, hstep] at h
    rw [Runs.run_cons, hstep]
    have hshut := Prepared.shutdownTx h hidle
    have hkeep := inputPcb_of_prepared hshut (StackRuns.placed_tcpShutdownTx hpl).1
    have hout := Prepared.output hshut hkeep
    simp only [Sys.callLwip, hp, Option.map_some]
    exact agree_of_prepared hout

lemma closeSucceeded_pcb (x : State o) : (closeSucceeded x).pcb = x.pcb := by
  unfold closeSucceeded terminateLocked
  split_ifs <;> rfl

lemma gracefulClose_over (hw : Wf y) (hgone : (!y.conn.alive || !y.conn.pcb) = true) :
    gracefulClose y = y := by
  have hdead : y.conn.alive = false := by
    have hpcb := hw.coherent.pcb_eq
    cases ha : y.conn.alive with
    | false => rfl
    | true => simp [hpcb, ha] at hgone
  simp [gracefulClose, hdead]

lemma gracefulClose_open (hw : Wf y) (halive : y.conn.alive = true) :
    gracefulClose y = tryGracefulCloseLocked y ∧ y.conn.pcb = true ∧ y.conn.state ≠ .closed := by
  have hpcb : y.conn.pcb = true := hw.coherent.pcb_eq.trans halive
  refine ⟨?_, hpcb, fun hc => ?_⟩
  · unfold gracefulClose
    rw [if_neg (by simp [halive]), if_neg (by simp [hpcb])]
  · rw [hw.coherent.closed_iff.1 hc] at halive
    cases halive

lemma gracefulClose_freed (hw : Wf y) (halive : y.conn.alive = true) (hp : y.pcb = some p)
    (hc : tcpClose p = .freed) : (gracefulClose y).pcb = none := by
  obtain ⟨htry, hpcb, hopen⟩ := gracefulClose_open hw halive
  have hraw : (RawApi.close p : CloseOutcome (Pcb o)) = tcpClose p := rfl
  rw [htry]
  unfold tryGracefulCloseLocked
  rw [if_neg (by simp [halive, hopen]), if_neg (by simp [hpcb])]
  dsimp only
  rw [hp, Option.map_some, hraw, hc]
  dsimp only
  rw [closeSucceeded_pcb]
  rfl

lemma gracefulClose_returned {q : Pcb o} (hw : Wf y) (halive : y.conn.alive = true)
    (hp : y.pcb = some p) (hc : tcpClose p = .returned q .ok) :
    (gracefulClose y).pcb = some q := by
  obtain ⟨htry, hpcb, hopen⟩ := gracefulClose_open hw halive
  have hraw : (RawApi.close p : CloseOutcome (Pcb o)) = tcpClose p := rfl
  rw [htry]
  unfold tryGracefulCloseLocked
  rw [if_neg (by simp [halive, hopen]), if_neg (by simp [hpcb])]
  dsimp only
  rw [hp, Option.map_some, hraw, hc]
  dsimp only
  rw [closeSucceeded_pcb]
  simp only [Sys.callLwip, Option.map_some]

lemma agree_gracefulClose (hw : Wf y) (hp : y.pcb = some p)
    (h : Prepared s (outputsAlong (some s) (heardCall y .gracefulClose)) p s.pcb) :
    Agree (gracefulClose y).pcb
      (Runs.run SendEngine.step (some s) (heardCall y .gracefulClose)) := by
  unfold heardCall at h ⊢
  dsimp only at h ⊢
  split_ifs at h ⊢ with hgone
  · rw [gracefulClose_over hw hgone]
    exact agree_unmoved hp h
  · have halive := alive_of_guard hgone
    have hpl := placed_of_alive hw halive hp
    have hidle := inputPcb_of_prepared h hpl
    have hstep : SendEngine.step (some s) .close = SendEngine.tcpClose s :=
      if_neg (taken_of_prepared h hpl)
    rw [outputsAlong, hstep] at h
    rw [Runs.run_cons, hstep, Runs.run_nil]
    rcases Prepared.close h hidle with ⟨hfree, hnone⟩ | ⟨p', s', hret, hsome, hprep⟩
    · rw [gracefulClose_freed hw halive hp hfree, hnone]
      trivial
    · rw [gracefulClose_returned hw halive hp hret, hsome]
      exact agree_of_prepared hprep

lemma agree_markActive (hp : y.pcb = some p) (h : Prepared s₀ outputs p s.pcb) :
    Agree (markActive y).pcb (some s) := by
  have hback : Prepared s₀ outputs (tcpBacklogAccepted p) s.pcb := by
    refine h.map fun env ht => ?_
    obtain ⟨⟨t, b, rfl⟩, hm, hr⟩ := ht
    exact ⟨⟨t, _, rfl⟩, hm, hr⟩
  unfold markActive
  split_ifs
  · exact agree_unmoved hp h
  · exact agree_unmoved hp h
  · have hnotify : ∀ z : State o, (notifyActiveOnceLocked z).pcb = z.pcb := by
      intro z
      unfold notifyActiveOnceLocked
      split_ifs <;> rfl
    dsimp only
    rw [hnotify]
    simp only [Sys.callLwip, hp, Option.map_some]
    exact agree_of_prepared hback

lemma agree_apiCall (hw : Wf y) (hp : y.pcb = some p) (c : ApiCall)
    (hab : aborts y (.api c) = false)
    (h : Prepared s (outputsAlong (some s) (heardCall y c)) p s.pcb) :
    Agree (apiCall y c).pcb (Runs.run SendEngine.step (some s) (heardCall y c)) := by
  cases c with
  | markActive => exact agree_markActive hp h
  | setInboundDeliveryEnabled enabled =>
    change Agree y.pcb _
    rw [hp]
    exact agree_of_prepared h
  | acknowledgeDeliveredBytes n => exact agree_acknowledge hw hp n h
  | writeBytes bytes => exact agree_writeBytes hw hp bytes hab h
  | writeData data =>
    by_cases hlong : 0xFFFF < data.length
    · have hsame : apiCall y (.writeData data) = y := by simp [apiCall, writeData, hlong]
      have hno : heardCall y (.writeData data) = [] := by simp [heardCall, hlong]
      rw [hno] at h ⊢
      rw [hsame, hp]
      exact agree_of_prepared h
    · have hsame : apiCall y (.writeData data) = (writeBytes data y).1 := by
        simp [apiCall, writeData, hlong]
      rw [hsame]
      exact agree_writeBytes hw hp data hab h
  | shutdownWrite => exact agree_shutdownWrite hw hp h
  | gracefulClose => exact agree_gracefulClose hw hp h
  | abort => cases hab

/-- What the send engine hears of the application's events. -/
def heardApp (x : State o) : AppEvent → List SendEngine.Event
  | .api c => if held x then heardCall x c else []
  | _ => []

lemma appFlow_pcb {a : AppEvent} {w : View o} (h : AppFlow y a w) (hapi : ∀ c, a ≠ .api c)
    (hab : aborts y a = false) : w.pcb = y.pcb := by
  cases h with
  | worked | activated | enabled | acknowledged | closed | discarded => exact absurd rfl (hapi _)
  | aborted ha =>
    rw [hab] at ha
    cases ha
  | idle | handlers | ran | released | env => rfl

lemma agree_appStep (hw : Wf y) (hp : y.pcb = some p) (a : AppEvent) (hab : aborts y a = false)
    (h : Prepared s (outputsAlong (some s) (heardApp y a)) p s.pcb) :
    Agree (appStep y a).pcb (Runs.run SendEngine.step (some s) (heardApp y a)) := by
  have hother : (∀ c, a ≠ .api c) → (appStep y a).pcb = some p :=
    fun hapi => (appFlow_pcb (InflowCalls.flow_appStep hw a) hapi hab).trans hp
  cases a with
  | api c =>
    unfold heardApp at h ⊢
    unfold appStep
    dsimp only at h ⊢
    split_ifs at h ⊢
    · exact agree_apiCall hw hp c hab h
    · rw [hp]
      exact agree_of_prepared h
  | _ =>
    rw [hother (fun c => by simp)]
    exact agree_of_prepared h

end Calls

end TunForge.SendCalls
