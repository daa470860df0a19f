import TunForge.InputCases

/-! The running stack refines the boundary machine: every event is a run of
interactions across the boundary. -/
namespace TunForge.Refinement
open SerialNumber PbufChain LwipTypes TcpOut TcpIn Tcp Connection Callbacks Stack
open Boundary Termination OrdinarySteps BoundaryRule PcbFrames CalmSteps InputCases

variable {o : Platform} {s t u : State o} {ok : State o → Action (Pcb o) → Prop}

/-- An admitted run of the boundary machine leads from `s` to `t`. -/
def Via (ok : State o → Action (Pcb o) → Prop) (s t : State o) : Prop :=
  ∃ as, Runs.Along act ok s as ∧ Runs.run act s as = t

lemma Via.refl (s : State o) : Via ok s s := ⟨[], trivial, rfl⟩

lemma Via.trans (h : Via ok s t) (h' : Via ok t u) : Via ok s u := by
  obtain ⟨as, ha, rfl⟩ := h
  obtain ⟨bs, hb, rfl⟩ := h'
  exact ⟨as ++ bs, (Runs.along_append act).2 ⟨ha, hb⟩, Runs.run_append act s as bs⟩

lemma via_act {a : Action (Pcb o)} (h : ok s a) : Via ok s (act s a) := ⟨[a], ⟨h, trivial⟩, rfl⟩

/-- Conditions that only concern the removal of a pcb before its err callback, and of that only
the callbacks of the pcb and the existence of the object. -/
structure Admits (ok : State o → Action (Pcb o) → Prop) : Prop where
  mild : ∀ s a, (∀ gap, a ≠ .freeThenErr gap) → ok s a
  frame : ∀ s t gap, t.hooks = s.hooks → t.connExists = s.connExists → ok s (.freeThenErr gap) →
    ok t (.freeThenErr gap)
  silent : ∀ s gap, s.hooks.errf = false → ok s (.freeThenErr gap)

lemma admits_all : Admits (o := o) fun _ _ => True :=
  ⟨fun _ _ _ => trivial, fun _ _ _ _ _ _ => trivial, fun _ _ _ => trivial⟩

lemma modPcb_const {p : Pcb o} (hp : s.pcb = some p) (q : Pcb o) :
    modPcb (fun _ => q) s = { s with pcb := some q } := by
  simp [modPcb, hp]

section

variable (hok : Admits ok)
include hok

lemma via_of_calm (h : Calm s t) : Via ok s t := by
  obtain ⟨as, ha, rfl⟩ := h
  induction as generalizing s with
  | nil => exact .refl s
  | cons a as ih =>
    refine (via_act (hok.mild s a fun gap hg => ?_)).trans
      (ih fun b hb => ha b (List.mem_cons_of_mem _ hb))
    have := ha a List.mem_cons_self
    simp [hg, IsCalm] at this

lemma via_modPcb (f : Pcb o → Pcb o) : Via ok s (modPcb f s) := by
  have hact : act s (.lwip f) = modPcb f s := by
    cases h : s.pcb with
    | none => simp [act, h, modPcb_of_none]
    | some pcb => simp [act, lwipAct, modPcb, h]
  rw [← hact]
  exact via_act (hok.mild s _ (by simp))

lemma via_setPcb (hs : s.pcb.isSome = true) (q : Pcb o) : Via ok s { s with pcb := some q } := by
  obtain ⟨pcb, hpcb⟩ := Option.isSome_iff_exists.1 hs
  rw [← modPcb_const hpcb q]
  exact via_modPcb hok _

lemma via_removeAndFree (hs : s.pcb.isSome = true) : Via ok s (removeAndFree s) := by
  refine (via_modPcb hok fun pcb => { tcpPcbPurge pcb with
    state := .closed, list := .unlisted }).trans ?_
  have hact : act (modPcb (fun pcb : Pcb o => { tcpPcbPurge pcb with
      state := .closed, list := .unlisted }) s) .free =
      removeAndFree s := by
    simp [act, lwipAct, removeAndFree, modPcb, hs]
  rw [← hact]
  exact via_act (hok.mild _ _ (by simp))

lemma via_eventErr (hs : s.pcb.isSome = true) (err : Err) : Via ok s (eventErr s.hooks err s) := by
  have hact : act s (.err err) = eventErr s.hooks err s := by simp [act, lwipAct, hs]
  rw [← hact]
  exact via_act (hok.mild _ _ (by simp))

lemma via_delayedClose (hs : s.pcb.isSome = true) : Via ok s (delayedClose s) := by
  unfold delayedClose
  split_ifs
  · exact via_removeAndFree hok hs
  · refine (via_eventErr hok hs .clsd).trans (via_removeAndFree hok ?_)
    rwa [eventErr_pcb]

lemma via_tcpAbandon {gap : Bool} (hgap : (∃ pcb, s.pcb = some pcb ∧ pcb.state ≠ .timeWait) →
    ok s (.freeThenErr gap)) :
    Via ok s (tcpAbandon gap s) := by
  unfold tcpAbandon
  split
  · exact .refl s
  · next pcb hpcb =>
    have hs : s.pcb.isSome = true := by simp [hpcb]
    split_ifs with htw
    · have hact : act s .free = tcpFree s := by simp [act, lwipAct, hs]
      rw [← hact]
      exact via_act (hok.mild _ _ (by simp))
    · have hact : act s (.freeThenErr gap) = freeThenErr gap s := by simp [act, lwipAct, hs]
      rw [← hact]
      refine via_act (hgap ⟨pcb, hpcb, ?_⟩)
      simpa [RawApi.inTimeWait] using htw

lemma via_inputTail {r : Processed o} (hs : s.hooks.recv ≠ .recvNull) (hp : s.pcb.isSome = true)
    (hgap : r.pcb.rxClosed = true → r.recvData.isSome = true →
      ok s (.freeThenErr s.env.releaseInGap)) :
    Via ok s (inputTail r s) := by
  have hset : Via ok s ({ s with pcb := some r.pcb } : State o) := via_setPcb hok hp r.pcb
  have hu : Taken ({ s with pcb := some r.pcb } : State o) := ⟨rfl, hs⟩
  refine hset.trans ?_
  rcases inputTail_cases (r := r) hs with
    ⟨-, heq⟩ | ⟨-, -, v, hv, heq⟩ | ⟨-, hrx, hd, v, hv, heq⟩ | ⟨-, -, v, hv, heq⟩ <;>
    rw [heq]
  · refine (via_eventErr hok rfl .rst).trans (via_removeAndFree hok ?_)
    rw [eventErr_pcb]
    rfl
  · exact (via_of_calm hok hv).trans (via_delayedClose hok ((hv.steady hu).taken hu).isSome)
  · have hst := hv.steady hu
    refine (via_of_calm hok hv).trans (via_tcpAbandon hok fun _ => ?_)
    rw [hst.env]
    exact hok.frame s v _ hst.hooks hst.exist (hgap hrx hd)
  · exact (via_of_calm hok hv).trans ((via_modPcb hok _).trans (via_modPcb hok _))

lemma via_tunforgeAccept (hh : s.hooks = openedHooks) (hp : s.pcb.isSome = true) :
    Via ok s (tunforgeAccept s).1 := by
  have hact : act s .accept = (tunforgeAccept s).1 := by simp [act, lwipAct, hp, hh, openedHooks]
  rw [← hact]
  exact via_act (hok.mild _ _ (by simp))

lemma via_free (hp : s.pcb.isSome = true) : Via ok s (tcpFree s) := by
  have hact : act s .free = tcpFree s := by simp [act, lwipAct, hp]
  rw [← hact]
  exact via_act (hok.mild _ _ (by simp))

lemma via_acceptAndProcess (hw : Wf s) {pcb : Pcb o} {seg : Segment} (hpcb : s.pcb = some pcb)
    (hs : pcb.state = .synRcvd) :
    Via ok s (acceptAndProcess (noteActivity (atInput pcb) seg) seg s) := by
  have hp : s.pcb.isSome = true := by simp [hpcb]
  have hpok := hw.pcb pcb hpcb
  have hhooks : s.hooks = openedHooks := hpok.fresh.2 hs
  have hset : Via ok s ({ s with pcb := some (atAccept pcb seg) } : State o) := via_setPcb hok hp _
  have hacc := hset.trans (via_tunforgeAccept hok
    (s := { s with pcb := some (atAccept pcb seg) }) hhooks rfl)
  rcases acceptAndProcess_cases hw seg hpcb hs with
    ⟨-, heq⟩ | ⟨-, -, heq⟩ | ⟨-, hst, hdel, heq⟩ <;> rw [heq]
  · rw [← tcpFree_of_bare (by simp [hhooks, openedHooks])]
    exact via_free hok hp
  · exact hacc
  · rw [tunforgeAccept_made (s := ({ s with pcb := some (atAccept pcb seg) } : State o)) hhooks rfl
      hst hdel] at hacc
    refine hacc.trans (via_inputTail hok ?_ ?_ fun hrx => ?_)
    · simp [Sys.post, madeConnection, initWithTCPPcb, setupPcb, attachedHooks]
    · simp [Sys.post, madeConnection, initWithTCPPcb, setupPcb, Sys.callLwip]
    · exfalso
      have hcore := core_atAccept pcb seg
      have hdel := (same_tcpBacklogDelayed (atAccept pcb seg)).1
      have hst : (tcpBacklogDelayed (atAccept pcb seg)).state = .established := by
        rw [(state_of_core hdel)]; rfl
      obtain ⟨st, -, hc⟩ := core_processEstablished seg hst
      have hrx' : (core (processEstablished
          (tcpBacklogDelayed (atAccept pcb seg)) seg).pcb).rxClosed = pcb.rxClosed := by
        rw [hc, hdel, hcore]
        rfl
      have hopen : pcb.rxClosed = false := (hpok.unread hs).1
      have : (processEstablished (tcpBacklogDelayed (atAccept pcb seg)) seg).pcb.rxClosed =
          pcb.rxClosed := hrx'
      rw [this, hopen] at hrx
      cases hrx

lemma via_tcpInput (hw : Wf s) (seg : Segment)
    (hgap : ∀ pcb, s.pcb = some pcb → pcb.list = .active → pcb.rxClosed = true → 0 < seg.tcplen →
      ok s (.freeThenErr s.env.releaseInGap)) : Via ok s (tcpInput seg s) := by
  -- a segment reaches the late err callback only through a pcb closed for receiving
  cases hpcb : s.pcb with
  | none =>
    simp only [tcpInput, hpcb]
    exact .refl s
  | some pcb =>
    have hp : s.pcb.isSome = true := by simp [hpcb]
    have hpok := hw.pcb pcb hpcb
    rcases hpok.listed with ⟨hl, -⟩ | ⟨hl, -⟩
    · by_cases hs : pcb.state = .synRcvd
      · rcases tcpInput_fresh hw seg hpcb hs with
          ⟨-, -, heq⟩ | ⟨q, heq⟩ | ⟨q, w, -, -, -, -, heq⟩ <;> rw [heq]
        · exact via_acceptAndProcess hok hw hpcb hs
        · exact (via_setPcb hok hp q).trans (via_removeAndFree hok rfl)
        · exact via_setPcb hok hp _
      · have htaken := hw.taken hpcb hs
        have hcalm : Calm s (tcpProcessRefusedData s) := calm_tcpProcessRefusedData htaken.recv
        have hst := hcalm.steady htaken
        obtain ⟨q, hq, hcore, hcase⟩ := tcpInput_taken hw seg hpcb hl hs
        refine (via_of_calm hok hcalm).trans ?_
        rcases hcase with ⟨-, -, heq⟩ | ⟨-, heq⟩ <;> rw [heq]
        · exact via_modPcb hok _
        · refine via_inputTail hok (hst.taken htaken).recv (hst.taken htaken).isSome fun hrx hd =>
            ?_
          have hrec : Receives (atInput q) := receives_atInput hcore (hpok.receives hl hs)
          have hrxq : q.rxClosed = true := (place_tcpProcess seg hrec).1.1 ▸ hrx
          rw [hst.env]
          refine hok.frame s _ _ hst.hooks hst.exist
            (hgap pcb hpcb hl ?_ (tcplen_of_recvData hrec hd))
          exact (rxClosed_of_core hcore) ▸ hrxq
    · rw [tcpInput_timeWait _ hpcb hl]
      exact via_modPcb hok _

lemma via_tcpFasttmr (hw : Wf s) : Via ok s (tcpFasttmr s) := by
  unfold tcpFasttmr
  split
  · exact .refl s
  · next pcb hpcb =>
    split_ifs
    · refine (via_modPcb hok fasttmrSend).trans ?_
      by_cases hs : pcb.state = .synRcvd
      · have href : refused (modPcb fasttmrSend s) = none := by
          have hin := congrArg Inbox.refusedData (inbox_fasttmrSend pcb)
          simp only [inbox] at hin
          simp [refused, modPcb, hpcb, hin, ((hw.pcb pcb hpcb).unread hs).2.1]
        unfold tcpProcessRefusedData
        rw [href]
        exact .refl _
      · exact via_of_calm hok (calm_tcpProcessRefusedData (hw.taken hpcb hs).recv)
    · exact .refl s

lemma via_pollPcb (hp : s.pcb.isSome = true) (pcb : Pcb o) : Via ok s (pollPcb pcb s) := by
  simp only [pollPcb]
  split_ifs
  · have hset : Via ok s ({ s with pcb := some { pcb with polltmr := 0 } } : State o) :=
      via_setPcb hok hp _
    have hact : act ({ s with pcb := some { pcb with polltmr := 0 } } : State o) .poll =
        eventPoll ({ s with pcb := some { pcb with polltmr := 0 } } : State o) := by
          simp [act, lwipAct]
    refine hset.trans (Via.trans ?_ (via_modPcb hok _))
    rw [← hact]
    exact via_act (hok.mild _ _ (by simp))
  · exact via_setPcb hok hp _

def tick (pcb : Pcb o) : Pcb o := { pcb with ticks := pcb.ticks + 1 }

lemma via_tcpSlowtmr (hgap : ∀ pcb, s.pcb = some pcb → pcb.list = .active →
    slowtmrRemoves (tick pcb) = true →
    ok s (.freeThenErr s.env.releaseInGap)) : Via ok s (tcpSlowtmr s) := by
  refine (via_modPcb hok tick).trans ?_
  have hmod : modPcb (fun pcb : Pcb o => { pcb with ticks := pcb.ticks + 1 }) s = modPcb tick s :=
    rfl
  simp only [tcpSlowtmr, hmod]
  cases hpcb : s.pcb with
  | none =>
    have hnone : (modPcb tick s).pcb = none := by simp [modPcb, hpcb]
    rw [hnone]
    exact .refl _
  | some pcb =>
    have hsome : (modPcb tick s).pcb = some (tick pcb) := by simp [modPcb, hpcb]
    have hp : (modPcb tick s).pcb.isSome = true := by simp [hsome]
    rw [hsome]
    dsimp only
    split
    · next hl =>
      split_ifs with hr
      · have hact : act (modPcb tick s) (.freeThenErr s.env.releaseInGap) =
            freeThenErr s.env.releaseInGap (modPcb tick s) := by simp [act, lwipAct, hp]
        change Via ok _ (freeThenErr s.env.releaseInGap (modPcb tick s))
        rw [← hact]
        exact via_act (hok.frame s _ _ rfl rfl (hgap pcb hpcb hl hr))
      · exact via_pollPcb hok hp _
    · split_ifs
      · exact via_free hok hp
      · exact .refl _
    · exact .refl _

/-- The events in which lwIP frees the pcb before it reports the abort: data for a pcb closed for
receiving, removal by the slow timer, and pcbs sacrificed or aborted while active. -/
def mayAbandon (s : State o) : Event → Bool
  | .segment seg => s.pcb.any fun pcb => pcb.list = .active ∧ pcb.rxClosed ∧ 0 < seg.tcplen
  | .slowtmr => s.pcb.any fun pcb => pcb.list = .active ∧ slowtmrRemoves (tick pcb)
  | .killState =>
    s.pcb.any fun pcb => pcb.list = .active ∧ (pcb.state = .lastAck ∨ pcb.state = .closing)
  | .netifIpAddrChanged => s.pcb.any fun pcb => pcb.list = .active
  | _ => false

/-- Every event of the running stack is a run of the boundary machine. -/
theorem refines_boundary (hw : Wf s) (e : Event)
    (hgap : mayAbandon s e = true → ok s (.freeThenErr s.env.releaseInGap)) :
    Via ok s (step s e) := by
  cases e with
  | segment seg =>
    refine via_tcpInput hok hw seg fun pcb hpcb hl hrx hlen => hgap ?_
    simp [mayAbandon, hpcb, hl, hrx, hlen]
  | fasttmr => exact via_tcpFasttmr hok hw
  | slowtmr =>
    refine via_tcpSlowtmr hok fun pcb hpcb hl hr => hgap ?_
    simp [mayAbandon, hpcb, hl, hr]
  | rexmitRto => exact via_modPcb hok _
  | persist keep => exact via_modPcb hok _
  | handleClosepend => exact via_modPcb hok _
  | killTimewait =>
    simp only [step, killTimewait]
    split_ifs with hk
    · refine via_tcpAbandon hok ?_
      rintro ⟨pcb, hpcb, hne⟩
      rcases (hw.pcb pcb hpcb).listed with ⟨hl, -⟩ | ⟨-, hst⟩
      · simp [hpcb, hl] at hk
      · exact absurd hst hne
    · exact .refl s
  | killState =>
    simp only [step, killState]
    split_ifs with hk
    · exact via_tcpAbandon hok fun _ => hgap hk
    · exact .refl s
  | netifIpAddrChanged =>
    simp only [step, netifIpAddrChanged]
    split_ifs with hk
    · exact via_tcpAbandon hok fun _ => hgap hk
    · exact .refl s
  | listenerClosed => exact via_modPcb hok _
  | app e =>
    have hact : act s (.app e) = appStep s e := rfl
    simp only [step]
    rw [← hact]
    exact via_act (hok.mild _ _ (by simp))
  | env env => exact via_modPcb hok _

end

end TunForge.Refinement
