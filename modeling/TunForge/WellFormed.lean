import TunForge.Refinement

/-! Every reachable state of the running stack is well formed. -/
namespace TunForge.WellFormed
open SerialNumber PbufChain LwipTypes TcpOut TcpIn Tcp Connection Callbacks Stack
open Boundary Termination OrdinarySteps BoundaryRule Lifecycle PcbFrames CalmSteps InputCases
  Refinement

variable {o : Platform} {s t : State o}

lemma coherent_step (hw : Wf s) (e : Event) : Coherent (step s e) := by
  obtain ⟨as, -, heq⟩ := refines_boundary admits_all hw e fun _ => trivial
  rw [← heq]
  exact coherent_run hw.coherent as

structure Placed (pcb : Pcb o) : Prop where
  input : pcb.inputPcb = false
  live : pcb.state ≠ .closed ∧ pcb.state ≠ .listen ∧ pcb.state ≠ .synSent ∧ pcb.state ≠ .synRcvd
  listed : (pcb.list = .active ∧ pcb.state ≠ .timeWait) ∨
    (pcb.list = .timeWait ∧ pcb.state = .timeWait)

lemma Placed.pcbOk {pcb : Pcb o} {hooks : Hooks} (h : Placed pcb) (hh : hooks ≠ openedHooks) :
    PcbOk hooks pcb :=
  ⟨h.input, ⟨h.live.1, h.live.2.1, h.live.2.2.1⟩, h.listed,
    ⟨fun hf => absurd hf hh, fun hs => absurd hs h.live.2.2.2⟩, fun hs => absurd hs h.live.2.2.2⟩

lemma placed_of_pcbOk {pcb : Pcb o} {hooks : Hooks} (h : PcbOk hooks pcb)
    (hs : pcb.state ≠ .synRcvd) : Placed pcb :=
  ⟨h.input, ⟨h.live.1, h.live.2.1, h.live.2.2, hs⟩, h.listed⟩

lemma Placed.of_core {p q : Pcb o} (h : Placed p) (hc : core q = core p) : Placed q := by
  obtain ⟨h1, h2, h3⟩ := h
  rw [← state_of_core hc] at h2 h3
  rw [← list_of_core hc] at h3
  exact ⟨(inputPcb_of_core hc).trans h1, h2, h3⟩

lemma Placed.receives {p : Pcb o} (h : Placed p) (hl : p.list = .active) : Receives p :=
  PcbOk.receives (h.pcbOk (by simp [attachedHooks, openedHooks]) : PcbOk attachedHooks _) hl
    h.live.2.2.2

lemma Placed.shutdown {p : Pcb o} (h : Placed p) : Placed (tcpCloseShutdownFin p) := by
  rcases core_tcpCloseShutdownFin p with ⟨b, hc⟩ | ⟨st, hst, hc⟩
  · have hc' : core (tcpCloseShutdownFin p) = core ({ p with closePend := b } : Pcb o) := hc
    have hp : Placed ({ p with closePend := b } : Pcb o) := ⟨h.input, h.live, h.listed⟩
    exact hp.of_core hc'
  · have hc' : core (tcpCloseShutdownFin p) = core ({ p with state := st } : Pcb o) := hc
    refine Placed.of_core ?_ hc'
    have hl : p.list = .active := by
      rcases h.listed with ⟨hl, -⟩ | ⟨-, htw⟩
      · exact hl
      · simp [closeTarget, htw] at hst
    have hne : p.state ≠ .synRcvd := h.live.2.2.2
    refine ⟨h.input, ?_, .inl ⟨hl, ?_⟩⟩ <;>
      revert hst hne <;> cases p.state <;> simp [closeTarget] <;> rintro rfl <;> simp

lemma wf_of_none (hc : Coherent t) (hp : t.pcb = none) : Wf t :=
  ⟨hc, fun q hq => by simp [hp] at hq, fun q hq => by simp [hp] at hq⟩

lemma wf_of_some {q : Pcb o} (hc : Coherent t) (hq : t.pcb = some q) (hok : PcbOk t.hooks q)
    (hrx : q.rxClosed = true → Unattended t) : Wf t := by
  refine ⟨hc, fun p hp => ?_, fun p hp hr => ?_⟩
  · rw [hq] at hp
    cases hp
    exact hok
  · rw [hq] at hp
    cases hp
    exact hrx hr

lemma wf_of_same (h : Wf s) (hc : Coherent t) (hp : t.pcb = s.pcb) (hh : t.hooks = s.hooks)
    (hu : Unattended s → Unattended t) : Wf t := by
  refine ⟨hc, fun p hpcb => ?_, fun p hpcb hr => ?_⟩
  · rw [hp] at hpcb
    rw [hh]
    exact h.pcb p hpcb
  · rw [hp] at hpcb
    exact hu (h.rxClosed p hpcb hr)

lemma wf_modPcb {f : Pcb o → Pcb o} (h : Wf s) (hc : Coherent (modPcb f s))
    (hf : ∀ p, core (f p) = core p ∧ (f p).rx.refusedData = p.rx.refusedData) :
    Wf (modPcb f s) := by
  cases hp : s.pcb with
  | none =>
    rw [modPcb_of_none hp]
    exact h
  | some p =>
    have hr := rxClosed_of_core (hf p).1
    refine wf_of_some hc (q := f p) (by simp [modPcb, hp]) ?_ fun hrx => h.rxClosed p hp (hr ▸ hrx)
    exact (h.pcb p hp).of_core (hf p).1 (hf p).2

/-! ### Segments -/

/-- What is left of the pcb after a segment was processed: nothing, or the pcb that `tcp_process`
left, with the connection and its callbacks as they were. -/
lemma inputTail_pcb {r : Processed o} (hs : s.hooks.recv ≠ .recvNull) :
    (inputTail r s).pcb = none ∨
    ∃ q, (inputTail r s).pcb = some q ∧ core q = { core r.pcb with inputPcb := false } ∧
      r.pcb.closed = false ∧ r.reset = false ∧ (inputTail r s).hooks = s.hooks ∧
      (inputTail r s).connExists = s.connExists ∧ (inputTail r s).conn.alive = s.conn.alive := by
  have hu : Taken ({ s with pcb := some r.pcb } : State o) := ⟨rfl, hs⟩
  rcases inputTail_cases (r := r) hs with
    ⟨-, heq⟩ | ⟨-, -, v, hv, heq⟩ | ⟨-, -, -, v, hv, heq⟩ | ⟨hr, hcl, v, hv, heq⟩
  · left
    rw [heq]
    rfl
  · left
    rw [heq]
    rfl
  · left
    rw [heq]
    exact tcpAbandon_pcb ((hv.steady hu).taken hu).isSome
  · right
    have hst := hv.steady hu
    obtain ⟨q, hq, hcore⟩ := steady_pcb hst (p := r.pcb) rfl
    refine ⟨tcpOutput { q with inputPcb := false }, ?_, ?_, hcl, hr, ?_⟩
    · rw [heq]
      simp [modPcb, hq]
    · rw [(same_tcpOutput _).1]
      change { core q with inputPcb := false } = _
      rw [hcore]
    · rw [heq]
      exact ⟨hst.hooks, hst.exist, hst.alive⟩

lemma wf_of_steady (h : Wf s) (hst : Steady s t) (hc : Coherent t) {pcb : Pcb o}
    (hpcb : s.pcb = some pcb) (hs : pcb.state ≠ .synRcvd) : Wf t := by
  obtain ⟨q, hq, hcore⟩ := steady_pcb hst hpcb
  have hok := h.pcb pcb hpcb
  have hne : s.hooks ≠ openedHooks := fun hf => hs (hok.fresh.1 hf)
  refine wf_of_some hc hq (((placed_of_pcbOk hok hs).of_core hcore).pcbOk
    (by rw [hst.hooks]; exact hne)) fun hrx => ?_
  have hu := h.rxClosed pcb hpcb ((rxClosed_of_core hcore) ▸ hrx)
  unfold Unattended at hu ⊢
  rwa [hst.exist, hst.alive]

lemma placed_of_process {p q : Pcb o} {seg : Segment} (hp : Placed p) (hl : p.list = .active)
    (hcl : (tcpProcess (atInput p) seg).pcb.closed = false)
    (hq : core q = { core (tcpProcess (atInput p) seg).pcb with inputPcb := false }) :
    Placed q := by
  -- the pcb `tcp_process` leaves of one that receives is in order once input is over
  have hrec : Receives (atInput p) := receives_atInput (p := p) rfl (hp.receives hl)
  have hplace := (place_tcpProcess seg hrec).2
  revert hplace hq hcl
  generalize (tcpProcess (atInput p) seg).pcb = r
  intro hcl hq hplace
  simp only [core, Core.mk.injEq] at hq
  obtain ⟨hst, hli, -, -, hin, -, -⟩ := hq
  rcases hplace with ⟨h1, -, h2⟩ | ⟨h1, -, h2, -⟩ | ⟨-, h2, -⟩
  · have hq : Receives q := hrec.advance (hst ▸ h2)
    have hlive := hq.live
    exact ⟨hin, ⟨hlive.1, hlive.2.1, hlive.2.2.1, hlive.2.2.2.1⟩,
      .inl ⟨hli.trans (h1.trans hl), hlive.2.2.2.2⟩⟩
  · have hs : q.state = .timeWait := hst.trans h2
    exact ⟨hin, by simp [hs], .inr ⟨hli.trans h1, hs⟩⟩
  · rw [hcl] at h2
    cases h2

lemma wf_accepted (hw : Wf s) {pcb : Pcb o} {seg : Segment} (hpcb : s.pcb = some pcb)
    (hs : pcb.state = .synRcvd)
    (hc : Coherent (acceptAndProcess (noteActivity (atInput pcb) seg) seg s))
    (heq : t = acceptAndProcess (noteActivity (atInput pcb) seg) seg s) : Wf t := by
  -- the segment that completes the handshake leaves a well-formed stack
  subst heq
  have hok := hw.pcb pcb hpcb
  have hhooks : s.hooks = openedHooks := hok.fresh.2 hs
  rcases acceptAndProcess_cases hw seg hpcb hs with ⟨-, heq⟩ | ⟨-, hnone, heq⟩ | ⟨-, hst, hdel, heq⟩
  · rw [heq] at hc ⊢
    exact wf_of_none hc rfl
  · rw [heq] at hc ⊢
    refine wf_of_none hc ?_
    rcases tunforgeAccept_cases (s := ({ s with pcb := some (atAccept pcb seg) } : State o)) hhooks
      rfl with
      ⟨-, h⟩ | ⟨-, -, cs, -, h⟩ | ⟨hst, hdel, -⟩
    · rw [h]
    · rw [h]
      rfl
    · have hboth : s.env.stack = true ∧ s.env.delegate = true := ⟨hst, hdel⟩
      simp [hboth] at hnone
  · rw [heq] at hc ⊢
    rcases inputTail_pcb (r := processEstablished (tcpBacklogDelayed (atAccept pcb seg)) seg)
      (s := (madeConnection ({ s with pcb := some (atAccept pcb seg) } : State o)).post .accepted)
      (by simp [Sys.post, madeConnection, initWithTCPPcb, setupPcb, attachedHooks]) with
      hnone | ⟨q, hq, hcore, -, -, hh, -⟩
    · exact wf_of_none hc hnone
    · have hest : (tcpBacklogDelayed (atAccept pcb seg)).state = .established :=
        (state_of_core (same_tcpBacklogDelayed (atAccept pcb seg)).1)
      obtain ⟨st, hst, hproc⟩ := core_processEstablished seg hest
      rw [hproc, (same_tcpBacklogDelayed (atAccept pcb seg)).1, core_atAccept] at hcore
      simp only [core, Core.mk.injEq] at hcore
      obtain ⟨h1, h2, -, h4, h5, -, -⟩ := hcore
      have hl : pcb.list = .active := by
        rcases hok.listed with ⟨hl, -⟩ | ⟨-, ht⟩
        · exact hl
        · rw [hs] at ht
          cases ht
      refine wf_of_some hc hq (Placed.pcbOk ⟨h5, ?_, .inl ⟨h2.trans hl, ?_⟩⟩ ?_) fun hrx => ?_
      · rcases hst with rfl | rfl <;> simp [h1]
      · rcases hst with rfl | rfl <;> simp [h1]
      · rw [hh]
        simp [Sys.post, madeConnection, initWithTCPPcb, setupPcb, attachedHooks, openedHooks]
      · rw [h4, (hok.unread hs).1] at hrx
        cases hrx

lemma wf_segment (hw : Wf s) (seg : Segment) : Wf (tcpInput seg s) := by
  have hc : Coherent (tcpInput seg s) := coherent_step hw (.segment seg)
  cases hpcb : s.pcb with
  | none =>
    have heq : tcpInput seg s = s := by simp [tcpInput, hpcb]
    rw [heq]
    exact hw
  | some pcb =>
    have hok := hw.pcb pcb hpcb
    rcases hok.listed with ⟨hl, -⟩ | ⟨hl, -⟩
    · by_cases hs : pcb.state = .synRcvd
      · rcases tcpInput_fresh hw seg hpcb hs with
          ⟨-, -, heq⟩ | ⟨q, heq⟩ | ⟨q, w, -, hcore, hin, -, heq⟩
        · exact wf_accepted hw hpcb hs (heq ▸ hc) heq
        · rw [heq] at hc ⊢
          exact wf_of_none hc rfl
        · rw [heq] at hc ⊢
          have hsame := same_tcpOutput ({ q with inputPcb := false } : Pcb o)
          have hcore' : core (tcpOutput ({ q with inputPcb := false } : Pcb o)) =
              { core (atInput pcb) with inputPcb := false } := by
            rw [hsame.1, ← hcore]
            rfl
          have href : (tcpOutput ({ q with inputPcb := false } : Pcb o)).rx.refusedData =
            pcb.rx.refusedData :=
            congrArg Inbox.refusedData (hsame.2.trans hin)
          have hidle : core ({ pcb with closed := false } : Pcb o) = { core (atInput pcb) with
            inputPcb := false } := by
            simp [core, atInput, hok.input]
          refine wf_of_some hc rfl (PcbOk.of_core ?_ (hcore'.trans hidle.symm) href) fun hrx => ?_
          · exact ⟨hok.input, hok.live, hok.listed, hok.fresh, hok.unread⟩
          · have hopen := rxClosed_of_core (hcore'.trans hidle.symm)
            rw [hopen] at hrx
            exact absurd hrx (by simp [(hok.unread hs).1])
      · have htaken := hw.taken hpcb hs
        have hst := (calm_tcpProcessRefusedData htaken.recv).steady htaken
        have hne : s.hooks ≠ openedHooks := fun hf => hs (hok.fresh.1 hf)
        obtain ⟨q, hq, hcore, hcase⟩ := tcpInput_taken hw seg hpcb hl hs
        have hpl : Placed q := (placed_of_pcbOk hok hs).of_core hcore
        rcases hcase with ⟨-, -, heq⟩ | ⟨-, heq⟩
        · refine wf_of_steady hw ?_ hc hpcb hs
          rw [heq]
          refine hst.trans ((calm_modPcb fun p => ?_).steady (hst.taken htaken))
          split_ifs
          · exact (same_tcpSendEmptyAck p).1
          · rfl
        · rcases inputTail_pcb (r := tcpProcess (atInput q) seg) (hst.taken htaken).recv with
            hnone | ⟨p, hp, hcorep, hcl, -, hh, hex, hal⟩
          · rw [heq] at hc ⊢
            exact wf_of_none hc hnone
          · rw [heq] at hc ⊢
            have hlq : q.list = .active := (list_of_core hcore).trans hl
            refine wf_of_some hc hp ((placed_of_process hpl hlq hcl hcorep).pcbOk ?_) fun hrx => ?_
            · rw [hh, hst.hooks]
              exact hne
            · have hrec : Receives (atInput q) := receives_atInput hcore (hok.receives hl hs)
              have hrxq : p.rxClosed = q.rxClosed := by
                simp only [core, Core.mk.injEq] at hcorep
                exact hcorep.2.2.2.1.trans (place_tcpProcess seg hrec).1.1
              have hu := hw.rxClosed pcb hpcb ((rxClosed_of_core hcore) ▸ hrxq ▸ hrx)
              unfold Unattended at hu ⊢
              rwa [hex, hal, hst.exist, hst.alive]
    · have heq := tcpInput_timeWait seg hpcb hl
      rw [heq] at hc ⊢
      refine wf_modPcb hw hc fun p => ⟨(same_tcpTimewaitInput p seg).1, ?_⟩
      exact congrArg Inbox.refusedData (same_tcpTimewaitInput p seg).2

/-! ### Method calls -/

lemma tcpClose_of_idle {pcb : Pcb o} (h : Placed pcb) : tcpClose pcb =
    if unreadData pcb then .freed
    else .returned (tcpCloseShutdownFin { pcb with rxClosed := true }) .ok := by
  have hlive := h.live
  have hun : unreadData ({ pcb with rxClosed := true } : Pcb o) = unreadData pcb := rfl
  unfold tcpClose
  dsimp only
  rw [hun]
  split_ifs with hu hin
  · rw [h.input] at hin
    cases hin
  · rfl
  · cases hst : pcb.state <;> simp_all

lemma placed_of_attached (h : Wf s) (ha : Attached s) : ∃ pcb, s.pcb = some pcb ∧ Placed pcb := by
  obtain ⟨pcb, hpcb⟩ := Option.isSome_iff_exists.1 ha.isSome
  have hok := h.pcb pcb hpcb
  refine ⟨pcb, hpcb, placed_of_pcbOk hok fun hs => ?_⟩
  have hf := hok.fresh.2 hs
  simp [ha.hooks, attachedHooks, openedHooks] at hf

/-- lwIP never reports an error from `tcp_close`: the pcb is freed because of unread data, or closes
its sending side. -/
lemma tryGracefulCloseLocked_stack (h : Wf s) (ha : Attached s) :
    (∃ pcb, s.pcb = some pcb ∧ unreadData pcb = true ∧
      tryGracefulCloseLocked s = lwipFreed (closeConn .destroyed (closingState s))) ∨
    (∃ pcb, s.pcb = some pcb ∧ Placed pcb ∧ unreadData pcb = false ∧ tryGracefulCloseLocked s =
      closeConn .close { closingState s with
        pcb := some (tcpCloseShutdownFin { pcb with rxClosed := true }) }) := by
  obtain ⟨pcb, hpcb, hpl⟩ := placed_of_attached h ha
  have hclose : (RawApi.close pcb : CloseOutcome (Pcb o)) = tcpClose pcb := rfl
  rw [tcpClose_of_idle hpl] at hclose
  rcases tryGracefulCloseLocked_cases ha with
    ⟨p, hp, hc, heq⟩ | ⟨p, p', hp, hc, heq⟩ | ⟨p, p', hp, hc, -⟩ |
    ⟨p, p', err, hp, hc, hne, -⟩ <;> rw [hpcb] at hp <;> cases hp <;> rw [hc] at hclose <;>
    by_cases hu : unreadData pcb = true <;> simp only [hu, Bool.false_eq_true, if_true,
      if_false] at hclose
  · exact .inl ⟨pcb, hpcb, hu, heq⟩
  · cases hclose
  · cases hclose
  · cases hclose
    exact .inr ⟨pcb, hpcb, hpl, by simpa using hu, heq⟩
  · cases hclose
  · cases hclose
  · cases hclose
  · cases hclose
    exact absurd rfl hne

lemma wf_tryGracefulCloseLocked (h : Wf s) (ha : Attached s)
    (hc : Coherent (tryGracefulCloseLocked s)) :
    Wf (tryGracefulCloseLocked s) := by
  rcases tryGracefulCloseLocked_stack h ha with ⟨pcb, -, -, heq⟩ | ⟨pcb, hpcb, hpl, -, heq⟩
  · rw [heq] at hc ⊢
    exact wf_of_none hc rfl
  · rw [heq] at hc ⊢
    refine wf_of_some hc rfl (Placed.pcbOk ?_ ?_) fun _ => .inr rfl
    · refine Placed.shutdown ?_
      exact ⟨hpl.input, hpl.live, hpl.listed⟩
    · change s.hooks ≠ openedHooks
      simp [ha.hooks, attachedHooks, openedHooks]

lemma wf_abortLocked (h : Wf s) {r : Reason} (he : s.connExists = true)
    (hc : Coherent (abortLocked r s)) :
    Wf (abortLocked r s) := by
  by_cases hal : s.conn.alive = true
  · rw [abortLocked_of_attached (h.coherent.toAttached he hal)] at hc ⊢
    exact wf_of_none hc rfl
  · rw [abortLocked_of_dead (by simpa using hal)]
    exact h

lemma wf_of_ordinary {k : Scope} (h : Wf s) (ha : Attached s) (ho : Ordinary k s t)
    (hp : ∀ p, s.pcb = some p → Placed p → ∃ q, t.pcb = some q ∧ Placed q ∧
      q.rxClosed = p.rxClosed) : Wf t := by
  obtain ⟨pcb, hpcb, hpl⟩ := placed_of_attached h ha
  obtain ⟨q, hq, hql, hrx⟩ := hp pcb hpcb hpl
  have hne : t.hooks ≠ openedHooks := by simp [ho.hooks, ha.hooks, attachedHooks, openedHooks]
  refine wf_of_some (coherent_ordinary h.coherent ho) hq (hql.pcbOk hne) fun hr => ?_
  have hu := h.rxClosed pcb hpcb (hrx ▸ hr)
  unfold Unattended at hu ⊢
  rwa [ho.exist, ho.alive]

lemma wf_writeBytes (h : Wf s) (he : s.connExists = true) (bytes : Bytes)
    (hc : Coherent (writeBytes bytes s).1) :
    Wf (writeBytes bytes s).1 := by
  revert hc
  unfold writeBytes
  split_ifs with h0 h1 hg
  · exact fun _ => h
  · exact fun _ => h
  · exact fun _ => h
  · have hal : s.conn.alive = true := by
      simp only [Bool.or_eq_true, not_or] at hg
      simpa using hg.1.1.1
    have ha := h.coherent.toAttached he hal
    obtain ⟨pcb, hpcb⟩ := Option.isSome_iff_exists.1 ha.isSome
    have hsame : Same pcb (tcpWrite pcb bytes).1 := same_tcpWrite pcb bytes
    have hrw : (RawApi.write pcb bytes : Pcb o × Err) = tcpWrite pcb bytes := rfl
    rw [hpcb, Option.map_some, hrw]
    revert hsame
    generalize tcpWrite pcb bytes = res
    obtain ⟨q, err⟩ := res
    intro hsame
    have hcall : Ordinary .hints s (s.callLwip (.write bytes.length) fun _ => q) :=
      ordinary_callLwip _ (by simp)
    have hplaced : ∀ p, s.pcb = some p → Placed p → Placed q ∧ q.rxClosed = p.rxClosed := by
      intro p hp hpl
      rw [hpcb] at hp
      cases hp
      exact ⟨hpl.of_core hsame.1, (rxClosed_of_core hsame.1)⟩
    have hwf : Wf (s.callLwip (.write bytes.length) fun _ => q) := by
      refine wf_of_ordinary h ha hcall fun p hp hpl => ⟨q, ?_, hplaced p hp hpl⟩
      simp [Sys.callLwip, hp]
    have hupd : ∀ (v : Bool) (u : State o), (updateWritableLocked v u).pcb = u.pcb := by
      intro v u
      unfold updateWritableLocked
      split_ifs <;> rfl
    cases err with
    | ok =>
      intro _
      refine wf_of_ordinary h ha (k := .hints) (hcall.trans ((ordinary_callLwip _ (by simp)).trans
        (ordinary_updateWritableLocked _ hal))) fun p hp hpl => ⟨tcpOutput q, ?_, ?_, ?_⟩
      · rw [hupd]
        simp only [Sys.callLwip, hp, Option.map_some]
        rfl
      · exact (hplaced p hp hpl).1.of_core (same_tcpOutput q).1
      · exact (rxClosed_of_core (same_tcpOutput q).1).trans (hplaced p hp hpl).2
    | mem =>
      intro _
      refine wf_of_ordinary h ha (k := .hints) (hcall.trans (ordinary_updateWritableLocked _ hal))
        fun p hp hpl => ⟨q, ?_, hplaced p hp hpl⟩
      rw [hupd]
      simp [Sys.callLwip, hp]
    | _ => exact fun hc => wf_abortLocked hwf he hc

end TunForge.WellFormed
