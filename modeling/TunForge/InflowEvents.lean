import TunForge.InflowSteps

/-! Every event of lwIP is a way through the stages of the inbound machine. -/
namespace TunForge.InflowEvents
open SerialNumber PbufChain LwipTypes TcpOut TcpIn Tcp Connection Callbacks Stack
open Boundary Termination OrdinarySteps BoundaryRule Lifecycle PcbFrames CalmSteps InputCases
  Refinement ReceiveSteps
open WorkFrames Inflow InflowSteps

variable {o : Platform} {s t s₀ : State o} {e : Event}

/-! ### Removal -/

lemma ended_ended (r r' : Reason) (v : View o) : (v.ended r).ended r' = v.ended r := by
  cases hl : v.living <;> simp [View.ended, hl]

lemma ended_pcb (r : Reason) (p : Option (Pcb o)) (v : View o) :
    ({ v with pcb := p } : View o).ended r = { v.ended r with pcb := p } := by
  cases hl : v.living <;> simp [View.ended, hl]

lemma ended_of_over (r : Reason) {v : View o} (h : v.living = false) : v.ended r = v := by
  simp [View.ended, h]

lemma living_ended (r : Reason) (v : View o) : (v.ended r).living = false := by
  cases hl : v.living with
  | false => rw [ended_of_over r hl, hl]
  | true => simp [View.ended, hl]

lemma view_closeConn (r : Reason) (hl : living s = true) :
    view (closeConn r s) = (view s).ended r := by
  have hlv : (view s).living = true := hl
  simp only [View.ended, hlv, if_true]
  simp [closeConn, Sys.postIf, view, living]
  rfl

lemma view_lwipFreed (s : State o) : view (lwipFreed s) = { view s with pcb := none } := rfl

lemma view_tcpFree (hc : Coherent s) (hh : s.hooks = attachedHooks) :
    view (tcpFree s) = { (view s).ended .destroyed with pcb := none } := by
  cases hl : living s with
  | true =>
    rw [tcpFree_of_attached (attached_of_living hc hl), view_lwipFreed, view_closeConn _ hl]
  | false =>
    have hsilent : s.ref.object = false ∨ s.connExists = false ∨
        s.conn.didNotifyTerminated = true := by
      rcases unattended_of_living hl with hu | hu
      · exact .inr (.inl hu)
      · exact .inr (.inr (by simp [hc.notified_eq, hu]))
    rw [tcpFree_of_silent (by rw [hh]; rfl) hsilent, view_lwipFreed, ended_of_over _ hl]

lemma view_eventErr (hc : Coherent s) (hh : s.hooks = attachedHooks) (err : Err) :
    view (eventErr s.hooks err s) = (view s).ended (errReason err) ∧
    (eventErr s.hooks err s).hooks = attachedHooks := by
  cases hl : living s with
  | true =>
    have hn := view_noteCall .err .conn s
    rw [eventErr_of_attached (attached_of_living hc hl), view_closeConn _
      ((congrArg View.living hn).trans hl), hn]
    refine ⟨rfl, ?_⟩
    rw [← hh]
    rfl
  | false =>
    rw [eventErr_of_silent (.inr (.inr (unattended_of_living hl))), hh, if_pos (by rfl),
      ended_of_over _ hl]
    exact ⟨view_noteCall _ _ _, hh⟩

lemma view_removeAndFree (hc : Coherent s) (hh : s.hooks = attachedHooks) :
    view (removeAndFree s) = { (view s).ended .destroyed with pcb := none } := by
  unfold removeAndFree
  rw [view_tcpFree (StackRuns.coherent_modPcb hc _) hh, view_modPcb, ended_pcb]

lemma coherent_eventErr (hc : Coherent s) (hp : s.pcb.isSome = true) (err : Err) :
    Coherent (eventErr s.hooks err s) := by
  have hact : act s (.err err) = eventErr s.hooks err s := by simp [act, lwipAct, hp]
  rw [← hact]
  exact coherent_act hc _

lemma view_errThenFree (h : Serving s) (err : Err) :
    view (removeAndFree (eventErr s.hooks err s)) = { (view s).ended (errReason err) with
      pcb := none } := by
  obtain ⟨hv, hh⟩ := view_eventErr h.coherent h.hooks err
  rw [view_removeAndFree (coherent_eventErr h.coherent h.taken.isSome err) hh, hv, ended_ended]

lemma view_delayedClose (h : Serving s)
    (hover : ∀ p, s.pcb = some p → p.rxClosed = true → living s = false) :
    view (delayedClose s) = { (view s).ended .abort with pcb := none } := by
  obtain ⟨p, hp⟩ := h.pcb
  unfold delayedClose
  split_ifs with hrx
  · have hl := hover p hp (by simpa [hp] using hrx)
    rw [view_removeAndFree h.coherent h.hooks, ended_of_over _ hl, ended_of_over _ hl]
  · exact view_errThenFree h .clsd

lemma view_freeThenErr (hc : Coherent s) (hh : s.hooks = attachedHooks) (gap : Bool) :
    view (freeThenErr gap s) = { (view s).ended .destroyed with pcb := none } := by
  have hfree := view_tcpFree hc hh
  have hover : living (tcpFree s) = false := by
    have hl : (view (tcpFree s)).living = false := by
      rw [hfree]
      cases hl : (view s).living <;> simp [View.ended, hl]
    exact hl
  have hrel : view (releaseConnection (tcpFree s)) = view (tcpFree s) := by
    rcases releaseConnection_cases (tcpFree s) with heq | ⟨-, -, heq⟩
    · rw [heq]
    · rw [heq]
      simp only [view, living] at hover ⊢
      simp [hover]
  rw [freeThenErr_eq (.inl (by rw [hh]; rfl)), ← hfree]
  cases gap <;> dsimp only <;> split_ifs <;> simp [view_noteCall, hrel]

lemma view_tcpAbandon (h : Serving s) (gap : Bool) :
    view (tcpAbandon gap s) = { (view s).ended .destroyed with pcb := none } := by
  obtain ⟨p, hp⟩ := h.pcb
  unfold tcpAbandon
  rw [hp]
  dsimp only
  split_ifs
  · exact view_tcpFree h.coherent h.hooks
  · exact view_freeThenErr h.coherent h.hooks gap

lemma view_abortLocked (hc : Coherent s) (hl : living s = true) (r : Reason) :
    view (abortLocked r s) = { (view s).ended r with pcb := none } := by
  rw [abortLocked_of_attached (attached_of_living hc hl), view_lwipFreed, view_closeConn]
  · have hv : view ((s.callLwip .detach id).callLwip .abort id) = view s := by
      simp [Sys.callLwip, view, living]
    rw [hv]
  · exact hl

lemma path_removed {r : Reason} {ph : Phase} (hph : ph = start e ∨ living s = false)
    (hd : Doom s₀ (view s) e r) (hv : view t = { (view s).ended r with pcb := none }) :
    Path s₀ e (ph, view s) (.rest, view t) := by
  rw [hv]
  exact .head (.doomed hph hd) (.single .removed)

lemma path_modPcb {f : Pcb o → Pcb o} {ph : Phase} (hph : ph ≠ .arriving)
    (hf : ∀ p, s.pcb = some p →
      inbox (f p) = inbox p ∧ (f p).list = p.list ∧ ((f p).state = .synRcvd → p.state = .synRcvd) ∧
      Keeps p (f p)) :
    Path s₀ e (ph, view s) (ph, view (modPcb f s)) := by
  cases hp : s.pcb with
  | none =>
    rw [modPcb_of_none hp]
  | some p =>
    have hpv : (view s).pcb = some p := hp
    obtain ⟨h1, h2, h3, h4⟩ := hf p hp
    rw [view_modPcb, hpv]
    exact .single (.worked hph hpv h1 h2 h3 (.inl h4))

/-! ### Segments -/

lemma serving_setPcb (h : Serving s) (q : Pcb o) :
    Serving ({ s with pcb := some q } : State o) := by
  obtain ⟨p, hp⟩ := h.pcb
  exact ⟨StackRuns.coherent_setPcb h.coherent hp q, h.hooks, q, rfl⟩

lemma path_finishInput (h : Serving s) (hcl : ∀ p, s.pcb = some p → p.closed = false) :
    Path s₀ e (.rest, view s) (.rest, view (finishInput s)) := by
  obtain ⟨p, hp⟩ := h.pcb
  rw [finishInput_of_open hp (hcl p hp)]
  have hoff : Path s₀ e (.rest, view s)
      (.rest, view (modPcb (fun p : Pcb o => { p with inputPcb := false }) s)) :=
    path_modPcb (by simp) fun p _ => ⟨rfl, rfl, id, keeps_of_eq rfl rfl rfl rfl rfl⟩
  refine hoff.trans (path_modPcb (by simp) fun p _ => ?_)
  have hsame := same_tcpOutput p
  exact ⟨hsame.2, list_of_core hsame.1, fun hs => (state_of_core hsame.1) ▸ hs, keeps_tcpOutput p⟩

/-- What a segment left in hand is handed on, and output resumes. A pcb closed for receiving is
abandoned over data instead. -/
lemma path_handOn {d : Option Pbuf} {fin : Bool} (h : Serving s) {p : Pcb o} (hp : s.pcb = some p)
    (hcl : p.closed = false) (hne : ∀ c, d = some c → c.cells ≠ [])
    (hover : p.rxClosed = true → living s = false) :
    Path s₀ e (.hand d fin, view s) (.rest, view (finishInput
      (if fin = true ∧ (offered d s).pcb.isSome = true then handleFin (offered d s)
        else offered d s))) := by
  have hgo : ∀ u : State o, Calm s u → Path s₀ e (.hand d fin, view s) (.hand none fin, view u) →
      Path s₀ e (.hand d fin, view s)
        (.rest, view (finishInput (if fin = true ∧ u.pcb.isSome = true then handleFin u
          else u))) := by
    intro u hcalm hpath
    have hu : Serving u := h.calm hcalm
    have hfin : Calm s (if fin = true ∧ u.pcb.isSome = true then handleFin u else u) := by
      split_ifs
      · exact hcalm.trans (calm_handleFin hu.taken)
      · exact hcalm
    refine (hpath.trans (path_handleFin hu fin)).trans
      (path_finishInput (h.calm hfin) fun q hq => ?_)
    obtain ⟨q', hq', hcore⟩ := steady_pcb (hfin.steady h.taken) hp
    rw [hq] at hq'
    cases hq'
    exact (closed_of_core hcore).trans hcl
  cases hrx : p.rxClosed with
  | false =>
    have hopen : ∀ q, s.pcb = some q → q.rxClosed = false := by
      intro q hq
      rw [hp] at hq
      cases hq
      exact hrx
    refine hgo _ ?_ (path_offered h hopen hne)
    rcases offered_cases d h.taken hp with hcalm | ⟨htrue, -⟩
    · exact hcalm
    · rw [hrx] at htrue
      cases htrue
  | true =>
    cases d with
    | none => exact hgo s (.refl s) .refl
    | some c =>
      have hab : offered (some c) s = tcpAbandon s.env.releaseInGap s := by
        obtain ⟨n, hn⟩ := Nat.exists_eq_succ_of_ne_zero (List.length_pos_of_ne_nil (hne c rfl)).ne'
        unfold offered Pbuf.clen
        dsimp only
        rw [hn]
        unfold offerData
        simp [hp, hrx]
      have hnone : (tcpAbandon s.env.releaseInGap s).pcb = none := tcpAbandon_pcb h.taken.isSome
      rw [hab, if_neg (by simp [hnone]), finishInput_of_none hnone]
      exact path_removed (.inr (hover hrx)) (.unattended (hover hrx)) (view_tcpAbandon h _)

lemma path_inputTail {seg : Segment} {q : Pcb o} {r : Processed o} (h : Serving s)
    (hq : s.pcb = some q) (hl : q.list = .active) (hrs : r.pcb.state ≠ .synRcvd)
    (href : 0 < seg.tcplen → q.rx.refusedData = none)
    (hover : r.pcb.rxClosed = true → living s = false) (hproc : Processing q seg r)
    (hk : Keeps q r.pcb) :
    Path s₀ (.segment seg) (.arriving, view s) (.rest, view (inputTail r s)) := by
  have hu := serving_setPcb h r.pcb
  have hvu : view ({ s with pcb := some r.pcb } : State o) = { view s with pcb := some r.pcb } :=
    rfl
  have hqv : (view s).pcb = some q := hq
  -- hints for acknowledged bytes come first, whatever else the segment brought
  have hhint := hinted_sentLoop r.recvAcked r.recvAcked ({ s with pcb := some r.pcb } : State o)
  have hcalm := calm_sentLoop r.recvAcked r.recvAcked hu.taken
  have hpv : (sentLoop r.recvAcked r.recvAcked ({ s with pcb := some r.pcb } : State o)).pcb =
    some r.pcb := by
    obtain ⟨bs, -, hv⟩ := hhint
    exact congrArg View.pcb hv
  have hlv : living (sentLoop r.recvAcked r.recvAcked ({ s with pcb := some r.pcb } : State o)) =
    living s := by
    obtain ⟨bs, -, hv⟩ := hhint
    exact congrArg View.living hv
  have hv := hu.calm hcalm
  have hclose : closeRequested
      (sentLoop r.recvAcked r.recvAcked ({ s with pcb := some r.pcb } : State o)) =
        r.pcb.closed := by
    simp [closeRequested, hpv]
  -- and the rest of the work once data and FIN are in hand
  have htail : r.reset = false → r.pcb.closed = false → (∀ c, r.recvData = some c → c.cells ≠ []) →
      Path s₀ (.segment seg) (.hand r.recvData r.gotFin,
        view ({ s with pcb := some r.pcb } : State o))
        (.rest, view (inputTail r s)) := by
    intro hr hcl hne
    rw [inputTail_eq hr]
    dsimp only
    rw [hclose, hcl, if_neg (by simp)]
    refine (path_of_hinted hhint _).trans ?_
    refine path_handOn hv hpv hcl hne fun hrx => ?_
    rw [hlv]
    exact hover hrx
  have hrest : r.reset = false → r.pcb.closed = false → r.recvData = none → r.gotFin = false →
      Path s₀ (.segment seg) (.rest, view ({ s with pcb := some r.pcb } : State o))
        (.rest, view (inputTail r s)) := by
    intro hr hcl hd hf
    rw [inputTail_eq hr]
    dsimp only
    rw [hclose, hcl, if_neg (by simp), hd, hf, if_neg (by simp)]
    refine (path_of_hinted hhint _).trans (path_finishInput hv fun p hp => ?_)
    rw [hpv] at hp
    cases hp
    exact hcl
  cases hproc with
  | reset hrst hacc hr hin =>
    refine path_removed (.inl rfl) (.reset hqv hl hrst (by simpa [resetAcceptable] using hacc)) ?_
    simp only [inputTail, hr, if_true]
    rw [view_errThenFree hu .rst, hvu, ended_pcb]
    rfl
  | noted hr hd hf hcl hl' hin =>
    refine .head .ignored (.head ?_ (hrest hr hcl hd hf))
    exact .worked (by simp) hqv hin hl' (fun hs => absurd hs hrs) (.inl hk)
  | finished hst hrst hack hr hcl hl' hin =>
    refine .head (.doomed (.inl rfl) (.finalAck hqv hl hst hrst hack)) ?_
    have hwork : Flow s₀ (.segment seg) (.ending .abort, view s)
        (.ending .abort, view ({ s with pcb := some r.pcb } : State o)) :=
      .worked (by simp) hqv hin hl' (fun hs => absurd hs hrs) (.inl hk)
    refine .head hwork ((path_of_hinted hhint _).trans (.single ?_))
    rw [inputTail_eq hr]
    dsimp only
    rw [hclose, hcl, if_pos rfl, view_delayedClose hv fun p hp hrx => ?_]
    · exact .removed
    · rw [hpv] at hp
      cases hp
      rw [hlv]
      exact hover hrx
  | text b hseq hr hd hf hcl hplace =>
    have hsize : ∀ c, r.recvData = some c → c.cells ≠ [] := fun c hc =>
      Pbuf.cells_ne_nil_of_size (hseq.size (hd ▸ hc))
    refine .head ?_ (htail hr hcl hsize)
    rw [hd, hf]
    refine .received rfl hqv hl (href hseq.1.text) hseq hrs ?_ hk
    rw [hl] at hplace
    exact hplace
  | queued ooseq hseq hr hd hf hcl hl' hin =>
    exact .head (.queued rfl hqv hl hseq hrs (hl'.trans hl) hin hk) (hrest hr hcl hd hf)
  | purged hst hack hr hd hf hcl hl' hin =>
    exact .head (.purged rfl hqv hl hst hack hrs hl' hin hk) (hrest hr hcl hd hf)

lemma serving_of_taken (hw : Wf s) {p : Pcb o} (hp : s.pcb = some p) (hs : p.state ≠ .synRcvd) :
    Serving s :=
  ⟨hw.coherent, hw.hooks_of_taken hp hs, p, hp⟩

lemma living_of_fresh (hw : Wf s) {p : Pcb o} (hp : s.pcb = some p) (hs : p.state = .synRcvd) :
    living s = false := by
  have hfresh := hw.coherent.fresh ((hw.pcb p hp).fresh.2 hs)
  simp [living, hfresh.1]

lemma living_of_unattended (h : Unattended s) : living s = false := by
  rcases h with h | h <;> simp [living, h]

lemma path_gone (hl : living s = false) (hv : view t = { view s with pcb := none }) :
    Path s₀ e (.arriving, view s) (.rest, view t) := by
  refine path_removed (r := .destroyed) (.inr hl) (.unattended hl) ?_
  rw [hv, ended_of_over _ hl]

lemma path_taken (hw : Wf s) {pcb : Pcb o} (seg : Segment) (hp : s.pcb = some pcb)
    (hl : pcb.list = .active) (hs : pcb.state ≠ .synRcvd) :
    Path s₀ (.segment seg) (.arriving, view s) (.rest, view (tcpInput seg s)) := by
  have hserv := serving_of_taken hw hp hs
  have hok := hw.pcb pcb hp
  have hactive : ∀ p, s.pcb = some p → p.list = .active := by
    intro p hp'
    rw [hp] at hp'
    cases hp'
    exact hl
  have hretry : Path s₀ (.segment seg) (.arriving, view s)
      (.arriving, view (tcpProcessRefusedData s)) :=
    path_tcpProcessRefusedData (e := .segment seg) hserv hactive rfl
  have hcalm : Calm s (tcpProcessRefusedData s) := calm_tcpProcessRefusedData hserv.taken.recv
  have hst := hcalm.steady hserv.taken
  obtain ⟨q, hq, hcore, hcase⟩ := tcpInput_taken hw seg hp hl hs
  refine hretry.trans ?_
  rcases hcase with ⟨-, -, heq⟩ | ⟨hnot, heq⟩
  · rw [heq]
    refine .head .ignored (path_modPcb (by simp) fun p _ => ?_)
    split_ifs
    · have hsame := same_tcpSendEmptyAck p
      exact ⟨hsame.2, list_of_core hsame.1, fun hs => (state_of_core hsame.1) ▸ hs,
        keeps_of_core hsame.1 (side_tcpSendEmptyAck p)⟩
    · exact ⟨rfl, rfl, id, .refl p⟩
  · rw [heq]
    have hrec : Receives q := by
      have hr := hok.receives hl hs
      unfold Receives at hr ⊢
      rwa [state_of_core hcore]
    obtain ⟨⟨hrx, -⟩, hplace⟩ :=
      place_tcpProcess seg (receives_atInput rfl hrec : Receives (atInput q))
    refine path_inputTail (hserv.calm hcalm) hq ((list_of_core hcore).trans hl) ?_ ?_ ?_
      (processing_tcpProcess seg hrec)
        (keeps_atInput.trans (keeps_tcpProcess seg (.inl (receives_atInput rfl hrec))))
    · rcases hplace with ⟨-, -, hadv⟩ | ⟨-, -, htw, -⟩ | ⟨-, -, hsame, -⟩
      · exact (Receives.advance (receives_atInput rfl hrec) hadv).live.2.2.2.1
      · simp [htw]
      · rw [hsame]
        exact hrec.live.2.2.2.1
    · intro htext
      cases hr : q.rx.refusedData with
      | none => rfl
      | some r => exact absurd ⟨by simp [hr], htext⟩ hnot
    · intro hrxc
      have hpcb : pcb.rxClosed = true := (rxClosed_of_core hcore).symm.trans (hrx.symm.trans hrxc)
      have hu := living_of_unattended (hw.rxClosed pcb hp hpcb)
      simp only [living] at hu ⊢
      rw [hst.exist, hst.alive]
      exact hu

lemma view_orphaned (hl : living s = false) (calls : List (Callback × ℕ)) (q : Option (Pcb o)) :
    view (Termination.orphaned calls ({ s with pcb := q } : State o)) = (view s).orphaned := by
  simp only [living] at hl
  simp [Termination.orphaned, View.orphaned, view, living, lwipFreed, closeConn, Sys.postIf,
    madeConnection, initWithTCPPcb, setupPcb, Sys.callLwip, newConn, noHandlers, hl]

lemma path_accept (hw : Wf s) {pcb : Pcb o} (seg : Segment) (hp : s.pcb = some pcb)
    (hs : pcb.state = .synRcvd) (hsyn : seg.syn = false) : Path s (.segment seg) (.arriving, view s)
      (.rest, view (acceptAndProcess (noteActivity (atInput pcb) seg) seg s)) := by
  have hl := living_of_fresh hw hp hs
  have hok := hw.pcb pcb hp
  have hhooks : s.hooks = openedHooks := hok.fresh.2 hs
  have hpv : (view s).pcb = some pcb := hp
  rcases acceptAndProcess_cases hw seg hp hs with ⟨-, heq⟩ | ⟨-, hnone, heq⟩ | ⟨-, hst, hdel, heq⟩
  · rw [heq]
    exact path_gone hl rfl
  · rw [heq]
    rcases tunforgeAccept_cases (s := ({ s with pcb := some (atAccept pcb seg) } : State o)) hhooks
      rfl with
      ⟨-, h⟩ | ⟨-, hdel, cs, -, h⟩ | ⟨hst, hdel, -⟩
    · rw [h]
      exact path_gone hl rfl
    · rw [h]
      refine .single ?_
      rw [view_orphaned hl]
      exact .orphaned hpv hs hl hl hdel
    · have hst' : s.env.stack = true := hst
      have hdel' : s.env.delegate = true := hdel
      simp [hst', hdel'] at hnone
  · rw [heq]
    have hcu := StackRuns.coherent_setPcb hw.coherent hp (atAccept pcb seg)
    have hserv : Serving ((madeConnection
        ({ s with pcb := some (atAccept pcb seg) } : State o)).post .accepted) := by
      refine ⟨?_, rfl, tcpBacklogDelayed (atAccept pcb seg), rfl⟩
      rw [← tunforgeAccept_made (s := ({ s with pcb := some (atAccept pcb seg) } : State o)) hhooks
        rfl hst hdel]
      exact coherent_accept hcu hhooks rfl
    have hv : view ((madeConnection ({ s with pcb := some (atAccept pcb seg) } : State o)).post
        .accepted) =
        (view s).begun (tcpBacklogDelayed (atAccept pcb seg)) := rfl
    have hcore : core (tcpBacklogDelayed (atAccept pcb seg)) =
        { core pcb with state := .established, inputPcb := true, closed := false } :=
      ((same_tcpBacklogDelayed (atAccept pcb seg)).1).trans (core_atAccept pcb seg)
    have hin : inbox (tcpBacklogDelayed (atAccept pcb seg)) = inbox pcb := by
      rw [(same_tcpBacklogDelayed (atAccept pcb seg)).2]
      exact inbox_noteActivity (atInput pcb) hsyn
    have hlist : (tcpBacklogDelayed (atAccept pcb seg)).list = pcb.list := congrArg Core.list hcore
    have hkeep : Keeps pcb (tcpBacklogDelayed (atAccept pcb seg)) := keeps_accepted hs seg
    have hest : (tcpBacklogDelayed (atAccept pcb seg)).state = .established :=
      congrArg Core.state hcore
    have hact : pcb.list = .active := by
      rcases hok.listed with ⟨h, -⟩ | ⟨-, ht⟩
      · exact h
      · rw [hs] at ht
        cases ht
    obtain ⟨st, hst', hproc⟩ := core_processEstablished seg hest
    rw [hcore] at hproc
    refine .head (.made hpv hs hl hin hlist hest hkeep) ?_
    rw [← hv]
    refine path_inputTail hserv rfl (hlist.trans hact) ?_ (fun _ => ?_) (fun hrx => ?_)
      (processing_processEstablished hsyn hest (congrArg Core.closed hcore))
        (keeps_processEstablished seg hest)
    · have := congrArg Core.state hproc
      simp only [core] at this
      rw [this]
      rcases hst' with rfl | rfl <;> simp
    · exact (congrArg Inbox.refusedData hin).trans (hok.unread hs).2.1
    · have := congrArg Core.rxClosed hproc
      simp only [core] at this
      rw [this, (hok.unread hs).1] at hrx
      cases hrx

lemma path_tcpInput (hw : Wf s) (seg : Segment) :
    Path s (.segment seg) (.arriving, view s) (.rest, view (tcpInput seg s)) := by
  cases hp : s.pcb with
  | none =>
    have heq : tcpInput seg s = s := by simp [tcpInput, hp]
    rw [heq]
    exact .single .ignored
  | some pcb =>
    have hok := hw.pcb pcb hp
    rcases hok.listed with ⟨hl, -⟩ | ⟨hl, -⟩
    · by_cases hs : pcb.state = .synRcvd
      · have hliv := living_of_fresh hw hp hs
        have hhooks : s.hooks = openedHooks := hok.fresh.2 hs
        rcases tcpInput_fresh hw seg hp hs with
          ⟨-, hcomp, heq⟩ | ⟨q, heq⟩ | ⟨q, w, hproc, hcore, hin, hwnd, heq⟩
        · rw [heq]
          refine path_accept hw seg hp hs ?_
          simp only [completesHandshake, Bool.and_eq_true, Bool.not_eq_true'] at hcomp
          exact hcomp.1.1.2
        · rw [heq]
          refine path_gone hliv ?_
          unfold removeAndFree
          rw [tcpFree_of_bare (by simp [modPcb, hhooks, openedHooks])]
          rfl
        · rw [heq]
          have hsame := same_tcpOutput ({ q with inputPcb := false } : Pcb o)
          have hk : Keeps (atInput pcb) (tcpProcess (atInput pcb) seg).pcb :=
            keeps_tcpProcess seg (.inr hs)
          rw [hproc] at hk
          refine .single (.reopened (w := w) hp hs (hsame.2.trans hin) hwnd ?_ ?_)
          · exact (list_of_core hsame.1).trans (congrArg Core.list hcore)
          · have hidle : Keeps q ({ q with inputPcb := false } : Pcb o) :=
              keeps_of_eq rfl rfl rfl rfl rfl
            exact keeps_atInput.trans (hk.trans (hidle.trans (keeps_tcpOutput _)))
      · exact path_taken hw seg hp hl hs
    · rw [tcpInput_timeWait seg hp hl]
      refine .head .ignored (path_modPcb (by simp) fun p _ => ?_)
      have hsame := same_tcpTimewaitInput p seg
      exact ⟨hsame.2, list_of_core hsame.1, fun hs => (state_of_core hsame.1) ▸ hs,
        keeps_tcpTimewaitInput p seg⟩

/-! ### No close is ever left pending -/

lemma tcpClose_err {p p' : Pcb o} {err : Err} (h : tcpClose p = .returned p' err) : err = .ok := by
  revert h
  unfold tcpClose
  dsimp only
  split_ifs
  · intro h
    cases h
    rfl
  · intro h
    cases h
  · split
    · intro h
      cases h
    · intro h
      cases h
    · intro h
      cases h
      rfl

lemma notPending_preserved : Preserved (fun (_ : State o) (_ : Action (Pcb o)) => True) Coherent
    fun s => s.conn.pendingClose = false where
  ordinary _ h ho := ho.pending.trans h
  recv p _ h _ := (ordinary_eventRecv p).pending.trans h
  dropped p _ _ h _ := (ordinary_freeIfSome p).pending.trans h
  peerFIN _ h _ := by
  -- `tcp_close` never fails, so no close waits for the poll callback
    unfold handlePeerFINLocked
    split_ifs
    · exact h
    · exact h
  activate _ h ha hn _ := by
    rw [markActive_eq ha hn]
    unfold notifyActiveOnceLocked
    split_ifs
    · exact h
    · exact h
  ended _ _ _ _ he := by
    rw [he.conn]
    rfl
  deferred _ _ _ _ _ hmem := by
    have := tcpClose_err hmem
    cases this
  freed _ h _ _ := h
  bare _ h _ := h
  lateErr _ _ _ h _ _ := h
  released _ h _ _ := h
  accept _ h hf hp := by
    rcases tunforgeAccept_cases hf hp with ⟨-, heq⟩ | ⟨-, -, cs, -, heq⟩ | ⟨-, -, heq⟩ <;> rw [heq]
    · exact h
    · rfl
    · rfl
  ranBlock b rest _ h hq := by
    rw [runConnectionsBlock_eq hq]
    exact h
  ranRelease _ _ _ h _ := h
  ranDecision _ _ _ h _ := h
  completed p onPackets _ h _ := by
    unfold callCompletion packetsPerformAsync
    split_ifs
    all_goals exact h
  answered _ _ h _ := ⟨h, h⟩
  env _ _ h := h

/-- A well-formed stack without a close left pending. -/
structure Sound (s : State o) : Prop where
  wf : Wf s
  idle : s.conn.pendingClose = false

lemma sound_step (h : Sound s) (e : Event) : Sound (step s e) := by
  refine ⟨StackRuns.wf_step h.wf e, ?_⟩
  obtain ⟨as, has, heq⟩ := refines_boundary admits_all h.wf e fun _ => trivial
  rw [← heq]
  exact invariant_run notPending_preserved h.wf.coherent h.idle has

lemma sound_initial (h : Initial s) : Sound s := by
  refine ⟨StackRuns.wf_initial h, ?_⟩
  obtain ⟨syn, iss, env, ticks, tf, pcb, -, -, rfl⟩ := h
  rfl

end TunForge.InflowEvents
