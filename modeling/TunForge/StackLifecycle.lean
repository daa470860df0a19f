import TunForge.PcbPool

/-! Starting and stopping the stack. Its netif, its reference and its listener come and go
together, and lwIP calls back only with the reference of the running stack, as long as
`tcp_new` provides the pcb that becomes the listener. -/
namespace TunForge.StackLifecycle
open LwipTypes TcpIn Tcp Connection Callbacks
open Stack hiding tcpInput
open PcbFrames StackRuns WorkFrames BacklogSlots IpStack HostRuns PcbPool

variable {o : Platform} {h h' : Host o}

/-! ### Running and stopped -/

/-- Everything is set up, with one reference that has been retained for lwIP. -/
structure Up (h : Host o) : Prop where
  ready : h.ready = true
  onList : h.netif.onList = true
  isDefault : h.netif.isDefault = true
  ref : ∃ r, h.state = some r ∧ h.netif.state = some r ∧ h.stackRef = some r ∧
    h.refs[r]? = some ⟨true, 1, 0⟩
  listener : ∃ lp ∈ h.listenPcbs, h.listener = some lp.id ∧ lp.callbackArg = h.state

structure Down (h : Host o) : Prop where
  ready : h.ready = false
  onList : h.netif.onList = false
  isDefault : h.netif.isDefault = false
  state : h.state = none
  netif : h.netif.state = none
  listener : h.listener = none
  stackRef : ∀ r, h.stackRef = some r → h.refs[r]? = some ⟨true, 0, 0⟩

/-- Every reference but the current one has been released as often as it was retained. -/
def Balanced (h : Host o) : Prop :=
  ∀ (r : ℕ) (ref : StackRef), h.refs[r]? = some ref → h.state ≠ some r →
    ref.released = ref.retained ∧ ref.retained ≤ 1

def NoStale (h : Host o) : Prop := ∀ c ∈ h.calls, c.stale = false

structure Orderly (h : Host o) : Prop where
  sane : Sane h
  phase : Up h ∨ Down h
  balanced : Balanced h
  fresh : NoStale h

/-! ### Callbacks -/

lemma Up.valid (hu : Up h) : h.stale h.state = false ∧ h.stale h.netif.state = false := by
  obtain ⟨r, hs, hn, -, href⟩ := hu.ref
  constructor
  · simp [Host.stale, hs, href]
  · simp [Host.stale, hn, href]

lemma Down.route (hd : Down h) (dest : BitVec 32) : h.route dest = false := by
  simp [Host.route, hd.onList, hd.isDefault]

lemma Orderly.same (h₀ : Orderly h) (hs : SameStack h h') (hsane : Sane h') : Orderly h' := by
  refine ⟨hsane, ?_, fun r ref hr hst => ?_, fun c hc => ?_⟩
  · rcases h₀.phase with hu | hd
    · refine .inl ⟨hs.ready.trans hu.ready, by rw [hs.netif]; exact hu.onList, by
        rw [hs.netif]; exact hu.isDefault, ?_, ?_⟩
      · rw [hs.state, hs.netif, hs.stackRef, hs.refs]
        exact hu.ref
      · obtain ⟨lp, hlp, hl, harg⟩ := hu.listener
        have hmem : key lp ∈ h'.listenPcbs.map key := by
          rw [hs.listenPcbs]
          exact List.mem_map_of_mem hlp
        obtain ⟨q, hq, hkey⟩ := List.mem_map.1 hmem
        have hid : q.id = lp.id := congrArg Prod.fst hkey
        have hqarg : q.callbackArg = lp.callbackArg := congrArg (fun k => k.2.2) hkey
        refine ⟨q, hq, ?_, ?_⟩
        · rw [hs.listener, hl, hid]
        · rw [hs.state, hqarg, harg]
    · refine .inr ⟨hs.ready.trans hd.ready, by rw [hs.netif]; exact hd.onList, by
        rw [hs.netif]; exact hd.isDefault, hs.state.trans hd.state, by
          rw [hs.netif]; exact hd.netif, hs.listener.trans hd.listener, ?_⟩
      rw [hs.stackRef, hs.refs]
      exact hd.stackRef
  · rw [hs.refs] at hr
    rw [hs.state] at hst
    exact h₀.balanced r ref hr hst
  · rw [hs.calls] at hc
    exact h₀.fresh c hc

lemma Orderly.call (h₀ : Orderly h) {cs : List Call} (hcs : ∀ c ∈ cs, c.stale = false) :
    Orderly { h with calls := h.calls ++ cs } := by
  refine ⟨h₀.sane.recall _, ?_, h₀.balanced, fun c hc => ?_⟩
  · rcases h₀.phase with hu | hd
    · exact .inl ⟨hu.ready, hu.onList, hu.isDefault, hu.ref, hu.listener⟩
    · exact .inr ⟨hd.ready, hd.onList, hd.isDefault, hd.state, hd.netif, hd.listener, hd.stackRef⟩
  · rcases List.mem_append.1 hc with hc | hc
    · exact h₀.fresh c hc
    · exact hcs c hc

lemma orderly_sends (h₀ : Orderly h) (dests : List (BitVec 32)) :
    Orderly (dests.foldl Host.send h) := by
  obtain ⟨n, heq, hroute⟩ := sends_eq dests h
  rw [heq]
  refine h₀.call fun c hc => ?_
  obtain ⟨hn, rfl⟩ := List.mem_replicate.1 hc
  rcases h₀.phase with hu | hd
  · exact hu.valid.2
  · obtain ⟨dest, hr⟩ := hroute (Nat.pos_of_ne_zero hn)
    rw [hd.route dest] at hr
    cases hr

/-! ### Connections -/

lemma accept_valid (h₀ : Orderly h) {l : Link o} (hl : l ∈ h.links) {seg : Segment}
    (ha : acceptCall l.sys seg = true) :
    h.stale l.arg = false := by
  obtain ⟨p, hp, hacc⟩ := (Option.any_eq_true _ _).1 ha
  simp only [Bool.and_eq_true] at hacc
  have hok := h₀.sane.links l hl
  have hcur := (hok.linked p hp).1 hacc.1.1.2
  rcases h₀.phase with hu | hd
  · obtain ⟨lp, hlp, hlis, harg⟩ := hu.listener
    have hid : lp.id = l.listener := Option.some.inj (hlis.symm.trans hcur)
    rw [hok.arg lp hlp hid, harg]
    exact hu.valid.1
  · rw [hd.listener] at hcur
    cases hcur

lemma orderly_stepLink (h₀ : Orderly h) (i : ℕ) {e : Event} (he : e ≠ .listenerClosed) :
    Orderly (stepLink i e h) :=
  h₀.same (sameStack_stepLink i e h) (sane_stepLink h₀.sane i he)

lemma orderly_acceptLink (h₀ : Orderly h) (i : ℕ) {l : Link o} (hl : h.stale l.arg = false) :
    Orderly (acceptLink i l h) := by
  have hcall : Orderly (h.call .accept l.arg) := h₀.call fun c hc => by
    rw [List.mem_singleton] at hc
    rw [hc]
    exact hl
  have hsane := sane_acceptLink h₀.sane i l
  unfold acceptLink at hsane ⊢
  dsimp only at hsane ⊢
  split_ifs at hsane ⊢
  · exact hcall.same ⟨rfl, rfl, rfl, rfl, rfl, rfl, rfl, rfl, rfl, rfl⟩ hsane
  · exact hcall

lemma orderly_inputLink (h₀ : Orderly h) (i : ℕ) (seg : Segment) : Orderly (inputLink i seg h) := by
  refine inputLink_rule (fun _ _ he ho => orderly_stepLink ho i he) (fun l h' hl ha hs ho => ?_) h₀
  refine orderly_acceptLink ho i ?_
  have hvalid := accept_valid h₀ (List.mem_of_getElem? hl) ha
  unfold Host.stale at hvalid ⊢
  rwa [hs.refs]

lemma orderly_tcpAlloc (h₀ : Orderly h) : Orderly (tcpAlloc h).1 :=
  h₀.same (sameStack_tcpAlloc h) (sane_tcpAlloc h₀.sane)

lemma orderly_listenInput (h₀ : Orderly h) {lp : ListenPcb} (hlp : lp ∈ h.listenPcbs) (hdr : Header)
    {seg : Segment} (hsyn : seg.syn = true) (op : Opening) :
    Orderly (listenInput lp hdr seg op h) := by
  have hsane := sane_listenInput h₀.sane hlp hdr hsyn op
  have halloc := orderly_tcpAlloc h₀
  have hsame := sameStack_tcpAlloc h
  -- the listener's argument is the reference of the running stack
  have harg : (tcpAlloc h).1.stale lp.callbackArg = false := by
    unfold Host.stale
    rw [hsame.refs]
    rcases h₀.phase with hu | hd
    · obtain ⟨q, hq, hlis, harg⟩ := hu.listener
      rcases h₀.sane.listenPcbs with ⟨hnone, -⟩ | ⟨lp', -, hone⟩
      · rw [hnone] at hlis
        cases hlis
      · rw [hone, List.mem_singleton] at hq hlp
        rw [hlp, ← hq, harg]
        exact hu.valid.1
    · rcases h₀.sane.listenPcbs with ⟨-, hnil⟩ | ⟨lp', hsome, -⟩
      · rw [hnil] at hlp
        cases hlp
      · rw [hd.listener] at hsome
        cases hsome
  unfold listenInput at hsane ⊢
  split_ifs at hsane ⊢
  · exact h₀
  · exact h₀
  generalize tcpAlloc h = r at hsane halloc hsame harg
  obtain ⟨t, ok⟩ := r
  cases ok with
  | false =>
    refine halloc.call fun c hc => ?_
    rw [List.mem_singleton] at hc
    rw [hc]
    exact harg
  | true =>
    dsimp only at hsane halloc hsame ⊢
    split at hsane
    · exact halloc.same (sameStack_charge _ _ _ t) hsane
    · have hs := sameStack_charge lp.id false [.delayed] t
      exact halloc.same ⟨hs.1, hs.2, hs.3, hs.4, hs.5, hs.6, hs.7, hs.8, hs.9, hs.10⟩ hsane

lemma orderly_tcpInput (h₀ : Orderly h) (hdr : Header) (seg : Segment) (op : Opening) :
    Orderly (tcpInput hdr seg op h) := by
  unfold tcpInput
  split
  · next i _ =>
    refine orderly_inputLink ?_ 0 seg
    exact h₀.same ⟨rfl, rfl, rfl, rfl, rfl, rfl, rfl, rfl, rfl, rfl⟩ (sane_moveToFront h₀.sane i)
  · split
    · exact orderly_inputLink h₀ _ seg
    · split
      · exact h₀
      · next lp rest hlps =>
        split_ifs with hf
        · rw [Bool.and_eq_true] at hf
          exact orderly_listenInput h₀ (by simp [hlps]) hdr hf.1 op
        · exact h₀

lemma orderly_outputs (h₀ : Orderly h) (n : ℕ) : Orderly (n.repeat Host.output h) := by
  rw [outputs_eq]
  refine h₀.call fun c hc => ?_
  obtain ⟨-, rfl⟩ := List.mem_replicate.1 hc
  rcases h₀.phase with hu | hd
  · exact hu.valid.2
  · dsimp only
    rw [hd.netif]
    rfl

lemma orderly_inputPacket (h₀ : Orderly h) (p : Packet) : Orderly (inputPacket p h) := by
  unfold inputPacket
  split_ifs
  · exact h₀
  · refine orderly_outputs (orderly_sends ?_ p.dests) p.replies
    split
    · exact orderly_tcpInput h₀ _ _ _
    · exact h₀

/-! ### Starting -/

structure SameLinks (h h' : Host o) : Prop where
  links : h'.links = h.links
  listenPcbs : h'.listenPcbs = h.listenPcbs
  miscounted : h'.miscounted = h.miscounted

lemma sameLinks_stepLink (hs : SameLinks h h') (i : ℕ) (e : Event) :
    SameLinks (stepLink i e h) (stepLink i e h') := by
  cases hi : h.links[i]? with
  | none =>
    have hi' : h'.links[i]? = none := by rw [hs.links, hi]
    rw [stepLink_none hi, stepLink_none hi']
    exact hs
  | some l =>
    have hi' : h'.links[i]? = some l := by rw [hs.links, hi]
    rw [stepLink_some hi, stepLink_some hi']
    have hcharge : ∀ id pend cs, (charge id pend cs h').listenPcbs =
        (charge id pend cs h).listenPcbs ∧
        (charge id pend cs h').miscounted = (charge id pend cs h).miscounted := by
      intro id pend cs
      unfold charge
      rw [hs.listenPcbs]
      split
      · exact ⟨hs.listenPcbs, hs.miscounted⟩
      · simp [hs.miscounted]
    have hcalls : (chargeCalls l e h').listenPcbs = (chargeCalls l e h).listenPcbs ∧
        (chargeCalls l e h').miscounted = (chargeCalls l e h).miscounted := by
      unfold chargeCalls
      split
      · exact ⟨hs.listenPcbs, hs.miscounted⟩
      · split_ifs
        · exact hcharge _ _ _
        · exact ⟨hs.listenPcbs, hs.miscounted⟩
    exact ⟨by rw [hs.links], hcalls.1, hcalls.2⟩

lemma sameLinks_stepAll (hs : SameLinks h h') (p : Link o → Bool) (e : Event) :
    SameLinks (stepAll p e h) (stepAll p e h') := by
  unfold stepAll
  rw [hs.links]
  generalize List.range h.links.length = is
  induction is generalizing h h' with
  | nil => exact hs
  | cons i is ih =>
    rw [List.foldl_cons, List.foldl_cons, hs.links]
    split_ifs
    · exact ih (sameLinks_stepLink hs i e)
    · exact ih hs

lemma sameLinks_killOldest (hs : SameLinks h h') (p : Pcb o → Bool) (e : Event) :
    SameLinks (killOldest p e h) (killOldest p e h') := by
  unfold killOldest
  rw [hs.links]
  split
  · exact sameLinks_stepLink hs _ e
  · exact hs

lemma freePcb_same (hs : SameLinks h h') : h'.freePcb = h.freePcb := by
  unfold Host.freePcb
  rw [hs.links]

lemma tcpAlloc_same (hs : SameLinks h h') : (tcpAlloc h').2 = (tcpAlloc h).2 := by
  have hpend := sameLinks_stepAll hs (fun _ => true) .handleClosepend
  have hwait := sameLinks_killOldest hpend (fun q => decide (q.list = .timeWait)) .killTimewait
  have hlast := sameLinks_killOldest hwait
    (fun q => decide (q.list = .active ∧ q.state = .lastAck)) .killState
  have hclosing := sameLinks_killOldest hlast
    (fun q => decide (q.list = .active ∧ q.state = .closing)) .killState
  unfold tcpAlloc
  dsimp only
  rw [freePcb_same hs, freePcb_same hwait, freePcb_same hlast, freePcb_same hclosing]
  split_ifs <;> rfl

/-- A reference that has just been retained, and a netif that carries it. -/
structure Prepared (r : ℕ) (h : Host o) : Prop where
  ready : h.ready = true
  state : h.state = some r
  netif : h.netif = ⟨true, true, true, true, true, some r⟩
  stackRef : h.stackRef = some r
  ref : h.refs[r]? = some ⟨true, 1, 0⟩
  listener : h.listener = none

lemma orderly_setupListener {r : ℕ} (hsane : Sane h) (hp : Prepared r h) (hb : Balanced h)
    (hf : NoStale h) (hpcb : (tcpAlloc h).2 = true) (dests : List (BitVec 32)) :
    Orderly (setupListener dests h) := by
  suffices hrest : Up (setupListener dests h) ∧ Balanced (setupListener dests h) ∧
    NoStale (setupListener dests h) from
    ⟨sane_setupListener hsane hp.ready hp.listener dests, .inl hrest.1, hrest.2.1, hrest.2.2⟩
  have halloc := sane_tcpAlloc hsane
  have hsame := sameStack_tcpAlloc h
  unfold setupListener
  generalize tcpAlloc h = res at halloc hsame hpcb
  obtain ⟨t, ok⟩ := res
  dsimp only at halloc hsame hpcb ⊢
  obtain ⟨n, heq, -⟩ := sends_eq dests t
  have hnil : t.listenPcbs = [] := by
    rcases halloc.listenPcbs with ⟨-, hnil⟩ | ⟨lp, hsome, -⟩
    · exact hnil
    · rw [hsame.listener, hp.listener] at hsome
      cases hsome
  rw [heq, hpcb, hnil, if_pos (by simp)]
  have hstale : t.stale t.netif.state = false := by
    simp [Host.stale, hsame.netif, hp.netif, hsame.refs, hp.ref]
  refine ⟨⟨hsame.ready.trans hp.ready, ?_, ?_,
    ⟨r, hsame.state.trans hp.state, ?_, hsame.stackRef.trans hp.stackRef, ?_⟩,
    ⟨_, List.mem_singleton.2 rfl, rfl, rfl⟩⟩, fun r' ref hr hst => ?_, fun c hc => ?_⟩
  · simp [hsame.netif, hp.netif]
  · simp [hsame.netif, hp.netif]
  · simp [hsame.netif, hp.netif]
  · simp [hsame.refs, hp.ref]
  · refine hb r' ref ?_ ?_
    · rw [← hsame.refs]
      exact hr
    · rw [← hsame.state]
      exact hst
  · rcases List.mem_append.1 hc with hc | hc
    · rw [hsame.calls] at hc
      exact hf c hc
    · obtain ⟨-, rfl⟩ := List.mem_replicate.1 hc
      exact hstale

lemma orderly_setup {r : ℕ} (hsane : Sane h) (hd : Down h) (hb : Balanced h) (hf : NoStale h)
    (hr : h.stackRef = some r) (hpcb : (tcpAlloc h).2 = true) (dests : List (BitVec 32)) :
    Orderly (setupLockedOnLWIPQueue dests h) := by
  -- `start` with a reference that was not retained yet
  have href := hd.stackRef r hr
  unfold setupLockedOnLWIPQueue
  rw [if_neg (by simp [hd.ready])]
  dsimp only
  rw [hr]
  dsimp only [modRef]
  obtain ⟨hlt, hget⟩ := List.getElem?_eq_some_iff.1 href
  refine orderly_setupListener (r := r) ?_ ?_ ?_ ?_ ?_ dests
  · exact hsane.same ⟨rfl, rfl, rfl⟩ (fun hf => by cases hf) hsane.links
  · exact ⟨rfl, rfl, rfl, rfl, by simp [href], hd.listener⟩
  · intro r' ref hr' hst
    rw [List.getElem?_modify] at hr'
    have hne : r ≠ r' := fun heq => hst (congrArg some heq)
    simp only [hne, if_false, Option.map_eq_map, Option.map_id'] at hr'
    refine hb r' ref hr' ?_
    rw [hd.state]
    simp
  · exact hf
  · rw [← hpcb]
    exact tcpAlloc_same ⟨rfl, rfl, rfl⟩

lemma orderly_start (h₀ : Orderly h) (hpcb : h.ready = false → (tcpAlloc h).2 = true)
    (dests : List (BitVec 32)) :
    Orderly (start dests h) := by
  unfold start
  dsimp only
  rcases h₀.phase with hu | hd
  · obtain ⟨r, -, -, hs, href⟩ := hu.ref
    have halive : h.refAlive h.stackRef = true := by simp [Host.refAlive, hs, href]
    rw [if_pos halive]
    unfold setupLockedOnLWIPQueue
    rw [if_pos hu.ready]
    exact ⟨h₀.sane.same ⟨rfl, rfl, rfl⟩ id h₀.sane.links,
      .inl ⟨hu.ready, hu.onList, hu.isDefault, hu.ref, hu.listener⟩, h₀.balanced, h₀.fresh⟩
  · specialize hpcb hd.ready
    split_ifs with halive
    · obtain ⟨r, hr, -⟩ := (Option.any_eq_true _ _).1 halive
      refine orderly_setup (h := { h with timer := true })
        (h₀.sane.same ⟨rfl, rfl, rfl⟩ id h₀.sane.links)
          ⟨hd.ready, hd.onList, hd.isDefault, hd.state, hd.netif, hd.listener,
            hd.stackRef⟩ h₀.balanced h₀.fresh hr ?_ dests
      rw [← hpcb]
      exact tcpAlloc_same ⟨rfl, rfl, rfl⟩
    · have hnew : (h.refs ++ [⟨true, 0, 0⟩])[h.refs.length]? = some (⟨true, 0, 0⟩ : StackRef) := by
        simp
      refine orderly_setup (h := { h with
        refs := h.refs ++ [⟨true, 0, 0⟩], stackRef := some h.refs.length, timer := true })
        (h₀.sane.same ⟨rfl, rfl, rfl⟩ id h₀.sane.links)
        ⟨hd.ready, hd.onList, hd.isDefault, hd.state, hd.netif, hd.listener, fun r hr => ?_⟩
          (fun r ref hr hst => ?_) h₀.fresh
        rfl ?_ dests
      · cases hr
        exact hnew
      · rcases lt_trichotomy r h.refs.length with hlt | heq | hgt
        · refine h₀.balanced r ref ?_ hst
          simpa [List.getElem?_append_left hlt] using hr
        · subst heq
          rw [hnew] at hr
          cases hr
          simp
        · rw [List.getElem?_eq_none (by simp; omega)] at hr
          cases hr
      · rw [← hpcb]
        exact tcpAlloc_same ⟨rfl, rfl, rfl⟩

/-! ### Stopping -/

lemma closeListener_frame (h : Host o) :
    (closeListener h).netif = h.netif ∧ (closeListener h).refs = h.refs ∧
    (closeListener h).stackRef = h.stackRef ∧ (closeListener h).state = h.state ∧
    (closeListener h).ready = h.ready ∧
    (closeListener h).calls = h.calls := by
  unfold closeListener
  split
  · exact ⟨rfl, rfl, rfl, rfl, rfl, rfl⟩
  · next id _ =>
    have hs := sameStack_stepAll (fun l => decide (l.listener = id)) .listenerClosed h
    exact ⟨hs.netif, hs.refs, hs.stackRef, hs.state, hs.ready, hs.calls⟩

lemma removeNetif_frame (dests : List (BitVec 32)) (h : Host o) :
    (removeNetif dests h).netif =
        { h.netif with up := false, isDefault := false, onList := false } ∧
      (removeNetif dests h).refs = h.refs ∧ (removeNetif dests h).stackRef = h.stackRef ∧
      (removeNetif dests h).state = h.state ∧ (removeNetif dests h).ready = h.ready ∧
      (removeNetif dests h).listener = h.listener ∧ (removeNetif dests h).calls = h.calls := by
  -- the netif is down before it is removed, so that no reset finds a route
  unfold removeNetif
  dsimp only
  split_ifs
  · have hs := sameStack_stepAll (fun l => decide (l.tuple.localIp = netifAddr)) .netifIpAddrChanged
      ({ h with netif := { h.netif with up := false } } : Host o)
    generalize stepAll (fun l => decide (l.tuple.localIp = netifAddr)) .netifIpAddrChanged
      ({ h with netif := { h.netif with up := false } } : Host o) = t at hs
    obtain ⟨n, heq, hroute⟩ := sends_eq dests t
    have hn : n = 0 := by
      by_contra hne
      obtain ⟨dest, hr⟩ := hroute (Nat.pos_of_ne_zero hne)
      simp [Host.route, hs.netif] at hr
    subst hn
    rw [heq]
    exact ⟨by simp [hs.netif], hs.refs, hs.stackRef, hs.state, hs.ready,
      hs.listener, by simp [hs.calls]⟩
  · exact ⟨rfl, rfl, rfl, rfl, rfl, rfl, rfl⟩

lemma orderly_stop (h₀ : Orderly h) (dests : List (BitVec 32)) : Orderly (stop dests h) := by
  -- `stop` brings everything down; the reference goes stale only when nothing leads to it
  suffices hrest : Down (stop dests h) ∧ Balanced (stop dests h) ∧
    (stop dests h).calls = h.calls from
    ⟨sane_stop h₀.sane dests, .inr hrest.1,
      hrest.2.1, by unfold NoStale; rw [hrest.2.2]; exact h₀.fresh⟩
  have hnet : h.netif.state = h.state := by
    rcases h₀.phase with hu | hd
    · obtain ⟨r, hs, hn, -⟩ := hu.ref
      rw [hs, hn]
    · rw [hd.state, hd.netif]
  unfold stop
  dsimp only
  -- the reference is invalidated first
  generalize hinv : modRef h.stackRef (fun ref => { ref with alive := false }) { h with
    timer := false } = t
  have ht : t.netif = h.netif ∧ t.state = h.state ∧ t.calls = h.calls ∧ t.links = h.links ∧
      t.listenPcbs = h.listenPcbs ∧
      t.listener = h.listener ∧ t.nextId = h.nextId := by
    rw [← hinv]
    cases h.stackRef <;> exact ⟨rfl, rfl, rfl, rfl, rfl, rfl, rfl⟩
  obtain ⟨hcn, hcr, hcs, hcst, hcre, hcc⟩ :=
    closeListener_frame ({ t with stackRef := none, ready := false } : Host o)
  have hcl := (sane_closeListener h₀.sane
    (g := { t with stackRef := none, ready := false }) ht.2.2.2.1 ht.2.2.2.2.1
    ht.2.2.2.2.2.1 ht.2.2.2.2.2.2).2
  generalize closeListener { t with stackRef := none, ready := false } =
    u at hcn hcr hcs hcst hcre hcc hcl
  rw [if_pos (by rw [hcn, hcst]; exact (ht.1 ▸ hnet).trans ht.2.1.symm)]
  obtain ⟨hrn, hrr, hrs, hrst, hrre, hrl, hrc⟩ := removeNetif_frame dests u
  have hrefs : ∀ r, t.refs[r]? = if h.stackRef = some r then (h.refs[r]?).map
      (fun ref => { ref with alive := false })
      else h.refs[r]? := by
    intro r
    rw [← hinv]
    cases hsr : h.stackRef with
    | none => simp [modRef]
    | some q =>
      simp only [modRef, List.getElem?_modify, Option.some.injEq]
      split_ifs <;> simp
  have hstate : u.state = h.state := hcst.trans ht.2.1
  have hfinal : ∀ (arg : Option ℕ) (v : Host o), v.netif = { u.netif with
      up := false, isDefault := false, onList := false, state := none } →
      v.ready = false → v.listener = none → v.stackRef = none → v.calls = h.calls →
      Down ({ modRef arg (fun ref => { ref with released := ref.released + 1 }) v with
        state := none } : Host o) ∧
        ({ modRef arg (fun ref => { ref with released := ref.released + 1 }) v with
          state := none } : Host o).calls = h.calls := by
    intro arg v hn hr hl hs hc
    cases arg with
    | none =>
      exact ⟨⟨hr, by simp [modRef, hn], by simp [modRef, hn], rfl, by simp [modRef, hn], hl,
        fun r hsr =>
        nomatch hs.symm.trans hsr⟩, hc⟩
    | some r =>
      exact ⟨⟨hr, by simp [modRef, hn], by simp [modRef, hn], rfl, by simp [modRef, hn], hl,
        fun r hsr =>
        nomatch hs.symm.trans hsr⟩, hc⟩
  obtain ⟨hdown, hcalls⟩ := hfinal (removeNetif dests u).state
    ({ removeNetif dests u with
      netif := { (removeNetif dests u).netif with state := none } } : Host o)
    (by dsimp only; rw [hrn]) (hrre.trans hcre) (hrl.trans hcl) (hrs.trans hcs)
      (hrc.trans (hcc.trans ht.2.2.1))
  refine ⟨hdown, ?_, hcalls⟩
  -- the current reference is released once, and every other one was balanced before
  intro r' ref hr' _
  have hget : (modRef (removeNetif dests u).state
      (fun ref => { ref with released := ref.released + 1 })
      ({ removeNetif dests u with
        netif := { (removeNetif dests u).netif with state := none } } : Host o)).refs[r']? =
      some ref := hr'
  rw [hrst, hstate] at hget
  rcases h₀.phase with hu | hd
  · obtain ⟨r, hs, -, hsr, href⟩ := hu.ref
    rw [hs] at hget
    simp only [modRef, List.getElem?_modify, hrr, hcr, hrefs, hsr, Option.some.injEq] at hget
    by_cases heq : r = r'
    · subst heq
      simp only [if_true, href] at hget
      cases hget
      exact ⟨rfl, le_rfl⟩
    · simp only [heq, if_false, Option.map_eq_map, Option.map_id'] at hget
      refine h₀.balanced r' ref hget ?_
      rw [hs]
      exact fun hc => heq (Option.some.inj hc)
  · rw [hd.state] at hget
    simp only [modRef, hrr, hcr, hrefs] at hget
    split_ifs at hget with hsr
    · rw [hd.stackRef r' hsr] at hget
      cases hget
      exact ⟨rfl, Nat.zero_le 1⟩
    · refine h₀.balanced r' ref hget ?_
      rw [hd.state]
      simp

/-! ### Runs -/

lemma orderly_boot (o : Platform) : Orderly (boot o) := by
  refine ⟨sane_boot o, .inr ⟨rfl, rfl, rfl, rfl, rfl, rfl, fun r hr => ?_⟩, fun r ref hr _ => ?_,
    fun c hc => (by cases hc)⟩
  · cases hr
    rfl
  · cases r with
    | zero =>
      cases hr
      exact ⟨rfl, Nat.zero_le 1⟩
    | succ r => cases hr

/-- At a start that sets the stack up there is a pcb for the listener. -/
def PcbForListener (h : Host o) : HostEvent → Prop
  | .start _ => h.ready = false → pcbAvailable h = true
  | _ => True

lemma orderly_hostStep (h₀ : Orderly h) (hp : Pooled h.links) {e : HostEvent}
    (he : PcbForListener h e) :
    Orderly (hostStep h e) := by
  cases e with
  | start dests => exact orderly_start h₀ (fun hr => (tcpAlloc_eq hp).trans (he hr)) dests
  | stop dests => exact orderly_stop h₀ dests
  | inputPacket p => exact orderly_inputPacket h₀ p
  | link i e dests =>
    simp only [hostStep]
    split_ifs with hf
    · exact h₀
    · exact orderly_sends (orderly_stepLink h₀ i fun h => hf (by rw [h]; rfl)) dests

/-- If every start that sets the stack up gets a pcb, the stack is at all times running with all it
needs or stopped with nothing left, its reference is given back once, and no callback comes with a
stale one. -/
theorem start_stop_invariant (es : List HostEvent)
    (hes : Runs.Along hostStep PcbForListener (boot o) es) :
    let h := Runs.run hostStep (boot o) es
    (h.ready = true → h.netif.onList = true ∧ h.netif.isDefault = true ∧
      (∃ r, h.state = some r ∧ h.netif.state = some r) ∧
      ∃ lp ∈ h.listenPcbs, h.listener = some lp.id ∧ lp.callbackArg = h.state) ∧
    (h.ready = false → h.netif.onList = false ∧ h.netif.isDefault = false ∧ h.state = none ∧
      h.netif.state = none ∧
      h.listener = none ∧ h.listenPcbs = []) ∧
    h.listenPcbs.length ≤ 1 ∧
    (∀ r ref, h.refs[r]? = some ref → ref.retained ≤ 1 ∧
      ref.released = if h.state = some r then 0 else ref.retained) ∧
    ∀ c ∈ h.calls, c.stale = false := by
  intro h
  have ho : Orderly h := (Runs.invariant hostStep (fun h => Orderly h ∧ Pooled h.links)
    (fun _ e ho he => ⟨orderly_hostStep ho.1 ho.2 he, pooled_hostStep ho.2 e⟩)
      ⟨orderly_boot o, pooled_boot o⟩ hes).1
  have hone : h.listenPcbs.length ≤ 1 := by
    rcases ho.sane.listenPcbs with ⟨-, hl⟩ | ⟨lp, -, hl⟩ <;> simp [hl]
  refine ⟨fun hr => ?_, fun hr => ?_, hone, fun r ref hget => ?_, ho.fresh⟩
  · rcases ho.phase with hu | hd
    · obtain ⟨r, hs, hn, -⟩ := hu.ref
      exact ⟨hu.onList, hu.isDefault, ⟨r, hs, hn⟩, hu.listener⟩
    · rw [hd.ready] at hr
      cases hr
  · rcases ho.phase with hu | hd
    · rw [hu.ready] at hr
      cases hr
    · refine ⟨hd.onList, hd.isDefault, hd.state, hd.netif, hd.listener, ?_⟩
      rcases ho.sane.listenPcbs with ⟨-, hl⟩ | ⟨lp, hsome, -⟩
      · exact hl
      · rw [hd.listener] at hsome
        cases hsome
  · split_ifs with hst
    · rcases ho.phase with hu | hd
      · obtain ⟨r', hs, -, -, href⟩ := hu.ref
        obtain rfl : r' = r := Option.some.inj (hs.symm.trans hst)
        cases href.symm.trans hget
        exact ⟨le_rfl, rfl⟩
      · rw [hd.state] at hst
        cases hst
    · obtain ⟨hbal, hle⟩ := ho.balanced r ref hget hst
      exact ⟨hle, hbal⟩

theorem start_stop_invariant_restart :
    let h := Runs.run hostStep (boot .ios) [.stop [], .start [], .start [], .stop [], .stop [],
      .start []]
    h.ready = true ∧ ∃ lp ∈ h.listenPcbs, h.listener = some lp.id ∧ lp.callbackArg = h.state := by
  have hes : Runs.Along hostStep PcbForListener (boot .ios)
      [.stop [], .start [], .start [], .stop [], .stop [], .start []] :=
    ⟨trivial, fun _ => by decide, fun _ => by decide, trivial, trivial, fun _ => by decide, trivial⟩
  exact ⟨by decide, ((start_stop_invariant _ hes).1 (by decide)).2.2.2⟩

/-! ### A start without a pcb -/

lemma start_without_pcb (hr : h.ready = false) (hp : Pooled h.links) (hn : pcbAvailable h = false)
    (dests : List (BitVec 32)) :
    (start dests h).ready = true ∧ (start dests h).netif.onList = true ∧
    (start dests h).listener = none := by
  have hsetup : ∀ t : Host o, SameLinks h t → t.ready = true → t.netif.onList = true →
      (setupListener dests t).ready = true ∧ (setupListener dests t).netif.onList = true ∧
        (setupListener dests t).listener = none := by
    intro t hs hready hlist
    have hnone : (tcpAlloc t).2 = false := by rw [tcpAlloc_same hs, tcpAlloc_eq hp, hn]
    have hsame := sameStack_tcpAlloc t
    unfold setupListener
    dsimp only
    obtain ⟨n, heq, -⟩ := sends_eq dests (tcpAlloc t).1
    rw [heq, hnone, Bool.false_and, if_neg (by simp)]
    exact ⟨hsame.ready.trans hready, by rw [← hlist, ← hsame.netif], rfl⟩
  unfold start
  dsimp only
  split_ifs
  · unfold setupLockedOnLWIPQueue
    rw [if_neg (by simp [hr])]
    refine hsetup _ ?_ ?_ rfl
    · cases h.stackRef <;> exact ⟨rfl, rfl, rfl⟩
    · exact (modRef_frame _ _ _).2
  · unfold setupLockedOnLWIPQueue
    rw [if_neg (by simp [hr])]
    exact hsetup _ ⟨rfl, rfl, rfl⟩ rfl rfl

lemma ready_stop (dests : List (BitVec 32)) (h : Host o) : (stop dests h).ready = false := by
  have hclose : ∀ t : Host o,
      (closeListener { t with stackRef := none, ready := false }).ready = false :=
    fun t => (closeListener_frame _).2.2.2.2.1
  unfold stop
  dsimp only
  rw [(modRef_frame _ _ _).2]
  split_ifs
  · exact (removeNetif_frame dests _).2.2.2.2.1.trans (hclose _)
  · exact hclose _

def peer (j : ℕ) : Header := ⟨0x0A000002, BitVec.ofNat 16 (1024 + j), 0x08080808, 443⟩

def segmentFrom (j : ℕ) (seg : Segment) : HostEvent :=
  .inputPacket ⟨some (peer j, seg, ⟨6510, calmEnv, 0, calmTf⟩), [], 0⟩

/-- The stack is started and one connection is accepted and activated. -/
def firstConnection : List HostEvent :=
  [.start [], segmentFrom 0 openingSyn, segmentFrom 0 (ackSegment 101 6511),
    .link 0 (.app .runConnectionsBlock) [], .link 0 (.app (.api .markActive)) []]

def occupied (l : Link o) : Bool :=
  l.sys.pcb.any fun p => decide (p.list = .active ∧ (p.state = .synRcvd ∨ p.state = .established) ∧
    p.closePend = false)

/-- `k` connections, of which all but the first wait to be accepted. -/
structure Crowded (k : ℕ) (h : Host .ios) : Prop where
  length : h.links.length = k
  occupied : ∀ l ∈ h.links, occupied l = true
  tuple : ∀ l ∈ h.links, ∃ j < k, l.tuple = (peer j).tuple
  listenPcbs : h.listenPcbs = [⟨0, 0xFF, k - 1, some 0⟩]
  running : (h.refAlive h.stackRef && h.ready && h.netif.hasInput) = true

lemma crowded_first : Crowded 1 (Runs.run hostStep (boot .ios) firstConnection) :=
  ⟨by decide, by decide, by decide, by decide, by decide⟩

lemma crowded_syn {k : ℕ} {h : Host .ios} (h₀ : Crowded k h) (hk : 0 < k ∧ k < 256) :
    Crowded (k + 1) (hostStep h (segmentFrom k openingSyn)) := by
  have hapart : ∀ list, h.links.findIdx? (Link.matches list (peer k).tuple) = none := by
    intro list
    rw [List.findIdx?_eq_none_iff]
    intro l hl
    obtain ⟨j, hj, ht⟩ := h₀.tuple l hl
    have hne : l.tuple ≠ (peer k).tuple := by
      intro heq
      have hport := congrArg (fun t => t.remotePort.toNat) (ht.symm.trans heq)
      simp only [peer, Header.tuple, BitVec.toNat_ofNat] at hport
      omega
    simp [Link.matches, hne]
  have hfree : h.freePcb = true := by
    rw [freePcb_iff]
    exact (List.countP_le_length.trans_eq h₀.length).trans_lt hk.2
  obtain ⟨pcb, hpcb, hocc⟩ : ∃ pcb, tcpListenInput .ios openingSyn 6510#32 calmEnv 0 = some pcb ∧
      occupied (⟨peer k, (peer k).tuple, 0, some 0, none, opened pcb calmTf⟩ : Link .ios) = true :=
    ⟨(tcpListenInput .ios openingSyn 6510#32 calmEnv 0).get (by decide), by simp, rfl⟩
  have hcharge : (charge 0 false [.delayed] h).listenPcbs = [⟨0, 0xFF, k, some 0⟩] := by
    have hsucc : k - 1 + 1 = k := Nat.sub_add_cancel hk.1
    simp [charge, h₀.listenPcbs, backlogCall, hsucc, hk.2]
  have hstep : hostStep h (segmentFrom k openingSyn) = { charge 0 false [.delayed] h with
      links := ⟨peer k, (peer k).tuple, 0, some 0, none, opened pcb calmTf⟩ :: h.links } := by
    simp only [hostStep, segmentFrom, inputPacket, h₀.running]
    simp only [tcpInput, hapart, h₀.listenPcbs]
    have hroom : ¬ 0xFF ≤ k - 1 := by omega
    have halloc : tcpAlloc h = (h, true) := by simp [tcpAlloc, hfree]
    have hsyn : openingSyn.syn = true ∧ openingSyn.ack = false ∧ openingSyn.rst = false :=
      ⟨rfl, rfl, rfl⟩
    simp [listenInput, hsyn, hroom, halloc, hpcb, Nat.repeat]
  rw [hstep]
  have hsame := sameStack_charge 0 false [.delayed] h
  refine ⟨by simp [h₀.length], fun l hl => ?_, fun l hl => ?_, hcharge, ?_⟩
  · rcases List.mem_cons.1 hl with rfl | hl
    · exact hocc
    · exact h₀.occupied l hl
  · rcases List.mem_cons.1 hl with rfl | hl
    · exact ⟨k, Nat.lt_succ_self k, rfl⟩
    · obtain ⟨j, hj, ht⟩ := h₀.tuple l hl
      exact ⟨j, Nat.lt_succ_of_lt hj, ht⟩
  · have hrun := h₀.running
    simp only [Host.refAlive] at hrun ⊢
    rw [hsame.refs, hsame.stackRef, hsame.ready, hsame.netif]
    exact hrun

structure Full (ls : List (Link .ios)) : Prop where
  length : ls.length = 256
  occupied : ∀ l ∈ ls, occupied l = true
  foreign : ∀ l ∈ ls, l.tuple.localIp ≠ netifAddr

lemma Crowded.full {h : Host .ios} (h₀ : Crowded 256 h) : Full h.links := by
  refine ⟨h₀.length, h₀.occupied, fun l hl => ?_⟩
  obtain ⟨j, -, ht⟩ := h₀.tuple l hl
  rw [ht]
  simp [peer, Header.tuple, netifAddr]

lemma full_stop {h : Host .ios} (h₀ : Full h.links) (dests : List (BitVec 32)) :
    Full (stop dests h).links := by
  refine stop_rule (I := Full) (fun ls p _ hf => ?_) (fun ls hf => ?_) h₀ dests
  · refine ⟨by simp [hf.length], fun l hl => ?_, fun l hl => ?_⟩
    · obtain ⟨l₀, hl₀, rfl⟩ := List.mem_map.1 hl
      have hocc := hf.occupied l₀ hl₀
      split_ifs
      · obtain ⟨q, hq, hp⟩ := (Option.any_eq_true _ _).1 hocc
        simpa [StackLifecycle.occupied, after, step, modPcb, hq] using hp
      · exact hocc
    · obtain ⟨l₀, hl₀, rfl⟩ := List.mem_map.1 hl
      split_ifs <;> exact hf.foreign l₀ hl₀
  · have hid : ls.map (fun l => if l.tuple.localIp = netifAddr then after l .netifIpAddrChanged
        else l) = ls := by
      refine (List.map_congr_left fun l hl => ?_).trans (List.map_id _)
      exact if_neg (hf.foreign l hl)
    rw [hid]
    exact hf

lemma Full.unavailable {h : Host .ios} (h₀ : Full h.links) : pcbAvailable h = false := by
  have hused : used h.links = 256 := by
    rw [← h₀.length]
    refine List.countP_eq_length.2 fun l hl => ?_
    obtain ⟨q, hq, -⟩ := (Option.any_eq_true _ _).1 (h₀.occupied l hl)
    rw [hq]
    rfl
  have hfull : h.freePcb = false := by
    rw [Bool.eq_false_iff, ne_eq, freePcb_iff, hused]
    exact lt_irrefl 256
  unfold pcbAvailable
  rw [hfull, Bool.false_or, List.any_eq_false]
  intro l hl
  obtain ⟨q, hq, hp⟩ := (Option.any_eq_true _ _).1 (h₀.occupied l hl)
  obtain ⟨hlist, hstate, hpend⟩ := of_decide_eq_true hp
  have hsame : (after l .handleClosepend).sys.pcb = some q := by
    simp [after, step, onActive, modPcb, hq, hlist, sendPendingFin, hpend]
  unfold reclaimable
  rw [hsame]
  rcases hstate with hs | hs <;> simp [hlist, hs]

/-- 255 more connections wait to be accepted when the stack is stopped and started again. -/
def restart : List HostEvent :=
  firstConnection ++ (List.range 255).map (fun j => segmentFrom (j + 1) openingSyn) ++
    [.stop [], .start []]

lemma crowded_range {n : ℕ} (hn : n ≤ 255) : Crowded (n + 1) (Runs.run hostStep (boot .ios)
    (firstConnection ++ (List.range n).map fun j => segmentFrom (j + 1) openingSyn)) := by
  induction n with
  | zero => exact crowded_first
  | succ n ih =>
    rw [List.range_succ, List.map_append, ← List.append_assoc, Runs.run_append]
    exact crowded_syn (ih (by omega)) (by omega)

/-- The restarted stack says it is ready and has no listener. -/
theorem restart_without_listener :
    let h := Runs.run hostStep (boot .ios) restart
    h.ready = true ∧ h.netif.onList = true ∧ h.listener = none ∧ h.listenPcbs = [] := by
  intro h
  have hcrowd := crowded_range (le_refl 255)
  have hsane : Sane h := Runs.invariant_all hostStep Sane (fun _ e hs => sane_hostStep hs e)
    (sane_boot .ios) restart
  have hpool := Runs.invariant_all hostStep (fun h : Host .ios => Pooled h.links)
    (fun _ e hp => pooled_hostStep hp e)
    (pooled_boot .ios) (firstConnection ++ (List.range 255).map fun j => segmentFrom
      (j + 1) openingSyn)
  have heq : h = start [] (stop [] (Runs.run hostStep (boot .ios)
      (firstConnection ++ (List.range 255).map fun j => segmentFrom (j + 1) openingSyn))) := by
    simp only [h, restart]
    rw [Runs.run_append, Runs.run_cons, Runs.run_cons, Runs.run_nil]
    simp only [hostStep]
  generalize Runs.run hostStep (boot .ios)
    (firstConnection ++ (List.range 255).map fun j => segmentFrom (j + 1) openingSyn) =
      t at hcrowd hpool heq
  obtain ⟨hready, hlist, hnone⟩ :=
    start_without_pcb (ready_stop [] t) (pooled_stop hpool [])
      (full_stop hcrowd.full []).unavailable []
  rw [← heq] at hready hlist hnone
  refine ⟨hready, hlist, hnone, ?_⟩
  rcases hsane.listenPcbs with ⟨-, hnil⟩ | ⟨lp, hsome, -⟩
  · exact hnil
  · rw [hnone] at hsome
    cases hsome

end TunForge.StackLifecycle
