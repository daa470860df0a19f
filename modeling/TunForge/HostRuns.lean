import TunForge.IpStack

/-! Runs of the whole stack: what its operations leave alone, and that every connection
in it goes through a run of its own. -/
namespace TunForge.HostRuns
open LwipTypes TcpIn Tcp Connection Callbacks
open Stack hiding tcpInput
open PcbFrames StackRuns WorkFrames BacklogSlots IpStack

variable {o : Platform} {h h' : Host o}

/-! ### What an event of a connection leaves alone -/

def key (lp : ListenPcb) : ℕ × ℕ × Option ℕ := (lp.id, lp.backlog, lp.callbackArg)

/-- All but the connections and the counter of the listener is the same. -/
structure SameStack (h h' : Host o) : Prop where
  listenPcbs : h'.listenPcbs.map key = h.listenPcbs.map key
  netif : h'.netif = h.netif
  refs : h'.refs = h.refs
  stackRef : h'.stackRef = h.stackRef
  state : h'.state = h.state
  ready : h'.ready = h.ready
  listener : h'.listener = h.listener
  timer : h'.timer = h.timer
  nextId : h'.nextId = h.nextId
  calls : h'.calls = h.calls

lemma SameStack.refl (h : Host o) : SameStack h h :=
  ⟨rfl, rfl, rfl, rfl, rfl, rfl, rfl, rfl, rfl, rfl⟩

lemma SameStack.trans {a b c : Host o} (h : SameStack a b) (h' : SameStack b c) : SameStack a c :=
  ⟨h'.listenPcbs.trans h.listenPcbs, h'.netif.trans h.netif, h'.refs.trans h.refs,
    h'.stackRef.trans h.stackRef, h'.state.trans h.state, h'.ready.trans h.ready,
    h'.listener.trans h.listener, h'.timer.trans h.timer, h'.nextId.trans h.nextId,
    h'.calls.trans h.calls⟩

lemma key_mapPending (ls : List ListenPcb) (id : ℕ) (f : ℕ → ℕ) :
    (ls.map fun q => if q.id = id then { q with acceptsPending := f q.acceptsPending }
      else q).map key =
      ls.map key := by
  rw [List.map_map]
  refine List.map_congr_left fun q _ => ?_
  simp only [Function.comp]
  split_ifs <;> rfl

lemma sameStack_charge (id : ℕ) (pend : Bool) (cs : List BacklogCall) (h : Host o) :
    SameStack h (charge id pend cs h) := by
  unfold charge
  split
  · exact .refl h
  · exact ⟨key_mapPending _ _ fun _ => _, rfl, rfl, rfl, rfl, rfl, rfl, rfl, rfl, rfl⟩

lemma sameStack_chargeCalls (l : Link o) (e : Event) (h : Host o) :
    SameStack h (chargeCalls l e h) := by
  unfold chargeCalls
  split
  · exact .refl h
  · split_ifs
    · exact sameStack_charge _ _ _ h
    · exact .refl h

lemma sameStack_stepLink (i : ℕ) (e : Event) (h : Host o) : SameStack h (stepLink i e h) := by
  unfold stepLink
  split
  · exact .refl h
  · next l _ =>
    have hs := sameStack_chargeCalls l e h
    exact ⟨hs.1, hs.2, hs.3, hs.4, hs.5, hs.6, hs.7, hs.8, hs.9, hs.10⟩

/-! ### Loops over the connections -/

lemma stepAll_rule {I : Host o → Prop} {e : Event} (hstep : ∀ h i, I h → I (stepLink i e h))
    (p : Link o → Bool) (hI : I h) : I (stepAll p e h) := by
  unfold stepAll
  generalize List.range h.links.length = is
  induction is generalizing h with
  | nil => exact hI
  | cons i is ih =>
    rw [List.foldl_cons]
    split_ifs
    · exact ih (hstep h i hI)
    · exact ih hI

lemma killOldest_rule {I : Host o → Prop} {e : Event} (hstep : ∀ h i, I h → I (stepLink i e h))
    (p : Pcb o → Bool) (hI : I h) : I (killOldest p e h) := by
  unfold killOldest
  split
  · exact hstep h _ hI
  · exact hI

/-- The events `tcp_alloc` takes connections through. -/
def reclaims : Event → Bool
  | .handleClosepend | .killTimewait | .killState => true
  | _ => false

lemma tcpAlloc_rule {I : Host o → Prop}
    (hstep : ∀ h i e, reclaims e = true → I h → I (stepLink i e h)) (hI : I h) :
    I (tcpAlloc h).1 := by
  have hpend := stepAll_rule (fun h i => hstep h i .handleClosepend rfl) (fun _ => true) hI
  have hwait := killOldest_rule (fun h i => hstep h i .killTimewait rfl)
    (fun q => decide (q.list = .timeWait)) hpend
  have hlast := killOldest_rule (fun h i => hstep h i .killState rfl)
    (fun q => decide (q.list = .active ∧ q.state = .lastAck)) hwait
  unfold tcpAlloc
  dsimp only
  split_ifs
  · exact hI
  · exact hwait
  · exact hlast
  · exact killOldest_rule (fun h i => hstep h i .killState rfl) _ hlast

lemma sameStack_stepAll (p : Link o → Bool) (e : Event) (h : Host o) :
    SameStack h (stepAll p e h) :=
  stepAll_rule (fun _ i hs => hs.trans (sameStack_stepLink i e _)) p (.refl h)

lemma sameStack_tcpAlloc (h : Host o) : SameStack h (tcpAlloc h).1 :=
  tcpAlloc_rule (fun _ i e _ hs => hs.trans (sameStack_stepLink i e _)) (.refl h)

/-! ### The connections -/

@[simp] lemma links_charge (id : ℕ) (pend : Bool) (cs : List BacklogCall) (h : Host o) :
    (charge id pend cs h).links = h.links := by
  unfold charge
  split <;> rfl

/-- The link after an event. -/
def after (l : Link o) (e : Event) : Link o := { l with sys := step l.sys e }

lemma stepLink_none {i : ℕ} (hi : h.links[i]? = none) (e : Event) : stepLink i e h = h := by
  unfold stepLink
  rw [hi]

lemma stepLink_some {i : ℕ} {l : Link o} (hi : h.links[i]? = some l) (e : Event) :
    stepLink i e h = { chargeCalls l e h with links := h.links.set i (after l e) } := by
  unfold stepLink
  rw [hi]
  rfl

lemma forall_stepLink {Q : Link o → Prop} {i : ℕ} {e : Event} (hQ : ∀ l ∈ h.links, Q l)
    (hstep : ∀ l ∈ h.links, Q l → Q (after l e)) : ∀ l ∈ (stepLink i e h).links, Q l := by
  cases hi : h.links[i]? with
  | none =>
    rw [stepLink_none hi]
    exact hQ
  | some l =>
    rw [stepLink_some hi]
    intro l' hl'
    have hl := List.mem_of_getElem? hi
    rcases List.mem_or_eq_of_mem_set hl' with hmem | rfl
    · exact hQ l' hmem
    · exact hstep l hl (hQ l hl)

lemma moveToFront_perm (i : ℕ) (ls : List (Link o)) : (moveToFront i ls).Perm ls := by
  unfold moveToFront
  split
  · exact .refl ls
  · next l hl =>
    obtain ⟨hi, rfl⟩ := List.getElem?_eq_some_iff.1 hl
    exact List.getElem_cons_eraseIdx_perm hi

lemma links_stepAll (p : Link o → Bool) (e : Event) (h : Host o) :
    (stepAll p e h).links = h.links.map fun l => if p l then after l e else l := by
  -- a pass over all the connections takes each of those meeting `p` through the event
  have hprefix : ∀ k, k ≤ h.links.length →
      ((List.range k).foldl (fun h i => if h.links[i]?.any p then stepLink i e h else h) h).links =
        (h.links.take k).map (fun l => if p l then after l e else l) ++ h.links.drop k := by
    intro k
    induction k with
    | zero => simp
    | succ k ih =>
      intro hk
      have hlt : k < h.links.length := hk
      specialize ih (by omega)
      rw [List.range_succ, List.foldl_append, List.foldl_cons, List.foldl_nil]
      generalize (List.range k).foldl (fun h i => if h.links[i]?.any p then stepLink i e h else h) h
        = t at ih
      have hget : t.links[k]? = some h.links[k] := by
        rw [ih, List.getElem?_append_right (by simp)]
        simp [Nat.min_eq_left hlt.le]
      rw [List.drop_eq_getElem_cons hlt] at ih
      rw [hget, Option.any_some, List.take_succ_eq_append_getElem hlt, List.map_append,
        List.append_assoc]
      split_ifs with hpk
      · rw [stepLink_some hget]
        dsimp only
        rw [ih, List.set_append_right _ _ (by simp)]
        have hlen : k - min k h.links.length = 0 := by omega
        rw [List.length_map, List.length_take, hlen, List.set_cons_zero]
        simp [hpk]
      · rw [ih]
        simp [hpk]
  have hall := hprefix h.links.length le_rfl
  simpa [stepAll] using hall

/-- A segment for a link: its connection learns whether the stack is there, and takes the segment,
before which the accept callback may come. -/
lemma inputLink_rule {I : Host o → Prop} {i : ℕ} {seg : Segment}
    (hstep : ∀ h e, e ≠ .listenerClosed → I h → I (stepLink i e h))
    (hacc : ∀ l h', h.links[i]? = some l → acceptCall l.sys seg = true → SameStack h h' → I h' →
      I (acceptLink i l h'))
    (hI : I h) : I (inputLink i seg h) := by
  unfold inputLink
  split
  · exact hI
  · next l hl =>
    dsimp only
    refine hstep _ _ (by simp) ?_
    split_ifs with ha
    · exact hacc l _ hl ha (sameStack_stepLink _ _ _) (hstep _ _ (by simp) hI)
    · exact hstep _ _ (by simp) hI

lemma links_inputLink {i : ℕ} {l : Link o} (hi : h.links[i]? = some l) (seg : Segment) :
    (inputLink i seg h).links = h.links.set i
      { l with
        info := if acceptCall l.sys seg && h.refAlive l.arg then some (connectionInfo l.tuple)
        else l.info
        sys := step (step l.sys (.app (.env { l.sys.env with stack := h.refAlive l.arg })))
          (.segment seg) } := by
  obtain ⟨hlt, -⟩ := List.getElem?_eq_some_iff.1 hi
  obtain ⟨b, hb⟩ : ∃ b, h.refAlive l.arg = b := ⟨_, rfl⟩
  have hrefs : (stepLink i (.app (.env { l.sys.env with stack := b })) h).refAlive l.arg = b := by
    rw [← hb]
    unfold Host.refAlive
    rw [(sameStack_stepLink i _ h).refs]
  have hset : (stepLink i (.app (.env { l.sys.env with stack := b })) h).links =
      h.links.set i (after l (.app (.env { l.sys.env with stack := b }))) := by
    rw [stepLink_some hi]
  unfold inputLink
  rw [hi, hb]
  dsimp only
  rw [hb]
  generalize stepLink i (.app (.env { l.sys.env with stack := b })) h = t at hrefs hset
  have hacc : (if acceptCall l.sys seg then acceptLink i l t else t).links = h.links.set i
      { after l (.app (.env { l.sys.env with stack := b })) with
        info := if acceptCall l.sys seg && b then some (connectionInfo l.tuple) else l.info } := by
    cases acceptCall l.sys seg with
    | false => exact hset
    | true =>
      unfold acceptLink
      dsimp only
      have hcall : (t.call .accept l.arg).refAlive l.arg = b := hrefs
      rw [if_pos rfl, hcall]
      cases b with
      | false => exact hset
      | true =>
        simp only [Host.call, hset, if_true, Bool.and_self]
        rw [List.modify_eq_set_get _ (by simpa using hlt)]
        simp [after]
  have hget : (if acceptCall l.sys seg then acceptLink i l t else t).links[i]? = some
      { after l (.app (.env { l.sys.env with stack := b })) with
        info := if acceptCall l.sys seg && b then some (connectionInfo l.tuple) else l.info } := by
    rw [hacc, List.getElem?_set_self hlt]
  rw [stepLink_some hget]
  simp [hacc, after]

/-! ### The listener and its connections -/

/-- A connection reached by a run of its own, whose pcb points to the listener exactly while that
is the one it came through. -/
structure LinkOk (h : Host o) (l : Link o) : Prop where
  reach : Reachable l.sys
  linked : ∀ p, l.sys.pcb = some p → (p.listener = true ↔ h.listener = some l.listener)
  arg : ∀ lp ∈ h.listenPcbs, lp.id = l.listener → l.arg = lp.callbackArg
  born : l.listener < h.nextId

structure Sane (h : Host o) : Prop where
  links : ∀ l ∈ h.links, LinkOk h l
  listen : h.listenPcbs.map ListenPcb.id = h.listener.toList
  idle : h.ready = false → h.listener = none
  bound : ∀ id, h.listener = some id → id < h.nextId
  backlog : ∀ lp ∈ h.listenPcbs, lp.backlog = 0xFF

structure SameListen (h h' : Host o) : Prop where
  listenPcbs : h'.listenPcbs.map key = h.listenPcbs.map key
  listener : h'.listener = h.listener
  nextId : h'.nextId = h.nextId

lemma SameStack.listen (h₀ : SameStack h h') : SameListen h h' :=
  ⟨h₀.listenPcbs, h₀.listener, h₀.nextId⟩

lemma SameListen.mem (hs : SameListen h h') {lp : ListenPcb} (hlp : lp ∈ h'.listenPcbs) :
    ∃ q ∈ h.listenPcbs, key q = key lp := by
  have hmem : key lp ∈ h'.listenPcbs.map key := List.mem_map_of_mem hlp
  rw [hs.listenPcbs] at hmem
  exact List.mem_map.1 hmem

lemma LinkOk.same (hs : SameListen h h') {l : Link o} (hl : LinkOk h l) : LinkOk h' l := by
  refine ⟨hl.reach, fun p hp => ?_, fun lp hlp hid => ?_, ?_⟩
  · rw [hs.listener]
    exact hl.linked p hp
  · obtain ⟨q, hq, hkey⟩ := hs.mem hlp
    have hqid : q.id = lp.id := congrArg Prod.fst hkey
    have hqarg : q.callbackArg = lp.callbackArg := congrArg (fun k => k.2.2) hkey
    exact (hl.arg q hq (hqid.trans hid)).trans hqarg
  · rw [hs.nextId]
    exact hl.born

lemma Sane.same (h₀ : Sane h) (hs : SameListen h h') (hr : h'.ready = false → h.ready = false)
    (hl : ∀ l ∈ h'.links, LinkOk h l) : Sane h' := by
  -- only the connections have changed, and they are still in order
  refine ⟨fun l hmem => (hl l hmem).same hs, ?_, ?_, ?_, fun lp hlp => ?_⟩
  · have hids : h'.listenPcbs.map ListenPcb.id = h.listenPcbs.map ListenPcb.id := by
      have hkeys := congrArg (List.map Prod.fst) hs.listenPcbs
      rw [List.map_map, List.map_map] at hkeys
      exact hkeys
    rw [hids, hs.listener]
    exact h₀.listen
  · rw [hs.listener]
    exact fun hf => h₀.idle (hr hf)
  · rw [hs.listener, hs.nextId]
    exact h₀.bound
  · obtain ⟨q, hq, hkey⟩ := hs.mem hlp
    have hback : q.backlog = lp.backlog := congrArg (fun k => k.2.1) hkey
    rw [← hback]
    exact h₀.backlog q hq

lemma reachable_after {s : State o} (h : Reachable s) (e : Event) : Reachable (step s e) := by
  obtain ⟨s₀, es, h₀, rfl⟩ := h
  exact ⟨s₀, es ++ [e], h₀, by rw [Runs.run_append]; rfl⟩

lemma LinkOk.after {l : Link o} (hl : LinkOk h l) {e : Event} (he : e ≠ .listenerClosed) :
    LinkOk h (after l e) := by
  refine ⟨reachable_after hl.reach e, fun q hq => ?_, hl.arg, hl.born⟩
  obtain ⟨p, hp, hlis⟩ := pcb_step (slotted_reachable hl.reach).1 hq
  rw [hlis, decide_eq_false he, Bool.not_false, Bool.and_true]
  exact hl.linked p hp

lemma sane_stepLink (h₀ : Sane h) (i : ℕ) {e : Event} (he : e ≠ .listenerClosed) :
    Sane (stepLink i e h) :=
  h₀.same (sameStack_stepLink i e h).listen (sameStack_stepLink i e h).ready.symm.trans
    (forall_stepLink h₀.links fun _ _ hl => hl.after he)

lemma sane_tcpAlloc (h₀ : Sane h) : Sane (tcpAlloc h).1 :=
  tcpAlloc_rule (fun _ i e he hs => sane_stepLink hs i fun h => by rw [h] at he; cases he) h₀

lemma sane_moveToFront (h₀ : Sane h) (i : ℕ) : Sane { h with links := moveToFront i h.links } :=
  h₀.same ⟨rfl, rfl, rfl⟩ id fun l hl => h₀.links l ((moveToFront_perm i h.links).mem_iff.1 hl)

lemma sane_acceptLink (h₀ : Sane h) (i : ℕ) (l : Link o) : Sane (acceptLink i l h) := by
  unfold acceptLink
  dsimp only
  split_ifs
  · refine h₀.same ⟨rfl, rfl, rfl⟩ id fun l' hl' => ?_
    obtain ⟨j, hj⟩ := List.mem_iff_getElem?.1 hl'
    rw [List.getElem?_modify] at hj
    obtain ⟨l₀, hget, rfl⟩ := Option.map_eq_some_iff.1 hj
    have hok := h₀.links l₀ (List.mem_of_getElem? hget)
    split_ifs
    · exact ⟨hok.reach, hok.linked, hok.arg, hok.born⟩
    · exact hok
  · exact h₀.same ⟨rfl, rfl, rfl⟩ id h₀.links

lemma sane_inputLink (h₀ : Sane h) (i : ℕ) (seg : Segment) : Sane (inputLink i seg h) :=
  inputLink_rule (fun _ _ he hs => sane_stepLink hs i he)
    (fun l _ _ _ _ hs => sane_acceptLink hs i l) h₀

lemma sane_charge (h₀ : Sane h) (id : ℕ) (pend : Bool) (cs : List BacklogCall) :
    Sane (charge id pend cs h) := by
  refine h₀.same (sameStack_charge id pend cs h).listen
    (sameStack_charge id pend cs h).ready.symm.trans ?_
  rw [links_charge]
  exact h₀.links

lemma Sane.listenPcbs (h₀ : Sane h) : (h.listener = none ∧ h.listenPcbs = []) ∨
    ∃ lp, h.listener = some lp.id ∧ h.listenPcbs = [lp] := by
  have hlisten := h₀.listen
  cases hl : h.listener with
  | none =>
    rw [hl] at hlisten
    exact .inl ⟨rfl, by simpa using hlisten⟩
  | some id =>
    rw [hl] at hlisten
    obtain ⟨lp, hlps, hid⟩ := List.map_eq_singleton_iff.1 hlisten
    exact .inr ⟨lp, by rw [hid], hlps⟩

lemma sane_listenInput (h₀ : Sane h) {lp : ListenPcb} (hlp : lp ∈ h.listenPcbs) (hdr : Header)
    {seg : Segment} (hsyn : seg.syn = true) (op : Opening) :
    Sane (listenInput lp hdr seg op h) := by
  unfold listenInput
  split_ifs
  · exact h₀
  · exact h₀
  have halloc := sane_tcpAlloc h₀
  have hsame := sameStack_tcpAlloc h
  generalize tcpAlloc h = r at halloc hsame
  obtain ⟨t, ok⟩ := r
  cases ok with
  | false => exact halloc.same ⟨rfl, rfl, rfl⟩ id halloc.links
  | true =>
    dsimp only at halloc hsame ⊢
    split
    · exact sane_charge halloc _ _ _
    · next pcb hpcb =>
      refine halloc.same ?_ (sameStack_charge lp.id false [.delayed] t).ready.symm.trans fun l hl =>
        ?_
      · have hs := (sameStack_charge lp.id false [.delayed] t).listen
        exact ⟨hs.1, hs.2, hs.3⟩
      rcases List.mem_cons.1 hl with rfl | hl
      · have hcur : t.listener = some lp.id := by
          rcases h₀.listenPcbs with ⟨-, hnil⟩ | ⟨lp', hl', hone⟩
          · rw [hnil] at hlp
            cases hlp
          · rw [hone, List.mem_singleton] at hlp
            rw [hsame.listener, hl', hlp]
        have hcore := (StackRuns.core_tcpListenInput hpcb).1
        refine ⟨⟨_, [], ⟨_, _, _, _, _, pcb, hpcb, hsyn, rfl⟩, rfl⟩, fun p hp => ?_,
          fun q hq hid => ?_, halloc.bound _ hcur⟩
        · cases hp
          have hlis : pcb.listener = true := congrArg Core.listener hcore
          simp [hlis, hcur]
        · obtain ⟨q₀, hq₀, hkey⟩ := hsame.listen.mem hq
          have hqid : q₀.id = q.id := congrArg Prod.fst hkey
          have hqarg : q₀.callbackArg = q.callbackArg := congrArg (fun k => k.2.2) hkey
          rcases h₀.listenPcbs with ⟨-, hnil⟩ | ⟨lp', -, hone⟩
          · rw [hnil] at hlp
            cases hlp
          · rw [hone, List.mem_singleton] at hlp hq₀
            rw [← hqarg, hq₀, hlp]
      · exact halloc.links l hl

lemma sane_tcpInput (h₀ : Sane h) (hdr : Header) (seg : Segment) (op : Opening) :
    Sane (tcpInput hdr seg op h) := by
  unfold tcpInput
  split
  · exact sane_inputLink (sane_moveToFront h₀ _) 0 seg
  · split
    · exact sane_inputLink h₀ _ seg
    · split
      · exact h₀
      · next lp rest hlps =>
        split_ifs with hf
        · rw [Bool.and_eq_true] at hf
          exact sane_listenInput h₀ (by simp [hlps]) hdr hf.1 op
        · exact h₀

/-! ### The stack -/

lemma sends_eq (dests : List (BitVec 32)) (h : Host o) : ∃ n,
    dests.foldl Host.send h =
      { h with
        calls := h.calls ++ List.replicate n ⟨.output, h.netif.state, h.stale h.netif.state⟩ } ∧
    (0 < n → ∃ dest, h.route dest = true) := by
  induction dests generalizing h with
  | nil => exact ⟨0, by simp, fun hn => absurd hn (by simp)⟩
  | cons d dests ih =>
    rw [List.foldl_cons]
    by_cases hr : h.route d = true
    · obtain ⟨n, heq, -⟩ := ih (h.send d)
      refine ⟨n + 1, ?_, fun _ => ⟨d, hr⟩⟩
      rw [heq, Host.send, if_pos hr]
      simp [Host.output, Host.call, Host.stale, List.replicate_succ]
    · rw [show h.send d = h from if_neg hr]
      exact ih h

lemma outputs_eq (n : ℕ) (h : Host o) : n.repeat Host.output h =
    { h with
      calls := h.calls ++ List.replicate n ⟨.output, h.netif.state, h.stale h.netif.state⟩ } := by
  induction n with
  | zero => simp [Nat.repeat]
  | succ n ih =>
    rw [Nat.repeat, ih]
    simp [Host.output, Host.call, Host.stale, List.replicate_succ']

lemma Sane.recall (h₀ : Sane h) (calls : List Call) : Sane { h with calls := calls } :=
  h₀.same ⟨rfl, rfl, rfl⟩ id h₀.links

lemma sane_sends (h₀ : Sane h) (dests : List (BitVec 32)) : Sane (dests.foldl Host.send h) := by
  obtain ⟨n, heq, -⟩ := sends_eq dests h
  rw [heq]
  exact h₀.recall _

lemma links_sends (dests : List (BitVec 32)) (h : Host o) :
    (dests.foldl Host.send h).links = h.links := by
  obtain ⟨n, heq, -⟩ := sends_eq dests h
  rw [heq]

lemma links_modRef (arg : Option ℕ) (f : StackRef → StackRef) (h : Host o) :
    (modRef arg f h).links = h.links := by
  cases arg <;> rfl

lemma sane_modRef (h₀ : Sane h) (arg : Option ℕ) (f : StackRef → StackRef) :
    Sane (modRef arg f h) := by
  unfold modRef
  split
  · exact h₀
  · exact h₀.same ⟨rfl, rfl, rfl⟩ id h₀.links

lemma modRef_frame (arg : Option ℕ) (f : StackRef → StackRef) (h : Host o) :
    (modRef arg f h).listener = h.listener ∧ (modRef arg f h).ready = h.ready := by
  cases arg <;> exact ⟨rfl, rfl⟩

lemma sane_inputPacket (h₀ : Sane h) (p : Packet) : Sane (inputPacket p h) := by
  unfold inputPacket
  split_ifs
  · exact h₀
  · rw [outputs_eq]
    refine (sane_sends ?_ _).recall _
    split
    · exact sane_tcpInput h₀ _ _ _
    · exact h₀

lemma sane_setupListener (h₀ : Sane h) (hready : h.ready = true) (hl : h.listener = none)
    (dests : List (BitVec 32)) :
    Sane (setupListener dests h) := by
  have halloc := sane_tcpAlloc h₀
  have hsame := sameStack_tcpAlloc h
  unfold setupListener
  generalize tcpAlloc h = r at halloc hsame
  obtain ⟨t, ok⟩ := r
  dsimp only at halloc hsame ⊢
  obtain ⟨n, heq, -⟩ := sends_eq dests t
  have hsend := sane_sends halloc dests
  rw [heq] at hsend ⊢
  have hnone : t.listener = none := hsame.listener.trans hl
  have hpcbs : t.listenPcbs = [] := by
    rcases halloc.listenPcbs with ⟨-, hnil⟩ | ⟨lp, hsome, -⟩
    · exact hnil
    · rw [hnone] at hsome
      cases hsome
  have hup : t.ready = true := hsame.ready.trans hready
  split_ifs
  · refine ⟨fun l hl => ?_, by simp [hpcbs], fun hr => ?_, fun id hid => ?_, by simp [hpcbs]⟩
    · have hok := halloc.links l hl
      have hlt := hok.born
      refine ⟨hok.reach, fun p hp => ?_, fun lp hlp hid => ?_, ?_⟩
      · have hlink := hok.linked p hp
        rw [hnone] at hlink
        simp only [Option.some.injEq]
        constructor
        · intro hp'
          simp [hp'] at hlink
        · intro heq
          omega
      · simp only [hpcbs, List.mem_singleton] at hlp
        subst hlp
        dsimp only at hid
        omega
      · exact hlt.trans (Nat.lt_succ_self _)
    · rw [hup] at hr
      cases hr
    · cases hid
      dsimp only
      omega
  · exact hsend.same ⟨rfl, hnone.symm, rfl⟩ id hsend.links

lemma sane_start (h₀ : Sane h) (dests : List (BitVec 32)) : Sane (start dests h) := by
  unfold start setupLockedOnLWIPQueue
  dsimp only
  generalize hh : (if h.refAlive h.stackRef then h
    else { h with refs := h.refs ++ [⟨true, 0, 0⟩], stackRef := some h.refs.length }) = t
  have ht : Sane t := by
    rw [← hh]
    split_ifs
    · exact h₀
    · exact h₀.same ⟨rfl, rfl, rfl⟩ id h₀.links
  split_ifs with hr
  · exact ht.same ⟨rfl, rfl, rfl⟩ id ht.links
  · have hnone : t.listener = none := ht.idle (by simpa using hr)
    have hset : Sane ({ t with timer := true, ready := true } : Host o) :=
      ht.same ⟨rfl, rfl, rfl⟩ (fun hf => by cases hf) ht.links
    have hmod := sane_modRef hset t.stackRef fun ref => { ref with retained := ref.retained + 1 }
    obtain ⟨hlis, hup⟩ := modRef_frame t.stackRef
      (fun ref => { ref with retained := ref.retained + 1 })
      ({ t with timer := true, ready := true } : Host o)
    refine sane_setupListener ?_ ?_ ?_ dests
    · exact hmod.same ⟨rfl, rfl, rfl⟩ id hmod.links
    · exact hup
    · exact hlis.trans hnone

lemma sane_closeListener (h₀ : Sane h) {g : Host o} (hlinks : g.links = h.links)
    (hpcbs : g.listenPcbs = h.listenPcbs) (hlis : g.listener = h.listener)
    (hid : g.nextId = h.nextId) :
    Sane (closeListener g) ∧ (closeListener g).listener = none := by
  -- closing the listener leaves no pcb that points to one
  unfold closeListener
  rcases h₀.listenPcbs with ⟨hnone, hnil⟩ | ⟨lp, hsome, hone⟩
  · rw [hlis, hnone]
    refine ⟨⟨fun l hl => ?_, ?_, fun _ => hlis.trans hnone, ?_, ?_⟩, hlis.trans hnone⟩
    · rw [hlinks] at hl
      exact (h₀.links l hl).same ⟨by rw [hpcbs], hlis, hid⟩
    · rw [hpcbs, hlis]
      exact h₀.listen
    · rw [hlis, hid]
      exact h₀.bound
    · rw [hpcbs]
      exact h₀.backlog
  · rw [hlis, hsome]
    have hsame := sameStack_stepAll (fun l => decide (l.listener = lp.id)) .listenerClosed g
    have hall := links_stepAll (fun l => decide (l.listener = lp.id)) .listenerClosed g
    dsimp only
    generalize stepAll (fun l => decide (l.listener = lp.id)) .listenerClosed g = t at hsame hall
    have hgone : t.listenPcbs.filter (fun q => decide (q.id ≠ lp.id)) = [] := by
      rw [List.filter_eq_nil_iff]
      intro q hq
      obtain ⟨q₀, hq₀, hkey⟩ := hsame.listen.mem hq
      rw [hpcbs, hone, List.mem_singleton] at hq₀
      have hqid : q₀.id = q.id := congrArg Prod.fst hkey
      simp [← hqid, hq₀]
    rw [hgone]
    refine ⟨⟨fun l hl => ?_, rfl, fun _ => rfl, fun _ hf => (by cases hf),
      fun _ hq => (by cases hq)⟩, rfl⟩
    rw [hall, hlinks] at hl
    obtain ⟨l₀, hl₀, rfl⟩ := List.mem_map.1 hl
    have hok := h₀.links l₀ hl₀
    have hborn : l₀.listener < t.nextId := by
      rw [hsame.nextId, hid]
      exact hok.born
    split_ifs with hdec
    · refine ⟨reachable_after hok.reach .listenerClosed, fun q hq => ?_, fun _ hq => (by cases hq),
        hborn⟩
      obtain ⟨p, -, hclosed⟩ := pcb_step (slotted_reachable hok.reach).1 hq
      simp [hclosed]
    · refine ⟨hok.reach, fun p hp => ?_, fun _ hq => (by cases hq), hborn⟩
      have hlink := hok.linked p hp
      rw [hsome, Option.some.injEq] at hlink
      have hne : ¬ lp.id = l₀.listener := fun heq => hdec (by simp [heq])
      simp [hlink, hne]

lemma sane_removeNetif (h₀ : Sane h) (dests : List (BitVec 32)) : Sane (removeNetif dests h) := by
  unfold removeNetif
  dsimp only
  have hdown : Sane ({ h with netif := { h.netif with up := false } } : Host o) :=
    h₀.same ⟨rfl, rfl, rfl⟩ id h₀.links
  split_ifs
  · have hall := stepAll_rule (I := Sane)
      (fun _ i hs => sane_stepLink hs i (e := .netifIpAddrChanged) (by simp))
      (fun l => decide (l.tuple.localIp = netifAddr)) hdown
    have hsend := sane_sends hall dests
    exact hsend.same ⟨rfl, rfl, rfl⟩ id hsend.links
  · exact hdown.same ⟨rfl, rfl, rfl⟩ id hdown.links

lemma sane_stop (h₀ : Sane h) (dests : List (BitVec 32)) : Sane (stop dests h) := by
  unfold stop
  dsimp only
  have hmod := sane_modRef (show Sane { h with timer := false } from h₀.same
    ⟨rfl, rfl, rfl⟩ id h₀.links) h.stackRef
    fun ref => { ref with alive := false }
  generalize modRef h.stackRef (fun ref => { ref with alive := false }) { h with timer := false } =
    t at hmod
  obtain ⟨hclose, -⟩ := sane_closeListener
    (g := { t with stackRef := none, ready := false }) hmod rfl rfl rfl rfl
  generalize closeListener { t with stackRef := none, ready := false } = u at hclose
  have hnet : Sane (if u.netif.state = u.state then
      { removeNetif dests u with netif := { (removeNetif dests u).netif with state := none } }
        else u) := by
    have hrem := sane_removeNetif hclose dests
    split_ifs
    · exact hrem.same ⟨rfl, rfl, rfl⟩ id hrem.links
    · exact hclose
  have hrel := sane_modRef hnet (if u.netif.state = u.state then
      { removeNetif dests u with netif := { (removeNetif dests u).netif with state := none } }
        else u).state
    fun ref => { ref with released := ref.released + 1 }
  exact hrel.same ⟨rfl, rfl, rfl⟩ id hrel.links

lemma sane_boot (o : Platform) : Sane (boot o) :=
  ⟨fun _ hl => (by cases hl), rfl, fun _ => rfl, fun _ hl => (by cases hl),
    fun _ hl => (by cases hl)⟩

lemma sane_hostStep (h₀ : Sane h) (e : HostEvent) : Sane (hostStep h e) := by
  cases e with
  | start dests => exact sane_start h₀ dests
  | stop dests => exact sane_stop h₀ dests
  | inputPacket p => exact sane_inputPacket h₀ p
  | link i e dests =>
    simp only [hostStep]
    split_ifs with he
    · exact h₀
    · exact sane_sends (sane_stepLink h₀ i fun h => he (by rw [h]; rfl)) dests

end TunForge.HostRuns
