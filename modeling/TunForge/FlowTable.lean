import TunForge.HostRuns

/-! Transparent interception. Whatever addresses the segments carry, there is one pcb for
each flow, made by the SYN of that flow, and the delegate is shown the addresses of
this SYN. -/
namespace TunForge.FlowTable
open LwipTypes TcpIn Tcp Connection Callbacks
open Stack hiding tcpInput
open Inflow (view View living Flow AppFlow Phase)
open Termination OrdinarySteps PcbFrames InputCases StackRuns WorkFrames InflowEvents InflowCalls
  InboundRule
open BacklogSlots IpStack HostRuns

variable {o : Platform} {s s₀ : State o} {e : Event} {h h' : Host o}

/-! ### Offering a connection -/

/-- The connection is being shown to the delegate, or has been. -/
def Offered (v : View o) : Prop := .accepted ∈ v.queue ∨ ∃ out, (.accepted, out) ∈ v.trace

lemma offered_posts {v w : View o} {bs : List CBlock} (h : Offered w) (hq : w.queue = v.queue ++ bs)
    (ht : w.trace = v.trace) (hbs : .accepted ∉ bs) : Offered v := by
  unfold Offered at h ⊢
  rw [hq, ht, List.mem_append] at h
  exact h.imp_left fun h => h.resolve_right hbs

lemma offered_ended {v : View o} {r : Reason} {p : Option (Pcb o)}
    (h : Offered { v.ended r with pcb := p }) : Offered v := by
  cases hv : v.living with
  | false =>
    rw [ended_of_over r hv] at h
    exact h
  | true =>
    simp only [View.ended, hv, if_true] at h
    refine offered_posts (v := v) h rfl rfl ?_
    split_ifs <;> simp

lemma offered_flow {ph ph' : Phase} {v w : View o} (hw : Within s₀ e ph v)
    (hne : ¬ (Inflow.start e = .arriving ∧ Fresh (view s₀))) (hf : Flow s₀ e (ph, v) (ph', w))
    (h : Offered w) : Offered v := by
  rcases flow_life hf with
    ⟨hsame, bs, hq, hbs⟩ | ⟨rfl, hfresh, -⟩ | ⟨-, -, -, -, rfl⟩ | ⟨r, -, -, rfl⟩
  · refine offered_posts h hq (congrArg Life.trace hsame) fun hm => ?_
    rcases hbs _ hm with hb | ⟨-, hb⟩ <;> cases hb
  · exact absurd ⟨(hw.since rfl).1, hw.fresh hfresh⟩ hne
  · exact h
  · exact offered_ended h

lemma offered_app {a : AppEvent} {w : View o} (hf : AppFlow s a w) (h : Offered w) :
    Offered (view s) := by
  cases hf with
  | idle => exact h
  | worked _ _ _ _ hb =>
    refine offered_posts (v := view s) h rfl rfl fun hm => ?_
    cases hb _ hm
  | activated _ _ _ _ hb =>
    refine offered_posts (v := view s) h rfl rfl fun hm => ?_
    cases hb _ hm
  | closed => exact offered_ended h
  | discarded => exact offered_ended h
  | aborted => exact offered_ended h
  | @ran b rest out hq _ =>
    -- a block that has run is in the trace instead of the queue
    rcases h with h | ⟨out', h⟩
    · exact .inl (by simp only [view, hq]; exact List.mem_cons_of_mem b h)
    · rcases List.mem_append.1 h with h | h
      · exact .inr ⟨out', h⟩
      · cases List.mem_singleton.1 h
        exact .inl (by simp [view, hq])
  | _ => exact h

lemma offered_segment (hs : Sound s) {seg : Segment} (h : Offered (view (step s (.segment seg)))) :
    Offered (view s) ∨ (acceptCall s seg = true ∧ s.env.stack = true) := by
  -- a segment offers the connection only by completing the handshake with the stack there
  by_cases hfresh : Fresh (view s)
  case neg =>
    refine .inl ?_
    have hkept : Offered (view (step s (.segment seg))) → Offered (view s) :=
      keeps_event (I := fun _ v => Offered v → Offered (view s)) hs (by simp) id fun hw hi hf ho =>
        hi (offered_flow hw (fun hc => hfresh hc.2) hf ho)
    exact hkept h
  obtain ⟨pcb, hp, hsyn⟩ := hfresh
  have hp' : s.pcb = some pcb := hp
  have hhooks : s.hooks = openedHooks := (hs.wf.pcb pcb hp').fresh.2 hsyn
  have hact : pcb.list = .active := by
    rcases (hs.wf.pcb pcb hp').listed with ⟨hl, -⟩ | ⟨-, ht⟩
    · exact hl
    · rw [hsyn] at ht
      cases ht
  have hin : step s (.segment seg) = Stack.tcpInput seg s := rfl
  rw [hin] at h
  rcases tcpInput_fresh hs.wf seg hp' hsyn with
    ⟨hrst, hcomp, heq⟩ | ⟨q, heq⟩ | ⟨q, w, -, -, -, -, heq⟩
  · rw [heq] at h
    rcases acceptAndProcess_cases hs.wf seg hp' hsyn with
      ⟨-, hgone⟩ | ⟨hlis, hno, hacc⟩ | ⟨hlis, hstack, -, -⟩
    · rw [hgone] at h
      exact .inl h
    · rw [hacc] at h
      rcases tunforgeAccept_cases (s := ({ s with pcb := some (atAccept pcb seg) } : State o))
        hhooks rfl with
        ⟨-, hu⟩ | ⟨-, -, cs, -, hu⟩ | ⟨hst, hdel, -⟩
      · rw [hu] at h
        exact .inl h
      · rw [hu] at h
        rw [view_orphaned (living_of_fresh hs.wf hp' hsyn)] at h
        exact .inl h
      · have hst' : s.env.stack = true := hst
        have hdel' : s.env.delegate = true := hdel
        simp [hst', hdel'] at hno
    · refine .inr ⟨?_, hstack⟩
      simp [acceptCall, hp', hact, hlis, hrst, hcomp]
  · have hfree : view (removeAndFree ({ s with pcb := some q } : State o)) = { view s with
      pcb := none } := by
      simp [removeAndFree, tcpFree, modPcb, hhooks, openedHooks, view, living]
    rw [heq, hfree] at h
    exact .inl h
  · rw [heq] at h
    exact .inl h

lemma offered_step (hs : Sound s) (he : ∀ seg, e ≠ .segment seg) (h : Offered (view (step s e))) :
    Offered (view s) := by
  by_cases happ : ∃ a, e = .app a
  · obtain ⟨a, rfl⟩ := happ
    exact offered_app (flow_appStep hs.wf a) h
  · have hkept : Offered (view (step s e)) → Offered (view s) :=
      keeps_event (I := fun _ v => Offered v → Offered (view s)) hs
        (fun a ha => happ ⟨a, ha⟩) id fun hw hi hf ho => by
        refine hi (offered_flow hw (fun hc => ?_) hf ho)
        cases e <;> first | exact he _ rfl | cases hc.1
    exact hkept h

/-! ### The table of flows -/

/-- The pcb is on one of the two lists. -/
def listed (l : Link o) : Bool := l.onList .active || l.onList .timeWait

/-- A link is known by the flow of its SYN, and its connection shown under this name. -/
structure Named (l : Link o) : Prop where
  reach : Reachable l.sys
  tuple : l.tuple = l.syn.tuple
  info : Offered (view l.sys) → l.info = some (connectionInfo l.tuple)

def Apart (a b : Link o) : Prop := listed a = true → listed b = true → a.tuple ≠ b.tuple

lemma Apart.symm {a b : Link o} (h : Apart a b) : Apart b a := fun hb ha heq => h ha hb heq.symm

structure Table (h : Host o) : Prop where
  named : ∀ l ∈ h.links, Named l
  apart : h.links.Pairwise Apart

lemma pairwise_set {α : Type*} {R : α → α → Prop} {ls : List α} {i : ℕ} {a b : α}
    (hR : ls.Pairwise R) (hi : ls[i]? = some a) (hl : ∀ x, R a x → R b x)
    (hr : ∀ x, R x a → R x b) : (ls.set i b).Pairwise R := by
  rw [List.pairwise_iff_getElem] at hR ⊢
  obtain ⟨hlt, rfl⟩ := List.getElem?_eq_some_iff.1 hi
  intro j k hj hk hjk
  rw [List.length_set] at hj hk
  have h := hR j k hj hk hjk
  rw [List.getElem_set, List.getElem_set]
  split_ifs with h₁ h₂ h₂
  · omega
  · subst h₁
    exact hl _ h
  · subst h₂
    exact hr _ h
  · exact h

lemma listed_of_pcb {l l' : Link o} (hr : Reachable l.sys)
    (hpcb : l'.sys.pcb.isSome = true → l.sys.pcb.isSome = true) (h : listed l' = true) :
    listed l = true := by
  have hsome : l'.sys.pcb.isSome = true := by
    cases hp : l'.sys.pcb with
    | none => simp [listed, Link.onList, hp] at h
    | some p => rfl
  obtain ⟨p, hp⟩ := Option.isSome_iff_exists.1 (hpcb hsome)
  have hlist := ((slotted_reachable hr).1.wf.pcb p hp).listed
  simp only [listed, Link.onList, hp, Option.any_some, Bool.or_eq_true, decide_eq_true_eq]
  exact hlist.imp And.left And.left

lemma pcb_isSome_step (hs : Sound s) (h : (step s e).pcb.isSome = true) : s.pcb.isSome = true := by
  obtain ⟨q, hq⟩ := Option.isSome_iff_exists.1 h
  obtain ⟨p, hp, -⟩ := pcb_step hs hq
  simp [hp]

structure NoNew (h h' : Host o) : Prop where
  length : h'.links.length = h.links.length
  count : h'.links.countP listed ≤ h.links.countP listed

lemma NoNew.refl (h : Host o) : NoNew h h := ⟨rfl, le_rfl⟩

lemma NoNew.trans {a b c : Host o} (h : NoNew a b) (h' : NoNew b c) : NoNew a c :=
  ⟨h'.length.trans h.length, h'.count.trans h.count⟩

lemma NoNew.of_links (hl : h'.links = h.links) : NoNew h h' := ⟨by rw [hl], by rw [hl]⟩

lemma countP_set_le {α : Type*} {p : α → Bool} {ls : List α} {i : ℕ} {a b : α}
    (hi : ls[i]? = some a) (hp : p b = true → p a = true) :
    (ls.set i b).countP p ≤ ls.countP p := by
  obtain ⟨hlt, rfl⟩ := List.getElem?_eq_some_iff.1 hi
  rw [List.countP_set hlt]
  have hpos : p ls[i] = true → 0 < ls.countP p :=
    fun hp => List.countP_pos_iff.2 ⟨_, List.getElem_mem hlt, hp⟩
  split_ifs with ha hb hb
  · have := hpos ha
    omega
  · omega
  · exact absurd (hp hb) ha
  · omega

lemma table_set (h₀ : Table h) {i : ℕ} {l m : Link o} (hi : h.links[i]? = some l)
    (hlinks : h'.links = h.links.set i m) (hn : Named m) (ht : m.tuple = l.tuple)
    (hpcb : m.sys.pcb.isSome = true → l.sys.pcb.isSome = true) :
    Table h' ∧ NoNew h h' := by
  have hreach := (h₀.named l (List.mem_of_getElem? hi)).reach
  have hlisted := listed_of_pcb hreach hpcb
  refine ⟨⟨fun x hx => ?_, ?_⟩, by rw [hlinks, List.length_set], by
    rw [hlinks]; exact countP_set_le hi hlisted⟩
  · rw [hlinks] at hx
    rcases List.mem_or_eq_of_mem_set hx with hx | rfl
    · exact h₀.named x hx
    · exact hn
  · rw [hlinks]
    refine pairwise_set h₀.apart hi (fun x hx hl hx' => ?_) fun x hx hx' hl => ?_
    · rw [ht]
      exact hx (hlisted hl) hx'
    · rw [ht]
      exact hx hx' (hlisted hl)

lemma table_stepLink (h₀ : Table h) (i : ℕ) (he : ∀ seg, e ≠ .segment seg) :
    Table (stepLink i e h) ∧ NoNew h (stepLink i e h) := by
  cases hi : h.links[i]? with
  | none =>
    rw [stepLink_none hi]
    exact ⟨h₀, .refl h⟩
  | some l =>
    have hn := h₀.named l (List.mem_of_getElem? hi)
    have hs := (slotted_reachable hn.reach).1
    refine table_set h₀ hi (m := after l e) (by rw [stepLink_some hi]) ?_ rfl (pcb_isSome_step hs)
    exact ⟨reachable_after hn.reach e, hn.tuple, fun ho => hn.info (offered_step hs he ho)⟩

lemma table_inputLink (h₀ : Table h) (i : ℕ) (seg : Segment) :
    Table (inputLink i seg h) ∧ NoNew h (inputLink i seg h) := by
  cases hi : h.links[i]? with
  | none =>
    have heq : inputLink i seg h = h := by simp [inputLink, hi]
    rw [heq]
    exact ⟨h₀, .refl h⟩
  | some l =>
    have hn := h₀.named l (List.mem_of_getElem? hi)
    refine table_set h₀ hi (links_inputLink hi seg) ?_ rfl ?_
    · have hreach := reachable_after hn.reach
        (.app (.env { l.sys.env with stack := h.refAlive l.arg }))
      have hs := (slotted_reachable hn.reach).1
      refine ⟨reachable_after hreach (.segment seg), hn.tuple, fun ho => ?_⟩
      rcases offered_segment (slotted_reachable hreach).1 ho with ho | ⟨hacc, hstack⟩
      · dsimp only
        split_ifs
        · rfl
        · exact hn.info (offered_step hs (by simp) ho)
      · have hacc' : acceptCall l.sys seg = true := hacc
        have hstack' : h.refAlive l.arg = true := hstack
        simp [hacc', hstack']
    · intro hpcb
      have hreach := reachable_after hn.reach
        (.app (.env { l.sys.env with stack := h.refAlive l.arg }))
      exact pcb_isSome_step (slotted_reachable hn.reach).1
        (pcb_isSome_step (slotted_reachable hreach).1 hpcb)

lemma table_moveToFront (h₀ : Table h) (i : ℕ) : Table { h with links := moveToFront i h.links } ∧
    NoNew h { h with links := moveToFront i h.links } := by
  have hperm := moveToFront_perm i h.links
  exact ⟨⟨fun l hl => h₀.named l (hperm.mem_iff.1 hl), hperm.symm.pairwise h₀.apart fun h =>
    h.symm⟩, hperm.length_eq, (hperm.countP_eq listed).le⟩

lemma table_stepAll (h₀ : Table h) (p : Link o → Bool) (he : ∀ seg, e ≠ .segment seg) :
    Table (stepAll p e h) ∧ NoNew h (stepAll p e h) := by
  refine stepAll_rule (I := fun t => Table t ∧ NoNew h t) (fun t i ht => ?_) p ⟨h₀, .refl h⟩
  obtain ⟨hnext, hnew⟩ := table_stepLink ht.1 i he
  exact ⟨hnext, ht.2.trans hnew⟩

def Unmatched (t : FourTuple) (h : Host o) : Prop := ∀ l ∈ h.links, listed l = true → l.tuple ≠ t

lemma table_tcpAlloc (h₀ : Table h) : Table (tcpAlloc h).1 ∧ NoNew h (tcpAlloc h).1 ∧
    ∀ t, Unmatched t h → Unmatched t (tcpAlloc h).1 := by
  refine tcpAlloc_rule (I := fun h' => Table h' ∧ NoNew h h' ∧ ∀ t, Unmatched t h → Unmatched t h')
    (fun h' i e he hI => ?_)
    ⟨h₀, .refl h, fun _ => id⟩
  obtain ⟨ht, hnew, hun⟩ := hI
  obtain ⟨hnext, hnew'⟩ := table_stepLink ht i (e := e) fun seg hseg => by
    rw [hseg] at he
    cases he
  refine ⟨hnext, hnew.trans hnew', fun t hu => forall_stepLink (hun t hu) fun l hl hQ hlis => ?_⟩
  have hreach := (ht.named l hl).reach
  exact hQ (listed_of_pcb hreach (pcb_isSome_step (slotted_reachable hreach).1) hlis)

lemma Table.of_links (h₀ : Table h) (hl : h'.links = h.links) : Table h' := by
  obtain ⟨hn, ha⟩ := h₀
  rw [← hl] at hn ha
  exact ⟨hn, ha⟩

structure Opens (h : Host o) (hdr : Header) (seg : Segment) (h' : Host o) : Prop where
  flags : seg.syn = true ∧ seg.ack = false ∧ seg.rst = false
  unmatched : Unmatched hdr.tuple h
  made : ∃ l ls, h'.links = l :: ls ∧ ls.length = h.links.length ∧ l.syn = hdr ∧ l.tuple = hdr.tuple

lemma table_listenInput (h₀ : Table h) (lp : ListenPcb) (hdr : Header) {seg : Segment}
    (op : Opening) (hsyn : seg.syn = true) (hack : seg.ack = false) (hun : Unmatched hdr.tuple h) :
    Table (listenInput lp hdr seg op h) ∧
      (NoNew h (listenInput lp hdr seg op h) ∨ Opens h hdr seg (listenInput lp hdr seg op h)) := by
  -- a SYN for the listener makes at most one link, which has a name of its own
  obtain ⟨halloc, hnew, hun'⟩ := table_tcpAlloc h₀
  specialize hun' _ hun
  unfold listenInput
  split_ifs with hrst
  · exact ⟨h₀, .inl (.refl h)⟩
  · exact ⟨h₀, .inl (.refl h)⟩
  generalize tcpAlloc h = r at halloc hnew hun'
  obtain ⟨t, ok⟩ := r
  cases ok with
  | false => exact ⟨halloc.of_links rfl, .inl (hnew.trans (.of_links rfl))⟩
  | true =>
    dsimp only at halloc hnew hun' ⊢
    split
    · have hl := links_charge lp.id false [.delayed, .accepted] t
      exact ⟨halloc.of_links hl, .inl (hnew.trans (.of_links hl))⟩
    · next pcb hpcb =>
      refine ⟨⟨fun l hl => ?_, ?_⟩,
        .inr ⟨⟨hsyn, hack, by simpa using hrst⟩, hun, _, _, rfl, hnew.length, rfl, rfl⟩⟩
      · rcases List.mem_cons.1 hl with rfl | hl
        · refine ⟨⟨_, [], ⟨_, _, _, _, _, pcb, hpcb, hsyn, rfl⟩, rfl⟩, rfl, fun ho => ?_⟩
          rcases ho with ho | ⟨out, ho⟩ <;> cases ho
        · exact halloc.named l hl
      · exact List.pairwise_cons.2 ⟨fun l hl _ hlis heq => hun' l hl hlis heq.symm, halloc.apart⟩

lemma unmatched_of_findIdx {t : FourTuple} (ha : h.links.findIdx? (Link.matches .active t) = none)
    (hw : h.links.findIdx? (Link.matches .timeWait t) = none) : Unmatched t h := by
  rw [List.findIdx?_eq_none_iff] at ha hw
  intro l hl hlis heq
  have h₁ := ha l hl
  have h₂ := hw l hl
  simp only [listed, Bool.or_eq_true] at hlis
  rcases hlis with hlis | hlis
  · simp [Link.matches, hlis, heq] at h₁
  · simp [Link.matches, hlis, heq] at h₂

lemma table_tcpInput (h₀ : Table h) (hdr : Header) (seg : Segment) (op : Opening) :
    Table (tcpInput hdr seg op h) ∧
    (NoNew h (tcpInput hdr seg op h) ∨ Opens h hdr seg (tcpInput hdr seg op h)) := by
  unfold tcpInput
  split
  · next i _ =>
    obtain ⟨hm, hnew⟩ := table_moveToFront h₀ i
    obtain ⟨ht, hnew'⟩ := table_inputLink hm 0 seg
    exact ⟨ht, .inl (hnew.trans hnew')⟩
  · next ha =>
    split
    · next i _ =>
      obtain ⟨ht, hnew⟩ := table_inputLink h₀ i seg
      exact ⟨ht, .inl hnew⟩
    · next hw =>
      split
      · exact ⟨h₀, .inl (.refl h)⟩
      · next lp _ _ =>
        split_ifs with hf
        · simp only [Bool.and_eq_true, Bool.not_eq_true'] at hf
          exact table_listenInput h₀ lp hdr op hf.1 hf.2 (unmatched_of_findIdx ha hw)
        · exact ⟨h₀, .inl (.refl h)⟩

lemma table_inputPacket (h₀ : Table h) (p : Packet) : Table (inputPacket p h) ∧
    (NoNew h (inputPacket p h) ∨ ∃ hdr seg op, p.tcp = some (hdr, seg, op) ∧
      Opens h hdr seg (inputPacket p h)) := by
  unfold inputPacket
  split_ifs
  · exact ⟨h₀, .inl (.refl h)⟩
  · rw [outputs_eq]
    have hl : ∀ t : Host o, _ := links_sends p.dests
    split
    · next hdr seg op hp =>
      obtain ⟨ht, hnew⟩ := table_tcpInput h₀ hdr seg op
      refine ⟨ht.of_links (hl _), hnew.imp (fun hnew => hnew.trans (.of_links (hl _))) fun hopen =>
        ⟨hdr, seg, op, hp, ?_⟩⟩
      obtain ⟨hfl, hun, l, ls, hmade, hrest⟩ := hopen
      exact ⟨hfl, hun, l, ls, (hl _).trans hmade, hrest⟩
    · exact ⟨h₀.of_links (hl h), .inl (.of_links (hl h))⟩

lemma table_setupListener (h₀ : Table h) (dests : List (BitVec 32)) :
    Table (setupListener dests h) ∧ NoNew h (setupListener dests h) := by
  obtain ⟨halloc, hnew, -⟩ := table_tcpAlloc h₀
  unfold setupListener
  generalize tcpAlloc h = r at halloc hnew
  obtain ⟨t, ok⟩ := r
  have hl := links_sends dests t
  dsimp only at halloc hnew ⊢
  split_ifs
  · exact ⟨halloc.of_links hl, hnew.trans (.of_links hl)⟩
  · exact ⟨halloc.of_links hl, hnew.trans (.of_links hl)⟩

lemma table_start (h₀ : Table h) (dests : List (BitVec 32)) :
    Table (IpStack.start dests h) ∧ NoNew h (IpStack.start dests h) := by
  unfold IpStack.start setupLockedOnLWIPQueue
  dsimp only
  have hlinks : (if h.refAlive h.stackRef then h
      else { h with refs := h.refs ++ [⟨true, 0, 0⟩], stackRef := some h.refs.length }).links =
        h.links := by
    split_ifs <;> rfl
  generalize (if h.refAlive h.stackRef then h
    else { h with refs := h.refs ++ [⟨true, 0, 0⟩], stackRef := some h.refs.length }) = t at hlinks
  split_ifs
  · exact ⟨h₀.of_links hlinks, .of_links hlinks⟩
  · have hmod := links_modRef t.stackRef (fun ref => { ref with retained := ref.retained + 1 })
      ({ t with timer := true, ready := true } : Host o)
    have hset : ∀ u : Host o, u.links = h.links → Table (setupListener dests u) ∧
        NoNew h (setupListener dests u) := by
      intro u hu
      obtain ⟨ht, hnew⟩ := table_setupListener (h₀.of_links hu) dests
      exact ⟨ht, (NoNew.of_links hu).trans hnew⟩
    exact hset _ (hmod.trans hlinks)

lemma table_closeListener (h₀ : Table h) : Table (closeListener h) ∧ NoNew h (closeListener h) := by
  unfold closeListener
  split
  · exact ⟨h₀, .refl h⟩
  · next id _ =>
    obtain ⟨ht, hnew⟩ := table_stepAll h₀ (fun l => decide (l.listener = id)) (e := .listenerClosed)
      (by simp)
    exact ⟨ht.of_links rfl, hnew.trans (.of_links rfl)⟩

lemma table_removeNetif (h₀ : Table h) (dests : List (BitVec 32)) :
    Table (removeNetif dests h) ∧ NoNew h (removeNetif dests h) := by
  unfold removeNetif
  dsimp only
  split_ifs
  · have hdown : Table ({ h with netif := { h.netif with up := false } } : Host o) :=
      h₀.of_links rfl
    obtain ⟨ht, hnew⟩ := table_stepAll hdown (fun l => decide (l.tuple.localIp = netifAddr))
      (e := .netifIpAddrChanged)
      (by simp)
    have hl := links_sends dests
      (stepAll (fun l => decide (l.tuple.localIp = netifAddr)) .netifIpAddrChanged
      ({ h with netif := { h.netif with up := false } } : Host o))
    have hall := hnew.trans (.of_links hl)
    exact ⟨ht.of_links hl, hall.length, hall.count⟩
  · exact ⟨h₀.of_links rfl, .of_links rfl⟩

lemma table_stop (h₀ : Table h) (dests : List (BitVec 32)) :
    Table (stop dests h) ∧ NoNew h (stop dests h) := by
  unfold stop
  dsimp only
  have hmod := links_modRef h.stackRef (fun ref => { ref with alive := false })
    ({ h with timer := false } : Host o)
  generalize modRef h.stackRef (fun ref => { ref with alive := false }) { h with timer := false } =
    t at hmod
  have hset : Table ({ t with stackRef := none, ready := false } : Host o) := h₀.of_links hmod
  obtain ⟨hclose, hnew⟩ := table_closeListener hset
  generalize closeListener { t with stackRef := none, ready := false } = u at hclose hnew
  have hnet : Table (if u.netif.state = u.state then
      { removeNetif dests u with netif := { (removeNetif dests u).netif with state := none } }
        else u) ∧
      NoNew u (if u.netif.state = u.state then
      { removeNetif dests u with netif := { (removeNetif dests u).netif with state := none } }
        else u) := by
    split_ifs
    · obtain ⟨ht, hn⟩ := table_removeNetif hclose dests
      exact ⟨ht.of_links rfl, hn.trans (.of_links rfl)⟩
    · exact ⟨hclose, .refl u⟩
  generalize (if u.netif.state = u.state then
      { removeNetif dests u with netif := { (removeNetif dests u).netif with state := none } }
        else u) = v at hnet
  have hrel := links_modRef v.state (fun ref => { ref with released := ref.released + 1 }) v
  have hstart : NoNew h ({ t with stackRef := none, ready := false } : Host o) := .of_links hmod
  exact ⟨hnet.1.of_links hrel, (hstart.trans hnew).trans (hnet.2.trans (.of_links hrel))⟩

/-- An event of the stack that brings a SYN for a new flow. -/
def Syn (h : Host o) (e : HostEvent) (h' : Host o) : Prop :=
  ∃ hdr seg op dests replies, e = .inputPacket ⟨some (hdr, seg, op), dests, replies⟩ ∧
    Opens h hdr seg h'

lemma table_hostStep (h₀ : Table h) (e : HostEvent) :
    Table (hostStep h e) ∧ (NoNew h (hostStep h e) ∨ Syn h e (hostStep h e)) := by
  cases e with
  | start dests =>
    obtain ⟨ht, hnew⟩ := table_start h₀ dests
    exact ⟨ht, .inl hnew⟩
  | stop dests =>
    obtain ⟨ht, hnew⟩ := table_stop h₀ dests
    exact ⟨ht, .inl hnew⟩
  | inputPacket p =>
    obtain ⟨ht, hnew⟩ := table_inputPacket h₀ p
    refine ⟨ht, hnew.imp id fun ⟨hdr, seg, op, hp, hopen⟩ =>
      ⟨hdr, seg, op, p.dests, p.replies, ?_, hopen⟩⟩
    rw [← hp]
  | link i e dests =>
    simp only [hostStep]
    split_ifs with he
    · exact ⟨h₀, .inl (.refl h)⟩
    · obtain ⟨ht, hnew⟩ := table_stepLink h₀ i (e := e) fun seg hseg => he (by rw [hseg]; rfl)
      have hl := links_sends dests (stepLink i e h)
      exact ⟨ht.of_links hl, .inl (hnew.trans (.of_links hl))⟩

lemma table_run (es : List HostEvent) : Table (Runs.run hostStep (boot o) es) :=
  Runs.invariant_all hostStep Table (fun _ e ht => (table_hostStep ht e).1)
    ⟨fun _ hl => (by cases hl), List.Pairwise.nil⟩ es

/-- Every flow has one pcb, which its SYN has made, and is shown to the delegate under the
addresses of this SYN. -/
theorem one_pcb_per_flow (es : List HostEvent) :
    let h := Runs.run hostStep (boot o) es
    (h.links.filter listed).Pairwise (fun a b => a.tuple ≠ b.tuple) ∧
    (∀ e, (hostStep h e).links.length = h.links.length ∧
        (hostStep h e).links.countP listed ≤ h.links.countP listed ∨
      ∃ hdr seg op dests replies, e = .inputPacket ⟨some (hdr, seg, op), dests, replies⟩ ∧
        seg.syn = true ∧ seg.ack = false ∧ seg.rst = false ∧
          (∀ l ∈ h.links, listed l = true → l.tuple ≠ hdr.tuple) ∧
        ∃ l ls, (hostStep h e).links = l :: ls ∧ ls.length = h.links.length ∧ l.syn = hdr ∧
          l.tuple = hdr.tuple) ∧
    ∀ l ∈ h.links, (.accepted ∈ l.sys.connectionsQueue ∨
        ∃ out, (.accepted, out) ∈ l.sys.log.trace) →
      l.info = some ⟨tfIpv4ToString l.syn.srcIp, l.syn.srcPort, tfIpv4ToString l.syn.dstIp,
        l.syn.dstPort⟩ := by
  intro h
  have ht : Table h := table_run es
  refine ⟨?_, fun e => ?_, fun l hl ho => ?_⟩
  · rw [List.pairwise_filter]
    exact ht.apart
  · rcases (table_hostStep ht e).2 with hnew | ⟨hdr, seg, op, dests, replies, rfl, hopen⟩
    · exact .inl ⟨hnew.length, hnew.count⟩
    · exact .inr ⟨hdr, seg, op, dests, replies, rfl, hopen.flags.1, hopen.flags.2.1,
        hopen.flags.2.2, hopen.unmatched, hopen.made⟩
  · have hn := ht.named l hl
    rw [hn.info ho, hn.tuple]
    rfl

end TunForge.FlowTable
