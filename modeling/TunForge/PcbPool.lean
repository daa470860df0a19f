import TunForge.HostRuns

/-! The pool of pcbs: it never overflows, and `tcp_alloc` finds a pcb exactly if one is free or may
be taken from a connection that is closing. -/
namespace TunForge.PcbPool
open LwipTypes Tcp Connection Callbacks
open Stack hiding tcpInput
open InputCases IpStack HostRuns BacklogSlots

variable {o : Platform} {h : Host o} {ls : List (Link o)} {l : Link o} {i : ℕ}

def used (ls : List (Link o)) : ℕ := ls.countP fun l => l.sys.pcb.isSome

lemma freePcb_iff : h.freePcb = true ↔ used h.links < memNumTcpPcb o := by
  simp [Host.freePcb, used]

/-! ### The pool never overflows -/

/-- Every connection has come through a run of its own, and their pcbs fit into the pool. -/
structure Pooled (ls : List (Link o)) : Prop where
  reach : ∀ l ∈ ls, Reachable l.sys
  fits : used ls ≤ memNumTcpPcb o

lemma used_set (hi : ls[i]? = some l) (l' : Link o) :
    used (ls.set i l') + (if l.sys.pcb.isSome then 1 else 0) = used ls + if l'.sys.pcb.isSome then 1
    else 0 := by
  obtain ⟨hlt, rfl⟩ := List.getElem?_eq_some_iff.1 hi
  have hle : (if ls[i].sys.pcb.isSome then 1 else 0) ≤ used ls := by
    split_ifs with hs
    · exact List.countP_pos_iff.2 ⟨ls[i], List.getElem_mem hlt, hs⟩
    · exact Nat.zero_le _
  unfold used at hle ⊢
  rw [List.countP_set hlt]
  omega

lemma isSome_of_after (hl : Reachable l.sys) {e : Event} (hs : (after l e).sys.pcb.isSome = true) :
    l.sys.pcb.isSome = true := by
  obtain ⟨q, hq⟩ := Option.isSome_iff_exists.1 hs
  obtain ⟨p, hp, -⟩ := pcb_step (slotted_reachable hl).1 hq
  rw [hp]
  rfl

lemma pooled_stepLink (h₀ : Pooled h.links) (i : ℕ) (e : Event) :
    Pooled (stepLink i e h).links := by
  cases hi : h.links[i]? with
  | none =>
    rw [stepLink_none hi]
    exact h₀
  | some l =>
    have hreach := h₀.reach l (List.mem_of_getElem? hi)
    refine ⟨forall_stepLink h₀.reach fun l _ hl => reachable_after hl e, ?_⟩
    rw [stepLink_some hi]
    have hset := used_set hi (after l e)
    have hfits := h₀.fits
    dsimp only
    split_ifs at hset with h1 h2 h2
    · omega
    · omega
    · exact absurd (isSome_of_after hreach h2) h1
    · omega

lemma pooled_map (h₀ : Pooled ls) (p : Link o → Prop) [DecidablePred p] (e : Event) :
    Pooled (ls.map fun l => if p l then after l e else l) := by
  refine ⟨fun l hl => ?_, le_trans ?_ h₀.fits⟩
  · obtain ⟨l₀, hl₀, rfl⟩ := List.mem_map.1 hl
    split_ifs
    · exact reachable_after (h₀.reach l₀ hl₀) e
    · exact h₀.reach l₀ hl₀
  · unfold used
    rw [List.countP_map]
    refine List.countP_mono_left fun l hl hs => ?_
    simp only [Function.comp] at hs
    split_ifs at hs
    · exact isSome_of_after (h₀.reach l hl) hs
    · exact hs

lemma pooled_stepAll (h₀ : Pooled h.links) (p : Link o → Bool) (e : Event) :
    Pooled (stepAll p e h).links := by
  rw [links_stepAll]
  exact pooled_map h₀ _ e

lemma pooled_tcpAlloc (h₀ : Pooled h.links) : Pooled (tcpAlloc h).1.links :=
  tcpAlloc_rule (I := fun h => Pooled h.links) (fun _ i e _ hp => pooled_stepLink hp i e) h₀

lemma pooled_acceptLink (h₀ : Pooled h.links) (i : ℕ) (l : Link o) :
    Pooled (acceptLink i l h).links := by
  unfold acceptLink
  dsimp only
  split_ifs
  · have hsys : ∀ f : Link o → Link o, (∀ l, (f l).sys = l.sys) →
        (h.links.modify i f).map Link.sys = h.links.map Link.sys := by
      intro f hf
      refine List.ext_getElem? fun j => ?_
      rw [List.getElem?_map, List.getElem?_modify, List.getElem?_map]
      cases h.links[j]? with
      | none => rfl
      | some l₀ =>
        simp only [Option.map_eq_map, Option.map_some, Option.some.injEq]
        split_ifs
        · exact hf l₀
        · rfl
    have hmap := hsys (fun l => { l with info := some (connectionInfo l.tuple) }) fun _ => rfl
    refine ⟨fun l' hl' => ?_, ?_⟩
    · have hmem : l'.sys ∈ h.links.map Link.sys := by
        rw [← hmap]
        exact List.mem_map_of_mem hl'
      obtain ⟨l₀, hl₀, heq⟩ := List.mem_map.1 hmem
      rw [← heq]
      exact h₀.reach l₀ hl₀
    · have hcount : ∀ ls : List (Link o), used ls = (ls.map Link.sys).countP fun s =>
          s.pcb.isSome := by
        intro ls
        rw [List.countP_map]
        rfl
      have hfits := h₀.fits
      rw [hcount] at hfits ⊢
      rw [← hmap] at hfits
      exact hfits
  · exact h₀

/-! ### When there is a pcb to be had -/

/-- The loop of `tcp_kill_timewait` and `tcp_kill_state`. -/
def older (p : Pcb o → Bool) (best : ℕ × Option ℕ) (l : Link o × ℕ) : ℕ × Option ℕ :=
  match l.1.sys.pcb with
  | some q =>
    if p q ∧ best.1 ≤ (q.ticks - q.tmr) % 2 ^ 32 then ((q.ticks - q.tmr) % 2 ^ 32, some l.2)
    else best
  | none => best

lemma older_cases (p : Pcb o → Bool) (best : ℕ × Option ℕ) (l : Link o × ℕ) :
    (older p best l = best ∧ ∀ q, l.1.sys.pcb = some q → best.1 = 0 → p q = false) ∨
      (older p best l).2 = some l.2 ∧ ∃ q, l.1.sys.pcb = some q ∧ p q = true := by
  unfold older
  split
  · next q hq =>
    split_ifs with hp
    · exact .inr ⟨rfl, q, hq, hp.1⟩
    · refine .inl ⟨rfl, fun q' hq' hz => ?_⟩
      obtain rfl : q = q' := Option.some.inj (hq.symm.trans hq')
      rw [hz] at hp
      simpa using hp
  · next hnone => exact .inl ⟨rfl, fun q hq => by rw [hnone] at hq; cases hq⟩

lemma foldl_older (p : Pcb o → Bool) (xs : List (Link o × ℕ)) (best : ℕ × Option ℕ) :
    (xs.foldl (older p) best = best ∧ ∀ x ∈ xs, ∀ q, x.1.sys.pcb = some q → best.1 = 0 →
      p q = false) ∨
      ∃ x ∈ xs, (xs.foldl (older p) best).2 = some x.2 ∧ ∃ q, x.1.sys.pcb = some q ∧
      p q = true := by
  induction xs generalizing best with
  | nil => exact .inl ⟨rfl, fun _ hx => by cases hx⟩
  | cons x xs ih =>
    rw [List.foldl_cons]
    rcases ih (older p best x) with ⟨heq, hnone⟩ | ⟨y, hy, hsome⟩
    · rw [heq]
      rcases older_cases p best x with ⟨hsame, hx⟩ | ⟨hfound, hq⟩
      · rw [hsame] at hnone ⊢
        refine .inl ⟨rfl, fun y hy => ?_⟩
        rcases List.mem_cons.1 hy with rfl | hy
        · exact hx
        · exact hnone y hy
      · exact .inr ⟨x, List.mem_cons_self, hfound, hq⟩
    · exact .inr ⟨y, List.mem_cons_of_mem x hy, hsome⟩

lemma oldest_cases (p : Pcb o → Bool) (ls : List (Link o)) :
    (oldest p ls = none ∧ ∀ l ∈ ls, ∀ q, l.sys.pcb = some q → p q = false) ∨
      ∃ i l q, oldest p ls = some i ∧ ls[i]? = some l ∧ l.sys.pcb = some q ∧ p q = true := by
  have hold : oldest p ls = (ls.zipIdx.foldl (older p) (0, none)).2 := rfl
  rw [hold]
  rcases foldl_older p ls.zipIdx (0, none) with ⟨heq, hnone⟩ | ⟨x, hx, hsome, q, hq, hp⟩
  · refine .inl ⟨by rw [heq], fun l hl q hq => ?_⟩
    obtain ⟨i, hi⟩ := List.mem_iff_getElem?.1 hl
    exact hnone (l, i) (List.mem_zipIdx_iff_getElem?.2 hi) q hq rfl
  · exact .inr ⟨x.2, x.1, q, hsome, List.mem_zipIdx_iff_getElem?.1 hx, hq, hp⟩

lemma killOldest_cases {p : Pcb o → Bool} {e : Event} (h₀ : Pooled h.links)
    (hkill : ∀ (l : Link o) q, l.sys.pcb = some q → p q = true → (after l e).sys.pcb = none) :
    (killOldest p e h = h ∧ ∀ l ∈ h.links, ∀ q, l.sys.pcb = some q → p q = false) ∨
      (killOldest p e h).freePcb = true ∧ ∃ l ∈ h.links, ∃ q, l.sys.pcb = some q ∧ p q = true := by
  unfold killOldest
  rcases oldest_cases p h.links with ⟨hold, hnone⟩ | ⟨i, l, q, hold, hi, hq, hp⟩
  · rw [hold]
    exact .inl ⟨rfl, hnone⟩
  · rw [hold]
    refine .inr ⟨?_, l, List.mem_of_getElem? hi, q, hq, hp⟩
    have hset := used_set hi (after l e)
    rw [hkill l q hq hp, hq] at hset
    have hfits := h₀.fits
    dsimp only
    rw [freePcb_iff, stepLink_some hi]
    simp only [Option.isSome_some, Option.isSome_none, if_true, Bool.false_eq_true,
      if_false] at hset ⊢
    omega

lemma killed_timeWait (l : Link o) (q : Pcb o) (hq : l.sys.pcb = some q)
    (hp : decide (q.list = .timeWait) = true) :
    (after l .killTimewait).sys.pcb = none := by
  simp only [after, step, killTimewait, hq, Option.any_some, hp, if_true]
  exact tcpAbandon_pcb (by simp [hq])

lemma killed_state {st : TcpState} (hst : st = .lastAck ∨ st = .closing) (l : Link o) (q : Pcb o)
    (hq : l.sys.pcb = some q) (hp : decide (q.list = .active ∧ q.state = st) = true) :
    (after l .killState).sys.pcb = none := by
  obtain ⟨hlist, rfl⟩ := of_decide_eq_true hp
  simp only [after, step, killState, hq, Option.any_some, hlist, hst, and_self, decide_true,
    if_true]
  exact tcpAbandon_pcb (by simp [hq])

/-- A pcb that `tcp_alloc` may take, once it has tried to send the FINs that are pending. -/
def reclaimable (l : Link o) : Bool :=
  (after l .handleClosepend).sys.pcb.any fun q =>
    decide (q.list = .timeWait ∨ q.list = .active ∧ (q.state = .lastAck ∨ q.state = .closing))

/-- The pool has a pcb left, or one in it may be taken. -/
def pcbAvailable (h : Host o) : Bool := h.freePcb || h.links.any reclaimable

lemma used_handleClosepend (ls : List (Link o)) :
    used (ls.map fun l => if (fun _ => true) l then after l .handleClosepend else l) = used ls := by
  simp only [used, List.countP_map, if_true]
  refine List.countP_congr fun l _ => ?_
  simp [after, step, onActive, modPcb]

lemma tcpAlloc_eq (h₀ : Pooled h.links) : (tcpAlloc h).2 = pcbAvailable h := by
  -- `tcp_alloc` gets a pcb exactly if one is available
  unfold tcpAlloc pcbAvailable
  split_ifs with hfree
  · rw [hfree]
    rfl
  rw [Bool.not_eq_true] at hfree
  rw [hfree, Bool.false_or]
  have hlinks := links_stepAll (fun _ => true) .handleClosepend h
  have hpool := pooled_stepAll h₀ (fun _ => true) .handleClosepend
  have hfull : (stepAll (fun _ => true) .handleClosepend h).freePcb = false := by
    rw [← hfree]
    have hused := used_handleClosepend h.links
    rw [Bool.eq_iff_iff, freePcb_iff, freePcb_iff, hlinks, hused]
  have hany : h.links.any reclaimable =
      (stepAll (fun _ => true) .handleClosepend h).links.any fun l => l.sys.pcb.any fun q =>
      decide (q.list = .timeWait ∨ q.list = .active ∧
        (q.state = .lastAck ∨ q.state = .closing)) := by
    rw [hlinks, List.any_map]
    rfl
  rw [hany]
  dsimp only
  generalize stepAll (fun _ => true) .handleClosepend h = t at hpool hfull
  -- a pcb that is killed is also one that makes the right-hand side true
  have hfound : ∀ p : Pcb o → Bool, (∃ l ∈ t.links, ∃ q, l.sys.pcb = some q ∧ p q = true) →
      (∀ q, p q = true → q.list = .timeWait ∨ q.list = .active ∧
        (q.state = .lastAck ∨ q.state = .closing)) →
      (t.links.any fun l => l.sys.pcb.any fun q =>
        decide (q.list = .timeWait ∨ q.list = .active ∧ (q.state = .lastAck ∨ q.state = .closing)))
          = true := by
    rintro p ⟨l, hl, q, hq, hp⟩ himp
    rw [List.any_eq_true]
    exact ⟨l, hl, by rw [hq]; simpa using himp q hp⟩
  rcases killOldest_cases hpool killed_timeWait with ⟨hsame, hwait⟩ | ⟨hgot, hex⟩
  · rw [hsame, hfull]
    rcases killOldest_cases hpool (killed_state (.inl rfl)) with ⟨hsame', hlast⟩ | ⟨hgot, hex⟩
    · rw [hsame', hfull]
      rcases killOldest_cases hpool (killed_state (.inr rfl)) with ⟨hsame'', hclosing⟩ | ⟨hgot, hex⟩
      · rw [hsame'', hfull]
        simp only [Bool.false_eq_true, if_false]
        symm
        rw [List.any_eq_false]
        intro l hl
        cases hq : l.sys.pcb with
        | none => simp
        | some q =>
          have h1 := of_decide_eq_false (hwait l hl q hq)
          have h2 := of_decide_eq_false (hlast l hl q hq)
          have h3 := of_decide_eq_false (hclosing l hl q hq)
          simp only [Option.any_some, decide_eq_true_eq]
          tauto
      · rw [hgot, hfound _ hex fun q hq => .inr
          ⟨(of_decide_eq_true hq).1, .inr (of_decide_eq_true hq).2⟩]
        rfl
    · rw [hgot, hfound _ hex fun q hq => .inr
        ⟨(of_decide_eq_true hq).1, .inl (of_decide_eq_true hq).2⟩]
      rfl
  · rw [hgot, hfound _ hex fun q hq => .inl (of_decide_eq_true hq)]
    rfl

/-! ### Runs -/

lemma pooled_inputLink (h₀ : Pooled h.links) (i : ℕ) (seg : Segment) :
    Pooled (inputLink i seg h).links :=
  inputLink_rule (I := fun h => Pooled h.links) (fun _ e _ hp => pooled_stepLink hp i e)
    (fun l _ _ _ _ hp => pooled_acceptLink hp i l) h₀

lemma pooled_listenInput (h₀ : Pooled h.links) (lp : ListenPcb) (hdr : Header) {seg : Segment}
    (hsyn : seg.syn = true) (op : Opening) : Pooled (listenInput lp hdr seg op h).links := by
  unfold listenInput
  split_ifs
  · exact h₀
  · exact h₀
  have halloc := pooled_tcpAlloc h₀
  have hfree : (tcpAlloc h).2 = true → (tcpAlloc h).1.freePcb = true := by
    unfold tcpAlloc
    dsimp only
    split_ifs with h1 h2 h3
    · exact fun _ => h1
    · exact fun _ => h2
    · exact fun _ => h3
    · exact id
  generalize tcpAlloc h = r at halloc hfree
  obtain ⟨t, ok⟩ := r
  cases ok with
  | false => exact halloc
  | true =>
    dsimp only at halloc hfree ⊢
    split
    · rw [links_charge]
      exact halloc
    · next pcb hpcb =>
      refine ⟨fun l hl => ?_, ?_⟩
      · rcases List.mem_cons.1 hl with rfl | hl
        · exact ⟨_, [], ⟨_, _, _, _, _, pcb, hpcb, hsyn, rfl⟩, rfl⟩
        · exact halloc.reach l hl
      · have hlt := freePcb_iff.1 (hfree rfl)
        exact (List.countP_cons_of_pos rfl).trans_le hlt

lemma pooled_tcpInput (h₀ : Pooled h.links) (hdr : Header) (seg : Segment) (op : Opening) :
    Pooled (tcpInput hdr seg op h).links := by
  unfold tcpInput
  split
  · next i _ =>
    refine pooled_inputLink ⟨fun l hl => ?_, ?_⟩ 0 seg
    · exact h₀.reach l ((moveToFront_perm i h.links).mem_iff.1 hl)
    · exact ((moveToFront_perm i h.links).countP_eq _).trans_le h₀.fits
  · split
    · exact pooled_inputLink h₀ _ seg
    · split
      · exact h₀
      · split_ifs with hf
        · rw [Bool.and_eq_true] at hf
          exact pooled_listenInput h₀ _ hdr hf.1 op
        · exact h₀

lemma pooled_start (h₀ : Pooled h.links) (dests : List (BitVec 32)) :
    Pooled (start dests h).links := by
  have hsetup : ∀ t : Host o, t.links = h.links → Pooled (setupListener dests t).links := by
    intro t ht
    have halloc := pooled_tcpAlloc (h := t) (ht ▸ h₀)
    unfold setupListener
    dsimp only
    split_ifs
    · rw [links_sends]
      exact halloc
    · rw [links_sends]
      exact halloc
  unfold start setupLockedOnLWIPQueue
  dsimp only
  split_ifs
  · exact h₀
  · exact hsetup _ (links_modRef _ _ _)
  · exact h₀
  · exact hsetup _ (links_modRef _ _ _)

lemma links_closeListener (h : Host o) :
    (closeListener h).links = h.links.map fun l => if h.listener =
      some l.listener then after l .listenerClosed else l := by
  unfold closeListener
  split
  · next hnone => simp [hnone]
  · next id hsome =>
    simp [hsome, links_stepAll, eq_comm]

lemma links_removeNetif (dests : List (BitVec 32)) (h : Host o) : (removeNetif dests h).links =
    if h.netif.hasAddr then h.links.map fun l => if l.tuple.localIp =
      netifAddr then after l .netifIpAddrChanged else l
    else h.links := by
  unfold removeNetif
  dsimp only
  split_ifs
  · simp [links_sends, links_stepAll]
  · rfl

lemma stop_rule {I : List (Link o) → Prop}
    (hlisten : ∀ (ls : List (Link o)) (p : Link o → Prop) [DecidablePred p], I ls →
      I (ls.map fun l => if p l then after l .listenerClosed else l))
    (haddr : ∀ ls : List (Link o), I ls →
      I (ls.map fun l => if l.tuple.localIp = netifAddr then after l .netifIpAddrChanged else l))
    (h₀ : I h.links) (dests : List (BitVec 32)) : I (stop dests h).links := by
  -- what is kept of the links when the listener goes and when the address goes is kept by `stop`
  have hclose : ∀ t : Host o, t.links = h.links → I (closeListener t).links := by
    intro t ht
    rw [links_closeListener, ht]
    exact hlisten _ _ h₀
  have hc := hclose { modRef h.stackRef (fun ref => { ref with alive := false }) { h with
    timer := false } with
    stackRef := none, ready := false } (links_modRef _ _ _)
  unfold stop
  dsimp only
  rw [links_modRef]
  split_ifs
  · rw [links_removeNetif]
    split_ifs
    · exact haddr _ hc
    · exact hc
  · exact hc

lemma pooled_stop (h₀ : Pooled h.links) (dests : List (BitVec 32)) : Pooled (stop dests h).links :=
  stop_rule (I := Pooled) (fun _ p _ hp => pooled_map hp p .listenerClosed)
    (fun _ hp => pooled_map hp _ .netifIpAddrChanged) h₀ dests

lemma pooled_hostStep (h₀ : Pooled h.links) (e : HostEvent) : Pooled (hostStep h e).links := by
  cases e with
  | start dests => exact pooled_start h₀ dests
  | stop dests => exact pooled_stop h₀ dests
  | inputPacket p =>
    simp only [hostStep, inputPacket]
    split_ifs
    · exact h₀
    · rw [outputs_eq, links_sends]
      split
      · exact pooled_tcpInput h₀ _ _ _
      · exact h₀
  | link i e dests =>
    simp only [hostStep]
    split_ifs
    · exact h₀
    · rw [links_sends]
      exact pooled_stepLink h₀ i e

lemma pooled_boot (o : Platform) : Pooled (boot o).links :=
  ⟨fun _ hl => (by cases hl), Nat.zero_le _⟩

end TunForge.PcbPool
