import TunForge.HostRuns

/-! The backlog of the listener. Its counter is the number of connections that hold a
slot, over every run of the stack, and never runs over or under. -/
namespace TunForge.Backlog
open LwipTypes TcpIn Tcp Connection Callbacks
open Stack hiding tcpInput
open Inflow (view living)
open PcbFrames StackRuns WorkFrames InflowEvents BacklogSlots IpStack HostRuns

variable {o : Platform} {h h' : Host o}

/-- The connection holds a slot of the listener `id`. -/
def holds (id : ℕ) (l : Link o) : Bool := decide (l.listener = id) && slot l.sys

/-- `accepts_pending` is the number of slots held, and has never been zero at a decrement. -/
def Exact (h : Host o) : Prop :=
  h.miscounted = false ∧
    ∀ lp ∈ h.listenPcbs, lp.acceptsPending = h.links.countP (holds lp.id) ∧ lp.acceptsPending ≤ 0xFF

structure Counted (h : Host o) : Prop where
  sane : Sane h
  exact : Exact h

/-! ### One connection -/

lemma charge_single {lp : ListenPcb} (hl : h.listenPcbs = [lp]) (pend : Bool)
    (cs : List BacklogCall) :
    charge lp.id pend cs h =
      { h with
        listenPcbs := [{ lp with
          acceptsPending :=
            (cs.foldl backlogCall ⟨pend, lp.acceptsPending, h.miscounted⟩).pending }]
        miscounted := (cs.foldl backlogCall ⟨pend, lp.acceptsPending, h.miscounted⟩).failed } := by
  simp [charge, hl]

lemma slot_unlistened {s : State o} (hs : Sound s) (e : Event)
    (hl : ∀ p, s.pcb = some p → p.listener = false) :
    slot s = false ∧ slot (step s e) = false := by
  constructor
  · cases hp : s.pcb with
    | none => simp [slot, hp]
    | some p => simp [slot, hp, slotted, hl p hp]
  · cases hq : (step s e).pcb with
    | none => simp [slot, hq]
    | some q =>
      obtain ⟨p, hp, hlis⟩ := pcb_step hs hq
      simp [slot, hq, slotted, hlis, hl p hp]

lemma countP_set_same {α : Type*} {p : α → Bool} {ls : List α} {i : ℕ} {a b : α}
    (hi : ls[i]? = some a) (hp : p b = p a) :
    (ls.set i b).countP p = ls.countP p := by
  obtain ⟨hlt, rfl⟩ := List.getElem?_eq_some_iff.1 hi
  rw [List.countP_set hlt, hp]
  have hpos : p ls[i] = true → 0 < ls.countP p :=
    fun hp => List.countP_pos_iff.2 ⟨_, List.getElem_mem hlt, hp⟩
  split_ifs with hc
  · have := hpos hc
    omega
  · omega

lemma countP_set_from {α : Type*} {p : α → Bool} {ls : List α} {i : ℕ} {a : α} (b : α)
    (hi : ls[i]? = some a) (hp : p a = true) :
    ∃ n, ls.countP p = n + 1 ∧ (ls.set i b).countP p = n + (p b).toNat := by
  obtain ⟨hlt, rfl⟩ := List.getElem?_eq_some_iff.1 hi
  have hpos : 0 < ls.countP p := List.countP_pos_iff.2 ⟨_, List.getElem_mem hlt, hp⟩
  refine ⟨ls.countP p - 1, by omega, ?_⟩
  rw [List.countP_set hlt, if_pos hp]
  cases p b <;> simp

lemma counted_stepLink (h₀ : Counted h) (i : ℕ) {e : Event} (he : e ≠ .listenerClosed) :
    Counted (stepLink i e h) := by
  refine ⟨sane_stepLink h₀.sane i he, ?_⟩
  cases hi : h.links[i]? with
  | none =>
    rw [stepLink_none hi]
    exact h₀.exact
  | some l =>
    have hok := h₀.sane.links l (List.mem_of_getElem? hi)
    obtain ⟨hsound, hslots⟩ := slotted_reachable hok.reach
    rw [stepLink_some hi]
    -- without a listener nothing is counted for this pcb
    have hidle : chargeCalls l e h = h → slot (step l.sys e) = slot l.sys →
        Exact { chargeCalls l e h with links := h.links.set i (after l e) } := by
      intro hcharge hslot
      rw [hcharge]
      refine ⟨h₀.exact.1, fun lp hlp => ?_⟩
      have hsame : holds lp.id (after l e) = holds lp.id l :=
        congrArg (decide (l.listener = lp.id) && ·) hslot
      dsimp only
      rw [countP_set_same hi hsame]
      exact h₀.exact.2 lp hlp
    cases hp : l.sys.pcb with
    | none =>
      obtain ⟨hb, ha⟩ := slot_unlistened hsound e (by simp [hp])
      exact hidle (by simp [chargeCalls, hp]) (ha.trans hb.symm)
    | some p =>
      cases hlis : p.listener with
      | false =>
        obtain ⟨hb, ha⟩ := slot_unlistened hsound e fun q hq => by
          rw [hp] at hq
          cases hq
          exact hlis
        exact hidle (by simp [chargeCalls, hp, hlis]) (ha.trans hb.symm)
      | true =>
        have hcur := (hok.linked p hp).1 hlis
        obtain ⟨lp, hid, hone⟩ : ∃ lp : ListenPcb, l.listener = lp.id ∧ h.listenPcbs = [lp] := by
          rcases h₀.sane.listenPcbs with ⟨hnone, -⟩ | ⟨lp, hsome, hone⟩
          · rw [hnone] at hcur
            cases hcur
          · rw [hsome, Option.some.injEq] at hcur
            exact ⟨lp, hcur.symm, hone⟩
        have hslot := slot_step hsound hslots he hp hlis
          ⟨p.backlogPend, lp.acceptsPending, h.miscounted⟩ rfl
        have hbefore : slot l.sys = p.backlogPend := by simp [slot, hp, slotted, hlis]
        obtain ⟨hcount, hle⟩ := h₀.exact.2 lp (by simp [hone])
        have hcharge : chargeCalls l e h = charge lp.id p.backlogPend (backlogCalls l.sys e) h := by
          simp [chargeCalls, hp, hlis, hid]
        cases hpend : p.backlogPend with
        | false =>
          have hsame := backlogCalls_unpended hslots hp hpend e
            (t := ⟨p.backlogPend, lp.acceptsPending, h.miscounted⟩) hpend
          rw [hsame, hpend] at hslot
          refine hidle ?_ (by rw [hslot, hbefore, hpend])
          rw [hcharge, charge_single hone, hsame]
          rw [← hone]
        | true =>
          rw [hcharge, charge_single hone]
          obtain ⟨n, hn, hset⟩ :=
            countP_set_from (p := holds lp.id) (after l e) hi (by simp [holds, hid, hbefore, hpend])
          have hcounts : (Tally.mk p.backlogPend lp.acceptsPending h.miscounted).Counts n :=
            ⟨by simp [hpend, hcount, hn], by omega, h₀.exact.1⟩
          obtain ⟨hpending, hroom, hfail⟩ := hcounts.calls (backlogCalls l.sys e)
          refine ⟨hfail, fun q hq => ?_⟩
          rw [List.mem_singleton] at hq
          subst hq
          have hafter : holds lp.id (after l e) = slot (step l.sys e) := by simp [holds, after, hid]
          dsimp only
          rw [hset, hafter, hslot, hpending]
          refine ⟨rfl, ?_⟩
          have := Bool.toNat_le
            (((backlogCalls l.sys e).foldl backlogCall
              ⟨p.backlogPend, lp.acceptsPending, h.miscounted⟩).pend)
          omega

/-! ### The whole stack -/

lemma Counted.recall (h₀ : Counted h) (calls : List Call) : Counted { h with calls := calls } :=
  ⟨h₀.sane.recall calls, h₀.exact⟩

lemma counted_sends (h₀ : Counted h) (dests : List (BitVec 32)) :
    Counted (dests.foldl Host.send h) := by
  obtain ⟨n, heq, -⟩ := sends_eq dests h
  rw [heq]
  exact h₀.recall _

lemma counted_modRef (h₀ : Counted h) (arg : Option ℕ) (f : StackRef → StackRef) :
    Counted (modRef arg f h) :=
  ⟨sane_modRef h₀.sane arg f, by cases arg <;> exact h₀.exact⟩

lemma counted_moveToFront (h₀ : Counted h) (i : ℕ) :
    Counted { h with links := moveToFront i h.links } := by
  refine ⟨sane_moveToFront h₀.sane i, h₀.exact.1, fun lp hlp => ?_⟩
  dsimp only
  rw [(moveToFront_perm i h.links).countP_eq]
  exact h₀.exact.2 lp hlp

lemma countP_modify_same {α : Type*} {p : α → Bool} {f : α → α} (hf : ∀ a, p (f a) = p a)
    (ls : List α) (i : ℕ) :
    (ls.modify i f).countP p = ls.countP p := by
  induction ls generalizing i with
  | nil => simp
  | cons a ls ih =>
    cases i with
    | zero => simp [List.countP_cons, hf]
    | succ i => simp [List.countP_cons, ih]

lemma counted_acceptLink (h₀ : Counted h) (i : ℕ) (l : Link o) : Counted (acceptLink i l h) := by
  refine ⟨sane_acceptLink h₀.sane i l, ?_⟩
  unfold acceptLink
  dsimp only
  split_ifs
  · refine ⟨h₀.exact.1, fun lp hlp => ?_⟩
    have hsame : (h.links.modify i fun l => { l with info := some (connectionInfo l.tuple) }).countP
        (holds lp.id) =
        h.links.countP (holds lp.id) := by
      refine countP_modify_same (fun l => ?_) _ i
      rfl
    exact ⟨(h₀.exact.2 lp hlp).1.trans hsame.symm, (h₀.exact.2 lp hlp).2⟩
  · exact h₀.exact

lemma counted_inputLink (h₀ : Counted h) (i : ℕ) (seg : Segment) : Counted (inputLink i seg h) :=
  inputLink_rule (fun _ _ he hc => counted_stepLink hc i he)
    (fun l _ _ _ _ hc => counted_acceptLink hc i l) h₀

lemma counted_tcpAlloc (h₀ : Counted h) {n : ℕ} (hn : ∀ lp ∈ h.listenPcbs, lp.acceptsPending < n) :
    Counted (tcpAlloc h).1 ∧ ∀ lp ∈ (tcpAlloc h).1.listenPcbs, lp.acceptsPending < n := by
  -- making room for a new pcb can only give slots back
  refine tcpAlloc_rule (I := fun h => Counted h ∧ ∀ lp ∈ h.listenPcbs, lp.acceptsPending < n)
    (fun h i e he hc => ?_)
    ⟨h₀, hn⟩
  obtain ⟨hc, hn⟩ := hc
  have hne : e ≠ .listenerClosed := fun h => by
    rw [h] at he
    cases he
  have hstep := counted_stepLink hc i hne
  refine ⟨hstep, fun lp hlp => ?_⟩
  obtain ⟨q, hq, hkey⟩ := (sameStack_stepLink i e h).listen.mem hlp
  have hid : q.id = lp.id := congrArg Prod.fst hkey
  rw [(hstep.exact.2 lp hlp).1]
  refine lt_of_le_of_lt ?_ (hn q hq)
  rw [(hc.exact.2 q hq).1, hid]
  -- the calls of a reclaiming event never take a slot
  cases hi : h.links[i]? with
  | none => rw [stepLink_none hi]
  | some l =>
    rw [stepLink_some hi]
    have hok := hc.sane.links l (List.mem_of_getElem? hi)
    obtain ⟨hsound, hslots⟩ := slotted_reachable hok.reach
    have hown : ownCalls l.sys e = [] := by cases e <;> first | rfl | cases he
    have hmono : holds lp.id (after l e) = true → holds lp.id l = true := by
      simp only [holds, Bool.and_eq_true]
      exact fun ha => ⟨ha.1, slot_of_step hsound hslots hne hown ha.2⟩
    cases hb : holds lp.id l with
    | true =>
      obtain ⟨m, hm, hset⟩ := countP_set_from (p := holds lp.id) (after l e) hi hb
      have := Bool.toNat_le (holds lp.id (after l e))
      dsimp only
      omega
    | false =>
      have ha : holds lp.id (after l e) = false := by
        rw [hb] at hmono
        simpa using hmono
      dsimp only
      rw [countP_set_same hi (ha.trans hb.symm)]

lemma counted_listenInput (h₀ : Counted h) {lp : ListenPcb} (hone : h.listenPcbs = [lp])
    (hdr : Header) {seg : Segment} (hsyn : seg.syn = true) (op : Opening) :
    Counted (listenInput lp hdr seg op h) := by
  refine ⟨sane_listenInput h₀.sane (by simp [hone]) hdr hsyn op, ?_⟩
  unfold listenInput
  split_ifs with hrst hfull
  · exact h₀.exact
  · exact h₀.exact
  have hroom : ∀ q ∈ h.listenPcbs, q.acceptsPending < 0xFF := by
    intro q hq
    rw [hone, List.mem_singleton] at hq
    rw [hq]
    have := h₀.sane.backlog lp (by simp [hone])
    omega
  obtain ⟨halloc, hlt⟩ := counted_tcpAlloc h₀ hroom
  have hsame := sameStack_tcpAlloc h
  generalize tcpAlloc h = r at halloc hlt hsame
  obtain ⟨t, ok⟩ := r
  cases ok with
  | false => exact halloc.exact
  | true =>
    dsimp only at halloc hlt hsame ⊢
    -- the listener is still the same, with its counter perhaps lowered
    obtain ⟨q, hid, hqone⟩ : ∃ q : ListenPcb, q.id = lp.id ∧ t.listenPcbs = [q] := by
      have hkeys := hsame.listenPcbs
      rw [hone, List.map_singleton] at hkeys
      obtain ⟨q, hq, hkey⟩ := List.map_eq_singleton_iff.1 hkeys
      exact ⟨q, congrArg Prod.fst hkey, hq⟩
    obtain ⟨hcount, -⟩ := halloc.exact.2 q (by simp [hqone])
    have hq := hlt q (by simp [hqone])
    have hcounts : (Tally.mk false q.acceptsPending t.miscounted).Counts
        (t.links.countP (holds q.id)) :=
      ⟨by simp [hcount], by omega, halloc.exact.1⟩
    rw [← hid]
    split
    · rw [charge_single hqone]
      obtain ⟨hpending, hless, hfail⟩ := hcounts.calls [.delayed, .accepted]
      refine ⟨hfail, fun lp' hlp' => ?_⟩
      rw [List.mem_singleton] at hlp'
      subst hlp'
      have hpend : ([BacklogCall.delayed, .accepted].foldl backlogCall
          ⟨false, q.acceptsPending, t.miscounted⟩).pend = false := by
        simp
      rw [hpend, Bool.toNat_false] at hpending
      exact ⟨hpending, by dsimp only; omega⟩
    · next pcb hpcb =>
      rw [charge_single hqone]
      obtain ⟨hpending, hless, hfail⟩ := hcounts.calls [.delayed]
      refine ⟨hfail, fun lp' hlp' => ?_⟩
      rw [List.mem_singleton] at hlp'
      subst hlp'
      have hpend : ([BacklogCall.delayed].foldl backlogCall
          ⟨false, q.acceptsPending, t.miscounted⟩).pend = true := by
        simp
      have hlis : pcb.listener = true := congrArg Core.listener (core_tcpListenInput hpcb).1
      have hnew : holds q.id (⟨hdr, hdr.tuple, q.id, lp.callbackArg, none,
          opened pcb op.tf⟩ : Link o) = true := by
        simp [holds, slot, opened, slotted, hlis, pend_tcpListenInput hpcb]
      rw [hpend, Bool.toNat_true] at hpending
      dsimp only
      rw [List.countP_cons_of_pos hnew]
      exact ⟨hpending, by omega⟩

lemma counted_tcpInput (h₀ : Counted h) (hdr : Header) (seg : Segment) (op : Opening) :
    Counted (tcpInput hdr seg op h) := by
  unfold tcpInput
  split
  · exact counted_inputLink (counted_moveToFront h₀ _) 0 seg
  · split
    · exact counted_inputLink h₀ _ seg
    · split
      · exact h₀
      · next lp rest hlps =>
        have hone : h.listenPcbs = [lp] := by
          rcases h₀.sane.listenPcbs with ⟨-, hnil⟩ | ⟨lp', -, hone⟩
          · rw [hnil] at hlps
            cases hlps
          · rw [hone] at hlps ⊢
            cases hlps
            rfl
        split_ifs with hf
        · rw [Bool.and_eq_true] at hf
          exact counted_listenInput h₀ hone hdr hf.1 op
        · exact h₀

lemma counted_inputPacket (h₀ : Counted h) (p : Packet) : Counted (inputPacket p h) := by
  unfold inputPacket
  split_ifs
  · exact h₀
  · rw [outputs_eq]
    refine (counted_sends ?_ _).recall _
    split
    · exact counted_tcpInput h₀ _ _ _
    · exact h₀

lemma exact_setupListener (h₀ : Counted h) (hl : h.listener = none) (dests : List (BitVec 32)) :
    Exact (setupListener dests h) := by
  have hnil : h.listenPcbs = [] := by
    rcases h₀.sane.listenPcbs with ⟨-, hnil⟩ | ⟨lp, hsome, -⟩
    · exact hnil
    · rw [hl] at hsome
      cases hsome
  obtain ⟨halloc, -⟩ := counted_tcpAlloc h₀ (n := 0) (by simp [hnil])
  have hsame := sameStack_tcpAlloc h
  unfold setupListener
  generalize tcpAlloc h = r at halloc hsame
  obtain ⟨t, ok⟩ := r
  dsimp only at halloc hsame ⊢
  obtain ⟨n, heq, -⟩ := sends_eq dests t
  rw [heq]
  have hpcbs : t.listenPcbs = [] := by
    have hkeys := hsame.listenPcbs
    rw [hnil] at hkeys
    simpa using hkeys
  split_ifs
  · refine ⟨halloc.exact.1, fun lp hlp => ?_⟩
    simp only [hpcbs, List.mem_singleton] at hlp
    subst hlp
    refine ⟨?_, by simp⟩
    symm
    rw [List.countP_eq_zero]
    intro l hl
    have hborn := (halloc.sane.links l hl).born
    have hne : ¬ l.listener = t.nextId := by omega
    simp [holds, hne]
  · exact halloc.exact

lemma counted_start (h₀ : Counted h) (dests : List (BitVec 32)) : Counted (start dests h) := by
  refine ⟨sane_start h₀.sane dests, ?_⟩
  unfold start setupLockedOnLWIPQueue
  dsimp only
  generalize hh : (if h.refAlive h.stackRef then h
    else { h with refs := h.refs ++ [⟨true, 0, 0⟩], stackRef := some h.refs.length }) = t
  have ht : Counted t := by
    rw [← hh]
    split_ifs
    · exact h₀
    · exact ⟨h₀.sane.same ⟨rfl, rfl, rfl⟩ id h₀.sane.links, h₀.exact⟩
  split_ifs with hr
  · exact ht.exact
  · have hnone : t.listener = none := ht.sane.idle (by simpa using hr)
    have hset : Counted ({ t with timer := true, ready := true } : Host o) :=
      ⟨ht.sane.same ⟨rfl, rfl, rfl⟩ (fun hf => by cases hf) ht.sane.links, ht.exact⟩
    have hmod := counted_modRef hset t.stackRef fun ref => { ref with retained := ref.retained + 1 }
    refine exact_setupListener ?_ ?_ dests
    · exact ⟨hmod.sane.same ⟨rfl, rfl, rfl⟩ id hmod.sane.links, hmod.exact⟩
    · exact (modRef_frame t.stackRef _ _).1.trans hnone

lemma miscounted_closed (i : ℕ) (h : Host o) :
    (stepLink i .listenerClosed h).miscounted = h.miscounted := by
  cases hi : h.links[i]? with
  | none => rw [stepLink_none hi]
  | some l =>
    have hcalls : backlogCalls l.sys .listenerClosed = [] := by
      have hpurge : purges l.sys (step l.sys .listenerClosed) = false := by
        cases hp : l.sys.pcb with
        | none => simp [purges, hp]
        | some p => simp [purges, hp, step, modPcb]
      simp [backlogCalls, ownCalls, hpurge]
    rw [stepLink_some hi]
    simp only [chargeCalls, hcalls]
    split
    · rfl
    · split_ifs
      · unfold charge
        split <;> rfl
      · rfl

lemma counted_closeListener (h₀ : Counted h) {g : Host o} (hlinks : g.links = h.links)
    (hpcbs : g.listenPcbs = h.listenPcbs) (hlis : g.listener = h.listener)
    (hid : g.nextId = h.nextId) (hm : g.miscounted = h.miscounted) :
    Counted (closeListener g) := by
  obtain ⟨hsane, hnone⟩ := sane_closeListener h₀.sane hlinks hpcbs hlis hid
  have hnil : (closeListener g).listenPcbs = [] := by
    rcases hsane.listenPcbs with ⟨-, hnil⟩ | ⟨lp, hsome, -⟩
    · exact hnil
    · rw [hnone] at hsome
      cases hsome
  refine ⟨hsane, ?_, by simp [hnil]⟩
  rw [← h₀.exact.1, ← hm]
  unfold closeListener
  split
  · rfl
  · exact stepAll_rule (I := fun t => t.miscounted = g.miscounted)
      (fun t i ht => (miscounted_closed i t).trans ht) _ rfl

lemma counted_removeNetif (h₀ : Counted h) (dests : List (BitVec 32)) :
    Counted (removeNetif dests h) := by
  refine ⟨sane_removeNetif h₀.sane dests, ?_⟩
  unfold removeNetif
  dsimp only
  have hdown : Counted ({ h with netif := { h.netif with up := false } } : Host o) :=
    ⟨h₀.sane.same ⟨rfl, rfl, rfl⟩ id h₀.sane.links, h₀.exact⟩
  split_ifs
  · have hall := stepAll_rule (I := Counted)
      (fun _ i hs => counted_stepLink hs i (e := .netifIpAddrChanged) (by simp))
      (fun l => decide (l.tuple.localIp = netifAddr)) hdown
    exact (counted_sends hall dests).exact
  · exact hdown.exact

lemma counted_stop (h₀ : Counted h) (dests : List (BitVec 32)) : Counted (stop dests h) := by
  refine ⟨sane_stop h₀.sane dests, ?_⟩
  unfold stop
  dsimp only
  have hmod := counted_modRef (h := { h with timer := false })
    ⟨h₀.sane.same ⟨rfl, rfl, rfl⟩ id h₀.sane.links, h₀.exact⟩
    h.stackRef fun ref => { ref with alive := false }
  generalize modRef h.stackRef (fun ref => { ref with alive := false }) { h with timer := false } =
    t at hmod
  have hclose := counted_closeListener
    (g := { t with stackRef := none, ready := false }) hmod rfl rfl rfl rfl rfl
  generalize closeListener { t with stackRef := none, ready := false } = u at hclose
  have hnet : Exact (if u.netif.state = u.state then
      { removeNetif dests u with netif := { (removeNetif dests u).netif with state := none } }
        else u) := by
    split_ifs
    · exact (counted_removeNetif hclose dests).exact
    · exact hclose.exact
  generalize (if u.netif.state = u.state then
      { removeNetif dests u with netif := { (removeNetif dests u).netif with state := none } }
        else u) = v at hnet
  cases hv : v.state <;> exact hnet

lemma counted_boot (o : Platform) : Counted (boot o) := ⟨sane_boot o, rfl, fun _ hl => by cases hl⟩

lemma counted_hostStep (h₀ : Counted h) (e : HostEvent) : Counted (hostStep h e) := by
  cases e with
  | start dests => exact counted_start h₀ dests
  | stop dests => exact counted_stop h₀ dests
  | inputPacket p => exact counted_inputPacket h₀ p
  | link i e dests =>
    simp only [hostStep]
    split_ifs with he
    · exact h₀
    · exact counted_sends (counted_stepLink h₀ i fun h => he (by rw [h]; rfl)) dests

/-- The slots of the stack: what the counter of the listener counts, and who holds one. -/
theorem backlog_accounting (es : List HostEvent) :
    let h := Runs.run hostStep (boot o) es
    (∀ id, h.listener = some id → ∃ lp, h.listenPcbs = [lp] ∧ lp.id = id ∧ lp.backlog = 0xFF ∧
      lp.acceptsPending = h.links.countP (fun l =>
        decide (l.listener = id) && l.sys.pcb.any fun p => p.listener && p.backlogPend) ∧
      lp.acceptsPending ≤ lp.backlog) ∧
    h.miscounted = false ∧
    ∀ l ∈ h.links, living l.sys = true →
      (l.sys.conn.state = .new → h.listener = some l.listener → l.onList .active = true →
        slot l.sys = true) ∧
      (l.sys.conn.state = .active → slot l.sys = false) := by
  intro h
  have hc : Counted h := Runs.invariant_all hostStep Counted (fun _ e hc => counted_hostStep hc e)
    (counted_boot o) es
  refine ⟨fun id hid => ?_, hc.exact.1, fun l hl hliv => ⟨fun hnew hlis hact => ?_, fun hact => ?_⟩⟩
  · rcases hc.sane.listenPcbs with ⟨hnone, -⟩ | ⟨lp, hsome, hone⟩
    · rw [hnone] at hid
      cases hid
    · obtain rfl : lp.id = id := Option.some.inj (hsome.symm.trans hid)
      obtain ⟨hcount, hle⟩ := hc.exact.2 lp (by simp [hone])
      have hback := hc.sane.backlog lp (by simp [hone])
      exact ⟨lp, hone, rfl, hback, hcount, hback ▸ hle⟩
  · have hok := hc.sane.links l hl
    obtain ⟨p, hp, hlist⟩ := (Option.any_eq_true _ _).1 hact
    have hlisten := (hok.linked p hp).2 hlis
    have hpend := ((slotted_reachable hok.reach).2 p hp).new hliv hnew
      (by simpa using hlist) hlisten
    simp [slot, hp, slotted, hlisten, hpend]
  · have hok := hc.sane.links l hl
    cases hp : l.sys.pcb with
    | none => simp [slot, hp]
    | some p =>
      have hnone := ((slotted_reachable hok.reach).2 p hp).active hliv hact
      simpa [slot, hp] using hnone

end TunForge.Backlog
