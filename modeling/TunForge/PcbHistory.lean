import TunForge.InboundRule

/-! The pcb in the course of one event. Whatever stages an event goes through, the pcb
it leaves comes of the one it found by lwIP's own work. -/
namespace TunForge.PcbHistory
open SerialNumber PbufChain LwipTypes TcpOut TcpIn Tcp Connection Callbacks Stack
open BoundaryRule PcbFrames CalmSteps InputCases WorkFrames
open Inflow InflowSteps InflowEvents InboundRule

variable {o : Platform} {s s₀ : State o} {e : Event}

/-- The pcb of `w` comes of lwIP's work on the one of `v`. -/
def Onward (v w : View o) : Prop :=
  ∀ q, w.pcb = some q → ∃ p, v.pcb = some p ∧ Keeps p q ∧ (q.state = .synRcvd → p.state = .synRcvd)

lemma Onward.refl (v : View o) : Onward v v := fun q hq => ⟨q, hq, .refl q, id⟩

lemma Onward.trans {u v w : View o} (h : Onward u v) (h' : Onward v w) : Onward u w := by
  intro r hr
  obtain ⟨q, hq, hk', hs'⟩ := h' r hr
  obtain ⟨p, hp, hk, hs⟩ := h q hq
  exact ⟨p, hp, hk.trans hk', hs ∘ hs'⟩

lemma onward_set {v w : View o} {p q : Pcb o} (hp : v.pcb = some p) (hq : w.pcb = some q)
    (hk : Keeps p q) (hs : q.state = .synRcvd → p.state = .synRcvd) : Onward v w := by
  intro q' hq'
  cases hq.symm.trans hq'
  exact ⟨p, hp, hk, hs⟩

lemma keeps_of_credit {n : ℕ} {p q : Pcb o} (h : Credit n p q) : Keeps p q :=
  keeps_of_core h.core h.side

lemma onward_taking {c : Pbuf} {v w : View o} (h : Taking c v w) : Onward v w := by
  rcases (taking_frame h).2.1 with hsame | ⟨p, q, n, hp, hq, hcred⟩
  · intro q hq
    exact ⟨q, hsame ▸ hq, .refl q, id⟩
  · exact onward_set hp hq (keeps_of_credit hcred) fun hs => (state_of_core hcred.core) ▸ hs

lemma onward_finTold (v : View o) : Onward v v.finTold := by
  intro q hq
  obtain ⟨p, hp, rfl⟩ := Option.map_eq_some_iff.1 (show v.pcb.map correctFin = some q from hq)
  refine ⟨p, hp, ?_⟩
  unfold correctFin
  split_ifs
  · exact ⟨keeps_of_core rfl rfl, id⟩
  · exact ⟨.refl p, id⟩

lemma onward_none {v w : View o} (h : w.pcb = none) : Onward v w := by
  intro q hq
  rw [h] at hq
  cases hq

lemma onward_flow {ph ph' : Phase} {v w : View o} (he : e ≠ .listenerClosed)
    (hf : Flow s₀ e (ph, v) (ph', w)) :
    Onward v w := by
  cases hf with
  | worked _ hp _ _ hs hk =>
    rcases hk with hk | ⟨hl, -⟩
    · exact onward_set hp rfl hk hs
    · exact absurd hl he
  | hinted => exact .refl v
  | refusedAgain => exact .refl v
  | @retaken _ _ w p r _ _ hp _ _ ht =>
    have hset : Onward v { v with
        pcb := some (setRefused ((offerSplit o r.p).2.map fun q => ⟨q, r.fin⟩) p) } :=
      onward_set hp rfl (keeps_of_core rfl rfl) id
    have hw : Onward v w := hset.trans (onward_taking ht)
    split_ifs
    · exact hw.trans (onward_finTold w)
    · exact hw
  | ignored => exact .refl v
  | received _ hp _ _ _ hs _ hk => exact onward_set hp rfl hk fun hq => absurd hq hs
  | queued _ hp _ _ hs _ _ hk => exact onward_set hp rfl hk fun hq => absurd hq hs
  | purged _ hp _ _ _ hs _ _ hk => exact onward_set hp rfl hk fun hq => absurd hq hs
  | made hp hfresh _ _ _ _ hk => exact onward_set hp rfl hk fun _ => hfresh
  | orphaned => exact onward_none rfl
  | reopened hp hfresh _ _ _ hk => exact onward_set hp rfl hk fun _ => hfresh
  | taken _ ht => exact onward_taking ht
  | refused hp => exact onward_set hp rfl (keeps_of_core rfl rfl) id
  | finMarked hp => exact onward_set hp rfl (keeps_of_core rfl rfl) id
  | finTold => exact onward_finTold v
  | settled => exact .refl v
  | staleDropped hp _ _ hs hk => exact onward_set hp rfl hk hs
  | doomed => exact .refl v
  | removed => exact onward_none rfl

/-- Every event of lwIP but the closing of the listener takes the pcb onward. -/
theorem onward_event (hs : Sound s) (happ : ∀ a, e ≠ .app a) (he : e ≠ .listenerClosed) :
    Onward (view s) (view (step s e)) :=
  keeps_event (I := fun _ v => Onward (view s) v) hs happ (.refl _) fun _ h hf => h.trans
    (onward_flow he hf)

end TunForge.PcbHistory
