import Mathlib

/-! Runs of a deterministic event-driven system, the two induction rules used for every result about
whole runs, and the one for systems that come to an end. -/
namespace TunForge.Runs

variable {σ ε : Type*} (step : σ → ε → σ)

def run (s : σ) (es : List ε) : σ := es.foldl step s

/-- Every event of the run meets `ok` in the state in which it is taken. -/
def Along (ok : σ → ε → Prop) : σ → List ε → Prop
  | _, [] => True
  | s, e :: es => ok s e ∧ Along ok (step s e) es

@[simp] lemma run_nil (s : σ) : run step s [] = s := rfl

@[simp] lemma run_cons (s : σ) (e : ε) (es : List ε) :
    run step s (e :: es) = run step (step s e) es := rfl

lemma run_append (s : σ) (es fs : List ε) : run step s (es ++ fs) = run step (run step s es) fs :=
  List.foldl_append

instance alongDecidable (ok : σ → ε → Prop) [∀ s e, Decidable (ok s e)] :
    ∀ s es, Decidable (Along step ok s es)
  | _, [] => .isTrue trivial
  | s, e :: es =>
    have := alongDecidable ok (step s e) es
    inferInstanceAs (Decidable (ok s e ∧ Along step ok (step s e) es))

lemma along_append {ok : σ → ε → Prop} {s : σ} {es fs : List ε} :
    Along step ok s (es ++ fs) ↔ Along step ok s es ∧ Along step ok (run step s es) fs := by
  induction es generalizing s with
  | nil => simp [Along]
  | cons e es ih => simp [Along, ih, and_assoc]

lemma along_of_forall {ok : σ → ε → Prop} (h : ∀ s e, ok s e) (s : σ) (es : List ε) :
    Along step ok s es := by
  induction es generalizing s with
  | nil => trivial
  | cons e es ih => exact ⟨h s e, ih _⟩

/-- A property kept by every admitted step holds at the end of every admitted run. -/
theorem invariant {ok : σ → ε → Prop} (I : σ → Prop)
    (hstep : ∀ s e, I s → ok s e → I (step s e)) {s : σ} (hs : I s) {es : List ε}
    (hes : Along step ok s es) : I (run step s es) := by
  induction es generalizing s with
  | nil => exact hs
  | cons e es ih => exact ih (hstep s e hs hes.1) hes.2

/-- A property kept by every step holds at the end of every run. -/
theorem invariant_all (I : σ → Prop) (hstep : ∀ s e, I s → I (step s e)) {s : σ} (hs : I s)
    (es : List ε) :
    I (run step s es) :=
  invariant step I (fun s e h _ => hstep s e h) hs (along_of_forall step (fun _ _ => trivial) s es)

/-- A system that may come to an end, `none`, and a rank that drops with every tick: it ends within
as many ticks as the rank says. -/
theorem run_eq_none {step : Option σ → ε → Option σ} {ok : Option σ → ε → Prop} (I : σ → Prop)
    (rank : σ → ℕ) (tick : ε → Bool) (hnone : ∀ e, step none e = none)
    (hstep : ∀ s e s', I s → ok (some s) e → step (some s) e = some s' →
      I s' ∧ rank s' + (tick e).toNat ≤ rank s)
    {s : σ} {es : List ε} (hs : I s) (hes : Along step ok (some s) es)
    (hlen : rank s < es.countP tick) : run step (some s) es = none := by
  induction es generalizing s with
  | nil => cases hlen
  | cons e es ih =>
    rw [run_cons]
    cases hs' : step (some s) e with
    | none => exact invariant_all step (· = none) (fun t e ht => ht ▸ hnone e) rfl es
    | some s' =>
      obtain ⟨hI, hrank⟩ := hstep s e s' hs hes.1 hs'
      refine ih hI (hs' ▸ hes.2) ?_
      rw [List.countP_cons] at hlen
      cases ht : tick e <;> rw [ht] at hlen hrank
      · simp only [Bool.toNat_false, Bool.false_eq_true, if_false] at hlen hrank
        omega
      · simp only [Bool.toNat_true, if_true] at hlen hrank
        omega

end TunForge.Runs
