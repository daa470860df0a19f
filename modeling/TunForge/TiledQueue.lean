import Mathlib

/-! Queues of pieces that lie end to end along a line of positions, each of them marked or not.
A queue that is kept in two lists, of the marked and of the unmarked pieces, is one such queue:
moving a piece between the lists by its rank changes nothing but its mark. -/
namespace TunForge.TiledQueue

variable {α : Type*} {q pre post : List (α × Bool)} {b c : Bool} {x : α} {rest : List α}

/-! ### Marks -/

def part (b : Bool) (q : List (α × Bool)) : List α := (q.filter fun x => x.2 == b).map Prod.fst

/-- All pieces, in order. -/
def pieces (q : List (α × Bool)) : List α := q.map Prod.fst

def markAll (b : Bool) (q : List (α × Bool)) : List (α × Bool) := q.map fun x => (x.1, b)

@[simp] lemma part_nil : part b ([] : List (α × Bool)) = [] := rfl

@[simp] lemma pieces_nil : pieces ([] : List (α × Bool)) = [] := rfl

@[simp] lemma pieces_cons {y : α × Bool} : pieces (y :: q) = y.1 :: pieces q := rfl

lemma part_cons : part b ((x, c) :: q) = if c = b then x :: part b q else part b q := by
  unfold part
  rw [List.filter_cons]
  simp only [beq_iff_eq]
  split_ifs <;> rfl

@[simp] lemma part_same : part b ((x, b) :: q) = x :: part b q := by simp [part_cons]

@[simp] lemma part_not : part b ((x, !b) :: q) = part b q := by simp [part_cons]

@[simp] lemma part_true_false : part true ((x, false) :: q) = part true q := part_not

@[simp] lemma part_false_true : part false ((x, true) :: q) = part false q := part_not

@[simp] lemma part_append : part b (pre ++ post) = part b pre ++ part b post := by simp [part]

@[simp] lemma pieces_append : pieces (pre ++ post) = pieces pre ++ pieces post := by simp [pieces]

@[simp] lemma part_markAll (b c : Bool) (q : List (α × Bool)) :
    part b (markAll c q) = if c = b then pieces q else [] := by
  induction q with
  | nil => simp [markAll]
  | cons y q ih =>
    rw [markAll, List.map_cons, part_cons, ← markAll, ih]
    split_ifs <;> rfl

@[simp] lemma pieces_markAll (b : Bool) (q : List (α × Bool)) :
    pieces (markAll b q) = pieces q := by
  simp [pieces, markAll]

lemma perm_pieces (q : List (α × Bool)) : (part true q ++ part false q).Perm (pieces q) := by
  induction q with
  | nil => rfl
  | cons y q ih =>
    obtain ⟨x, b⟩ := y
    cases b with
    | false =>
      rw [part_true_false, part_same]
      exact List.perm_middle.trans (ih.cons x)
    | true =>
      rw [part_false_true, part_same]
      exact ih.cons x

lemma mem_pieces_of_part (h : x ∈ part b q) : x ∈ pieces q := by
  rw [← (perm_pieces q).mem_iff, List.mem_append]
  cases b
  · exact .inr h
  · exact .inl h

lemma part_eq_pieces (h : part (!b) q = []) : part b q = pieces q := by
  induction q with
  | nil => rfl
  | cons y q ih =>
    obtain ⟨x, c⟩ := y
    rcases eq_or_ne c b with rfl | hc
    · rw [part_same, pieces_cons, ih (by simpa [part_cons] using h)]
    · rw [Bool.eq_not_of_ne hc, part_same] at h
      cases h

lemma exists_first (h : part b q = x :: rest) :
    ∃ pre post, q = pre ++ (x, b) :: post ∧ part b pre = [] ∧ part b post = rest := by
  induction q with
  | nil => cases h
  | cons y q ih =>
    obtain ⟨z, c⟩ := y
    rcases eq_or_ne c b with rfl | hc
    · rw [part_same] at h
      obtain ⟨rfl, rfl⟩ := List.cons.inj h
      exact ⟨[], q, rfl, rfl, rfl⟩
    · rw [part_cons, if_neg hc] at h
      obtain ⟨pre, post, rfl, hpre, hpost⟩ := ih h
      exact ⟨(z, c) :: pre, post, rfl, by rw [part_cons, if_neg hc, hpre], hpost⟩

lemma exists_last (h : (part b q).getLast? = some x) :
    ∃ pre post, q = pre ++ (x, b) :: post ∧ part b post = [] := by
  -- the last piece with mark `b` has only pieces with the other mark behind it
  induction q with
  | nil => cases h
  | cons y q ih =>
    obtain ⟨z, c⟩ := y
    cases hu : part b q with
    | nil =>
      rw [part_cons, hu] at h
      split_ifs at h with hc
      · obtain rfl := Option.some.inj h
        exact ⟨[], q, by rw [hc]; rfl, hu⟩
      · cases h
    | cons w ws =>
      have hlast : (part b q).getLast? = some x := by
        rw [part_cons, hu] at h
        split_ifs at h
        · rwa [hu, ← List.getLast?_cons_cons]
        · rwa [hu]
      obtain ⟨pre, post, rfl, hpost⟩ := ih hlast
      exact ⟨(z, c) :: pre, post, rfl, hpost⟩

/-- Dropping what satisfies `p` from one list is dropping it from the queue, if `p` holds of a
first part of the queue. -/
lemma dropWhile_part {p : α → Bool} (h : q.Pairwise fun x y => p y.1 = true → p x.1 = true) :
    (part b q).dropWhile p = part b (q.dropWhile fun x => p x.1) := by
  induction q with
  | nil => rfl
  | cons y q ih =>
    obtain ⟨z, c⟩ := y
    obtain ⟨hz, hq⟩ := List.pairwise_cons.1 h
    by_cases hp : p z = true
    · rw [List.dropWhile_cons_of_pos (l := q) (a := (z, c)) (p := fun x => p x.1) hp, ← ih hq,
        part_cons]
      split_ifs
      · exact List.dropWhile_cons_of_pos hp
      · rfl
    · have hnone : ∀ w ∈ part b ((z, c) :: q), ¬p w = true := by
        intro w hw hpw
        rcases List.mem_cons.1 (mem_pieces_of_part hw) with rfl | hmem
        · exact hp hpw
        · obtain ⟨v, hv, rfl⟩ := List.mem_map.1 hmem
          exact hp (hz v hv hpw)
      rw [List.dropWhile_cons_of_neg (l := q) (a := (z, c)) (p := fun x => p x.1) hp]
      cases hm : part b ((z, c) :: q) with
      | nil => rfl
      | cons w ws => exact List.dropWhile_cons_of_neg (hnone w (by simp [hm]))

/-! ### Placing a piece by its rank -/

/-- Put `x` in front of the first element that is not before it. -/
def place (before : α → α → Bool) (x : α) : List α → List α
  | [] => [x]
  | y :: ys => if before y x then y :: place before x ys else x :: y :: ys

lemma place_between {before : α → α → Bool} {l r : List α} (hl : ∀ y ∈ l, before y x = true)
    (hr : ∀ y ∈ r, before y x = false) : place before x (l ++ r) = l ++ x :: r := by
  induction l with
  | nil =>
    cases r with
    | nil => rfl
    | cons y r => simp [place, hr y (by simp)]
  | cons y l ih =>
    rw [List.cons_append, place, if_pos (hl y (by simp)), ih fun z hz => hl z (by simp [hz])]
    rfl

/-! ### Tilings -/

/-- The pieces lie end to end from position `a` on, and `P` holds of each at its position. -/
def Tiles (len : α → ℕ) (P : ℕ → α → Prop) : ℕ → List α → Prop
  | _, [] => True
  | a, x :: xs => P a x ∧ Tiles len P (a + len x) xs

def extent (len : α → ℕ) (l : List α) : ℕ := (l.map len).sum

variable {len : α → ℕ} {P Q : ℕ → α → Prop} {a : ℕ} {l r : List α}

@[simp] lemma extent_nil : extent len ([] : List α) = 0 := rfl

@[simp] lemma extent_cons : extent len (x :: l) = len x + extent len l := by simp [extent]

@[simp] lemma extent_append : extent len (l ++ r) = extent len l + extent len r := by simp [extent]

lemma tiles_append : Tiles len P a (l ++ r) ↔ Tiles len P a l ∧
    Tiles len P (a + extent len l) r := by
  induction l generalizing a with
  | nil => simp [Tiles]
  | cons x l ih => simp [Tiles, ih, and_assoc, Nat.add_assoc]

lemma Tiles.imp (h : Tiles len P a l)
    (hPQ : ∀ p x, a ≤ p → p + len x ≤ a + extent len l → P p x → Q p x) :
    Tiles len Q a l := by
  induction l generalizing a with
  | nil => trivial
  | cons x l ih =>
    refine ⟨hPQ a x le_rfl (by simp) h.1, ih h.2 fun p y hp hle => hPQ p y (by omega) ?_⟩
    simp only [extent_cons]
    omega

lemma Tiles.exists_pos (h : Tiles len P a l) (hx : x ∈ l) :
    ∃ p, a ≤ p ∧ p + len x ≤ a + extent len l ∧ P p x := by
  induction l generalizing a with
  | nil => cases hx
  | cons y l ih =>
    rcases List.mem_cons.1 hx with rfl | hx
    · exact ⟨a, le_rfl, by simp, h.1⟩
    · obtain ⟨p, hp, hle, hP⟩ := ih h.2 hx
      exact ⟨p, by omega, by simp only [extent_cons]; omega, hP⟩

section Ends

/-! A test that tells of every piece whether it ends at or before position `n`. -/

variable {t : α → Bool} {n : ℕ}

lemma Tiles.pairwise (h : Tiles len P a l)
    (ht : ∀ p x, a ≤ p → p + len x ≤ a + extent len l → P p x → (t x = true ↔ p + len x ≤ n)) :
    l.Pairwise fun x y => t y = true → t x = true := by
  induction l generalizing a with
  | nil => exact .nil
  | cons x l ih =>
    have htail : ∀ p y, a + len x ≤ p → p + len y ≤ a + len x + extent len l → P p y →
        (t y = true ↔ p + len y ≤ n) := by
      intro p y hp hle hP
      exact ht p y (by omega) (by simp only [extent_cons]; omega) hP
    refine List.pairwise_cons.2 ⟨fun y hy hty => ?_, ih h.2 htail⟩
    obtain ⟨p, hp, hle, hP⟩ := h.2.exists_pos hy
    have hend := (htail p y hp hle hP).1 hty
    exact (ht a x le_rfl (by simp) h.1).2 (by omega)

lemma Tiles.dropWhile (h : Tiles len P a l)
    (ht : ∀ p x, a ≤ p → p + len x ≤ a + extent len l → P p x → (t x = true ↔ p + len x ≤ n)) :
    ∃ b, a ≤ b ∧ b ≤ max a n ∧ b + extent len (l.dropWhile t) = a + extent len l ∧
    Tiles len P b (l.dropWhile t) ∧
      ∀ x ∈ (l.dropWhile t).head?, n < b + len x := by
  induction l generalizing a with
  | nil => exact ⟨a, le_rfl, le_max_left _ _, rfl, h, nofun⟩
  | cons x l ih =>
    by_cases hx : t x = true
    · have hend := (ht a x le_rfl (by simp) h.1).1 hx
      obtain ⟨b, hab, hbn, hext, hb⟩ := ih h.2 fun p y hp hle hP =>
        ht p y (by omega) (by simp only [extent_cons]; omega) hP
      rw [List.dropWhile_cons_of_pos hx]
      exact ⟨b, by omega, by omega, by simp only [extent_cons]; omega, hb⟩
    · have hend := (ht a x le_rfl (by simp) h.1).not.1 hx
      rw [List.dropWhile_cons_of_neg hx]
      refine ⟨a, le_rfl, le_max_left _ _, rfl, h, fun y hy => ?_⟩
      obtain rfl : x = y := Option.some.inj hy
      omega

end Ends

end TunForge.TiledQueue
