import Mathlib

/-! Sixteen-bit ones' complement arithmetic. A byte string is read as a number in base 256, low byte
first; since 256 * 256 is 1 modulo 0xFFFF, only the parity of a byte's position counts. -/
namespace TunForge.OnesComplement

/-- `x` is the sixteen-bit ones' complement form of `n`. Only zero has the form zero. -/
structure Rep (n x : ℕ) : Prop where
  le : x ≤ 0xFFFF
  mod : x ≡ n [MOD 0xFFFF]
  zero : x = 0 ↔ n = 0

lemma rep_zero : Rep 0 0 := ⟨Nat.zero_le _, rfl, Iff.rfl⟩

lemma Rep.unique {n x y : ℕ} (hx : Rep n x) (hy : Rep n y) : x = y := by
  have hmod : x % 0xFFFF = y % 0xFFFF := hx.mod.trans hy.mod.symm
  have hzero : x = 0 ↔ y = 0 := hx.zero.trans hy.zero.symm
  have h1 := hx.le
  have h2 := hy.le
  omega

lemma Rep.congr {n m x : ℕ} (h : Rep n x) (hmod : n ≡ m [MOD 0xFFFF]) (hzero : n = 0 ↔ m = 0) :
    Rep m x :=
  ⟨h.le, h.mod.trans hmod, h.zero.trans hzero⟩

lemma Rep.dvd_iff {n x : ℕ} (h : Rep n x) (hn : n ≠ 0) : x = 0xFFFF ↔ 0xFFFF ∣ n := by
  have hmod := (h.mod.symm.dvd_iff (dvd_refl 0xFFFF))
  have hpos : x ≠ 0 := fun h0 => hn (h.zero.1 h0)
  have hle := h.le
  rw [hmod]
  omega

def fold (u : ℕ) : ℕ := u / 2 ^ 16 + u % 2 ^ 16

lemma fold_mod (u : ℕ) : fold u ≡ u [MOD 0xFFFF] := by
  unfold fold Nat.ModEq
  omega

lemma fold_eq_zero {u : ℕ} : fold u = 0 ↔ u = 0 := by
  unfold fold
  omega

lemma rep_fold {u : ℕ} (h : u ≤ 2 * 0xFFFF) : Rep u (fold u) := by
  refine ⟨?_, fold_mod u, fold_eq_zero⟩
  unfold fold
  omega

lemma rep_fold_fold {u : ℕ} (h : u < 2 ^ 32) : Rep u (fold (fold u)) := by
  refine ⟨?_, (fold_mod _).trans (fold_mod u), fold_eq_zero.trans fold_eq_zero⟩
  unfold fold
  omega

lemma Rep.add {n m x y : ℕ} (hx : Rep n x) (hy : Rep m y) : Rep (n + m) (fold (x + y)) := by
  have h1 := hx.le
  have h2 := hy.le
  refine (rep_fold (by omega)).congr (hx.mod.add hy.mod) ?_
  have h3 := hx.zero
  have h4 := hy.zero
  omega

/-- Exchanges the two bytes of a word. -/
def swap (w : ℕ) : ℕ := w % 256 * 256 + w / 256 % 256

lemma swap_le (w : ℕ) : swap w ≤ 0xFFFF := by
  unfold swap
  omega

lemma swap_pair {high low : ℕ} (hh : high < 256) (hl : low < 256) :
    swap (256 * high + low) = 256 * low + high := by
  unfold swap
  omega

lemma pair_of_le {w : ℕ} (h : w ≤ 0xFFFF) :
    ∃ high low, high < 256 ∧ low < 256 ∧ w = 256 * high + low :=
  ⟨w / 256, w % 256, by omega, by omega, by omega⟩

lemma Rep.swap {n x : ℕ} (h : Rep n x) : Rep (256 * n) (swap x) := by
  obtain ⟨high, low, hh, hl, rfl⟩ := pair_of_le h.le
  have hzero := h.zero
  have hmod : 256 * low + high ≡ 256 * (256 * high + low) [MOD 0xFFFF] := by
    unfold Nat.ModEq
    omega
  rw [swap_pair hh hl]
  exact ⟨by omega, hmod.trans (h.mod.mul_left 256), by omega⟩

/-! ### Byte strings -/

def value (bs : List UInt8) : ℕ := Nat.ofDigits 256 (bs.map UInt8.toNat)

@[simp] lemma value_nil : value [] = 0 := rfl

@[simp] lemma value_cons (b : UInt8) (bs : List UInt8) :
    value (b :: bs) = b.toNat + 256 * value bs := by
  simp [value, Nat.ofDigits_cons]

lemma value_append (as bs : List UInt8) :
    value (as ++ bs) = value as + 256 ^ as.length * value bs := by
  simp [value, Nat.ofDigits_append]

lemma pow_mod (k : ℕ) : 256 ^ k ≡ (if k % 2 = 0 then 1 else 256) [MOD 0xFFFF] := by
  induction k using Nat.twoStepInduction with
  | zero => rfl
  | one => rfl
  | more k ih _ =>
    rw [pow_add, Nat.add_mod_right]
    calc 256 ^ k * 256 ^ 2 ≡ 256 ^ k * 1 [MOD 0xFFFF] := Nat.ModEq.mul_left _ (by decide)
      _ ≡ _ [MOD 0xFFFF] := by rw [mul_one]; exact ih

/-- A number to which the complement of its form is added, behind an even number of bytes, is zero,
in the form that is not made up of zeros. -/
lemma Rep.complement {n x k : ℕ} (h : Rep n x) (hk : k % 2 = 0) :
    n + 256 ^ k * (0xFFFF - x) ≠ 0 ∧ 0xFFFF ∣ n + 256 ^ k * (0xFFFF - x) := by
  have hle := h.le
  have hpow : 256 ^ k ≡ 1 [MOD 0xFFFF] := by
    have := pow_mod k
    rwa [if_pos hk] at this
  refine ⟨fun h0 => ?_, ?_⟩
  · obtain ⟨rfl, hc⟩ := Nat.add_eq_zero_iff.1 h0
    have := h.zero.2 rfl
    simp [this] at hc
  · have hmod : n + 256 ^ k * (0xFFFF - x) ≡ x + 1 * (0xFFFF - x) [MOD 0xFFFF] :=
      h.mod.symm.add (hpow.mul_right _)
    rw [one_mul, Nat.add_sub_cancel' hle] at hmod
    exact (Nat.modEq_zero_iff_dvd.1 (hmod.trans (by decide)))

/-- The ones' complement sum of the sixteen-bit words of a byte string, high byte first, each carry
added back at once. An odd byte is padded with zero. -/
def onesAdd (a b : ℕ) : ℕ := if a + b < 2 ^ 16 then a + b else a + b - 0xFFFF

def words : List UInt8 → List ℕ
  | [] => []
  | [b] => [256 * b.toNat]
  | b :: c :: bs => (256 * b.toNat + c.toNat) :: words bs

def internetSum (bs : List UInt8) : ℕ := (words bs).foldl onesAdd 0

/-- The Internet checksum. -/
def internetChecksum (bs : List UInt8) : ℕ := 0xFFFF - internetSum bs

lemma Rep.onesAdd {n x y : ℕ} (h : Rep n x) (hy : y ≤ 0xFFFF) : Rep (n + y) (onesAdd x y) := by
  have h1 := h.le
  have h2 := h.zero
  have h3 : x % 0xFFFF = n % 0xFFFF := h.mod
  unfold OnesComplement.onesAdd
  refine ⟨?_, ?_, ?_⟩
  · split_ifs <;> omega
  · unfold Nat.ModEq
    split_ifs <;> omega
  · split_ifs <;> omega

lemma rep_foldl {n x : ℕ} (h : Rep n x) :
    ∀ bs, Rep (n + (words bs).sum) ((words bs).foldl onesAdd x) := by
  intro bs
  induction bs using words.induct generalizing n x with
  | case1 => exact h
  | case2 b =>
    have := b.toNat_lt
    simp only [words, List.sum_cons, List.sum_nil, List.foldl_cons, List.foldl_nil, add_zero]
    exact h.onesAdd (by omega)
  | case3 b c bs ih =>
    have hb := b.toNat_lt
    have hc := c.toNat_lt
    simp only [words, List.sum_cons, List.foldl_cons]
    rw [← add_assoc]
    exact ih (h.onesAdd (by omega))

lemma sum_words (bs : List UInt8) :
    (words bs).sum ≡ 256 * value bs [MOD 0xFFFF] ∧ ((words bs).sum = 0 ↔ 256 * value bs = 0) := by
  induction bs using words.induct with
  | case1 => exact ⟨rfl, Iff.rfl⟩
  | case2 b => simp [words, Nat.ModEq]
  | case3 b c bs ih =>
    obtain ⟨h1, h2⟩ := ih
    simp only [words, List.sum_cons, value_cons]
    unfold Nat.ModEq at *
    constructor <;> omega

lemma rep_internetSum (bs : List UInt8) : Rep (256 * value bs) (internetSum bs) := by
  have h := rep_foldl rep_zero bs
  rw [zero_add] at h
  exact h.congr (sum_words bs).1 (sum_words bs).2

lemma Rep.swap_eq {bs : List UInt8} {x : ℕ} (h : Rep (value bs) x) :
    OnesComplement.swap x = internetSum bs :=
  h.swap.unique (rep_internetSum bs)

end TunForge.OnesComplement
