import Mathlib

/-! Arithmetic of 32-bit serial numbers. Comparison is by the sign of the
wrapped difference; inside one half of the number circle it agrees with the
order of the offsets from any base point. -/
namespace TunForge.SerialNumber

abbrev Seq := BitVec 32

def half : ℕ := 2 ^ 31

def lt (a b : Seq) : Bool := decide (half ≤ (a - b).toNat)

def leq (a b : Seq) : Bool := !lt b a

def gt (a b : Seq) : Bool := lt b a

def geq (a b : Seq) : Bool := leq b a

def between (a b c : Seq) : Bool := geq a b && leq a c

/-- Distance from the base point `r` forward to `a`. -/
def off (r a : Seq) : ℕ := (a - r).toNat

lemma off_lt (r a : Seq) : off r a < 2 ^ 32 := (a - r).isLt

@[simp] lemma off_self (r : Seq) : off r r = 0 := by simp [off]

lemma off_eq_zero {r a : Seq} : off r a = 0 ↔ a = r := by
  unfold off
  constructor <;> intro h <;> bv_omega

lemma off_inj {r a b : Seq} (h : off r a = off r b) : a = b := by
  unfold off at h
  bv_omega

lemma off_add_nat {r a : Seq} {n : ℕ} (h : off r a + n < 2 ^ 32) :
    off r (a + BitVec.ofNat 32 n) = off r a + n := by
  unfold off at *
  rw [show a + BitVec.ofNat 32 n - r = (a - r) + BitVec.ofNat 32 n by bv_omega,
    BitVec.toNat_add, BitVec.toNat_ofNat]
  omega

lemma off_base_add {r : Seq} {n : ℕ} (h : n < 2 ^ 32) : off r (r + BitVec.ofNat 32 n) = n := by
  have := off_add_nat (r := r) (a := r) (n := n) (by simpa using h)
  simpa using this

lemma off_shift {r a : Seq} {n : ℕ} (hn : n ≤ off r a) :
    off (r + BitVec.ofNat 32 n) a = off r a - n := by
  have hlt := off_lt r a
  unfold off at *
  rw [show a - (r + BitVec.ofNat 32 n) = (a - r) - BitVec.ofNat 32 n by bv_omega,
    BitVec.toNat_sub, BitVec.toNat_ofNat]
  omega

lemma toNat_sub_eq {r a b : Seq} (h : off r b ≤ off r a) : (a - b).toNat = off r a - off r b := by
  have ha := off_lt r a
  unfold off at *
  rw [show a - b = (a - r) - (b - r) by bv_omega, BitVec.toNat_sub]
  omega

lemma lt_iff {r a b : Seq} (ha : off r a < half) (hb : off r b < half) :
    lt a b = true ↔ off r a < off r b := by
  unfold lt half off at *
  rw [decide_eq_true_iff, show a - b = (a - r) - (b - r) by bv_omega, BitVec.toNat_sub]
  omega

lemma leq_iff {r a b : Seq} (ha : off r a < half) (hb : off r b < half) :
    leq a b = true ↔ off r a ≤ off r b := by
  have := lt_iff hb ha
  simp only [leq, Bool.not_eq_true', ← Bool.not_eq_true, this, not_lt]

lemma gt_iff {r a b : Seq} (ha : off r a < half) (hb : off r b < half) :
    gt a b = true ↔ off r b < off r a := lt_iff hb ha

lemma geq_iff {r a b : Seq} (ha : off r a < half) (hb : off r b < half) :
    geq a b = true ↔ off r b ≤ off r a := leq_iff hb ha

lemma between_window {r a : Seq} {n : ℕ} (hn : n < half) :
    between a r (r + BitVec.ofNat 32 n - 1) = true ↔ off r a < n := by
  unfold between geq leq lt half off at *
  simp only [Bool.and_eq_true, Bool.not_eq_true', decide_eq_false_iff_not, not_le]
  have hlt : (a - r).toNat < 2 ^ 32 := (a - r).isLt
  rw [show r + BitVec.ofNat 32 n - 1 - a = BitVec.ofNat 32 n - 1 - (a - r) by bv_omega]
  generalize a - r = d at *
  simp only [BitVec.toNat_sub, BitVec.toNat_ofNat, show BitVec.toNat (1 : Seq) = 1 from rfl]
  omega

lemma between_inside {r a : Seq} {n : ℕ} (h0 : 0 < n) (hn : n < half) :
    between r (a + 1) (a + BitVec.ofNat 32 n - 1) = true ↔ 0 < off a r ∧ off a r < n := by
  unfold between geq leq lt half off at *
  simp only [Bool.and_eq_true, Bool.not_eq_true', decide_eq_false_iff_not, not_le]
  have hlt : (r - a).toNat < 2 ^ 32 := (r - a).isLt
  rw [show a + BitVec.ofNat 32 n - 1 - r = BitVec.ofNat 32 n - 1 - (r - a) by bv_omega,
    show r - (a + 1) = (r - a) - 1 by bv_omega]
  generalize r - a = d at *
  simp only [BitVec.toNat_sub, BitVec.toNat_ofNat, show BitVec.toNat (1 : Seq) = 1 from rfl]
  omega

lemma between_open {r a b c : Seq} (ha : off r a < half) (hb : off r b < half)
    (hc : off r c < half) (hbc : off r b < off r c) :
    between a (b + 1) (c - 1) = true ↔ off r b < off r a ∧ off r a < off r c := by
  have hb1 : off r (b + 1) = off r b + 1 := off_add_nat (n := 1) (by unfold half at *; omega)
  have hc1 : off r (c - 1) = off r c - 1 := by
    unfold off at *
    rw [show c - 1 - r = (c - r) - 1 by bv_omega, BitVec.toNat_sub]
    simp only [show BitVec.toNat (1 : Seq) = 1 from rfl]
    have := (c - r).isLt
    omega
  unfold between
  rw [Bool.and_eq_true, geq_iff (r := r) ha (by rw [hb1]; omega),
    leq_iff (r := r) ha (by rw [hc1]; omega), hb1, hc1]
  omega

lemma off_ofNat {b x : ℕ} (h : b ≤ x) (h' : x - b < 2 ^ 32) :
    off (BitVec.ofNat 32 b) (BitVec.ofNat 32 x) = x - b := by
  rw [show BitVec.ofNat 32 x = BitVec.ofNat 32 b + BitVec.ofNat 32
    (x - b) by rw [← BitVec.ofNat_add]; congr 1; omega]
  exact off_base_add h'

lemma lt_ofNat {b x y : ℕ} (hx : b ≤ x) (hx' : x < b + half) (hy : b ≤ y) (hy' : y < b + half) :
    lt (BitVec.ofNat 32 x) (BitVec.ofNat 32 y) = true ↔ x < y := by
  unfold half at hx' hy'
  have hox := off_ofNat hx (by omega)
  have hoy := off_ofNat hy (by omega)
  rw [lt_iff (r := BitVec.ofNat 32 b) (by rw [hox, half]; omega) (by rw [hoy, half]; omega), hox,
    hoy]
  omega

end TunForge.SerialNumber
