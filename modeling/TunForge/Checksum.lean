import TunForge.OnesComplement
import TunForge.PbufChain

/-! The checksum routines of `inet_chksum.c`, as configured: words are read in the byte order of
the machine, which is low byte first, from buffers that may start at odd addresses. -/
namespace TunForge.Checksum
open OnesComplement PbufChain

/-! ### The routines -/

/-- One pbuf of a chain: whether its payload starts at an odd address, and the payload. -/
structure Piece where
  odd : Bool
  data : Bytes
  deriving DecidableEq

def bytes (chain : List Piece) : Bytes := chain.flatMap Piece.data

/-- The loop of `lwip_standard_chksum` over whole words: the sum, and the byte left over. -/
def sumWords : ℕ → Bytes → ℕ × ℕ
  | sum, b :: c :: bs => sumWords ((sum + (b.toNat + 256 * c.toNat)) % 2 ^ 32) bs
  | sum, [b] => (sum, b.toNat)
  | sum, [] => (sum, 0)

/-- `lwip_standard_chksum`, the second of its versions. The first byte of a buffer at an odd address
goes to the high byte of `t`, a last one without a partner to the low byte. -/
def lwipStandardChksum (odd : Bool) (data : Bytes) : ℕ :=
  let high := if odd then (data.head?.map UInt8.toNat).getD 0 else 0
  let (sum, low) := sumWords 0 (if odd then data.tail else data)
  let sum := (sum + (256 * high + low)) % 2 ^ 32
  let sum := fold (fold sum)
  (if odd then swap sum else sum) % 2 ^ 16

/-- `inet_chksum`. -/
def inetChksum (odd : Bool) (data : Bytes) : ℕ := 0xFFFF - lwipStandardChksum odd data

/-- The loop of `inet_cksum_pseudo_base` over a chain. Behind a pbuf of odd length the sum is kept
with its bytes exchanged. -/
def sumChain : List Piece → ℕ → Bool → ℕ × Bool
  | [], acc, swapped => (acc, swapped)
  | q :: chain, acc, swapped =>
    let acc := fold ((acc + lwipStandardChksum q.odd q.data) % 2 ^ 32)
    if q.data.length % 2 ≠ 0 then sumChain chain (swap acc) (!swapped)
    else sumChain chain acc swapped

/-- `inet_cksum_pseudo_base`. -/
def inetCksumPseudoBase (p : List Piece) (proto protoLen acc : ℕ) : ℕ :=
  let (acc, swapped) := sumChain p acc false
  let acc := if swapped then swap acc else acc
  let acc := (acc + swap proto) % 2 ^ 32
  let acc := (acc + swap protoLen) % 2 ^ 32
  let acc := fold (fold acc)
  0xFFFF - acc % 2 ^ 16

/-- `inet_chksum_pseudo`. An address is the word whose bytes in memory are those of the address. -/
def inetChksumPseudo (p : List Piece) (proto protoLen : ℕ) (src dest : BitVec 32) : ℕ :=
  let acc := src.toNat % 2 ^ 16
  let acc := (acc + src.toNat / 2 ^ 16) % 2 ^ 32
  let acc := (acc + dest.toNat % 2 ^ 16) % 2 ^ 32
  let acc := (acc + dest.toNat / 2 ^ 16) % 2 ^ 32
  inetCksumPseudoBase p proto protoLen (fold (fold acc))

/-! ### One buffer -/

lemma sumWords_spec (bs : Bytes) (sum : ℕ) (h : sum + 0xFFFF * (bs.length / 2) < 2 ^ 32) :
    (sumWords sum bs).1 ≤ sum + 0xFFFF * (bs.length / 2) ∧ (sumWords sum bs).2 < 256 ∧
      (sumWords sum bs).1 + (sumWords sum bs).2 ≡ sum + value bs [MOD 0xFFFF] ∧
      ((sumWords sum bs).1 + (sumWords sum bs).2 = 0 ↔ sum + value bs = 0) := by
  induction sum, bs using sumWords.induct with
  | case1 sum b c bs ih =>
    have hb := b.toNat_lt
    have hc := c.toNat_lt
    have hlen : (b :: c :: bs).length / 2 = bs.length / 2 + 1 := by
      rw [List.length_cons, List.length_cons]
      omega
    rw [hlen] at h ⊢
    rw [Nat.mod_eq_of_lt (by omega)] at ih
    obtain ⟨h1, h2, h3, h4⟩ := ih (by omega)
    simp only [sumWords, value_cons]
    rw [Nat.mod_eq_of_lt (by omega)]
    unfold Nat.ModEq at h3 ⊢
    exact ⟨by omega, h2, by omega, by omega⟩
  | case2 sum b =>
    have hb := b.toNat_lt
    rw [sumWords, value_cons, value_nil, mul_zero, add_zero]
    exact ⟨Nat.le_add_right _ _, hb, rfl, Iff.rfl⟩
  | case3 sum =>
    simp [sumWords, Nat.ModEq]

lemma rep_chksum (odd : Bool) {data : Bytes} (h : data.length ≤ 0x20000) :
    Rep (value data) (lwipStandardChksum odd data) := by
  -- the sum of a buffer does not depend on where the buffer lies
  have hcut : ∀ {x n}, Rep n x → Rep n (x % 2 ^ 16) := by
    intro x n hx
    have hle := hx.le
    rw [Nat.mod_eq_of_lt (by omega)]
    exact hx
  unfold lwipStandardChksum
  cases odd with
  | false =>
    obtain ⟨h1, h2, h3, h4⟩ := sumWords_spec data 0 (by omega)
    simp only [Bool.false_eq_true, if_false, mul_zero, zero_add] at *
    refine hcut ?_
    rw [Nat.mod_eq_of_lt (by omega)]
    exact (rep_fold_fold (by omega)).congr h3 h4
  | true =>
    cases data with
    | nil => exact rep_zero
    | cons b bs =>
      have hb := b.toNat_lt
      rw [List.length_cons] at h
      obtain ⟨h1, h2, h3, h4⟩ := sumWords_spec bs 0 (by omega)
      simp only [if_true, List.head?_cons, Option.map_some, Option.getD_some, List.tail_cons,
        value_cons, zero_add] at *
      refine hcut ?_
      rw [Nat.mod_eq_of_lt (by omega)]
      refine (rep_fold_fold (by omega)).swap.congr ?_ ?_
      · unfold Nat.ModEq at h3 ⊢
        omega
      · omega

/-! ### A chain -/

@[simp] lemma bytes_cons (q : Piece) (chain : List Piece) :
    bytes (q :: chain) = q.data ++ bytes chain := rfl

lemma pow_twice (k : ℕ) : 256 ^ (2 * k) ≡ 1 [MOD 0xFFFF] := by
  have h := pow_mod (2 * k)
  rwa [if_pos (Nat.mul_mod_right 2 k)] at h

/-- The loop over a chain that starts behind `k` bytes with value `n`: its sum is that of all bytes,
multiplied by 256 once for each of them. -/
lemma sumChain_spec {chain : List Piece} (h : ∀ q ∈ chain, q.data.length < 2 ^ 16) {acc n k : ℕ}
    {swapped : Bool} (hacc : Rep (256 ^ k * n) acc) (hswap : swapped = decide (k % 2 = 1)) :
    Rep (256 ^ (k + (bytes chain).length) * (n + 256 ^ k * value (bytes chain)))
      (sumChain chain acc swapped).1 ∧
      (sumChain chain acc swapped).2 = decide ((k + (bytes chain).length) % 2 = 1) := by
  induction chain generalizing acc n k swapped with
  | nil => exact ⟨by simpa [bytes, sumChain] using hacc, hswap⟩
  | cons q chain ih =>
    have hlen := h q (.head _)
    have hchk : Rep (value q.data) (lwipStandardChksum q.odd q.data) := rep_chksum q.odd (by omega)
    have hsum := hacc.add hchk
    have hfits : acc + lwipStandardChksum q.odd q.data < 2 ^ 32 := by
      have h1 := hacc.le
      have h2 := hchk.le
      omega
    -- what the bytes so far come to, before the exchange
    have hgoal : 256 ^ (k + q.data.length) * (n + 256 ^ k * value q.data) ≡
        256 ^ q.data.length * (256 ^ k * n + value q.data) [MOD 0xFFFF] := by
      have heq : 256 ^ (k + q.data.length) * (n + 256 ^ k * value q.data) =
          256 ^ q.data.length * (256 ^ k * n + 256 ^ (2 * k) * value q.data) := by ring
      rw [heq]
      refine Nat.ModEq.mul_left _ (Nat.ModEq.add_left _ ?_)
      simpa using (pow_twice k).mul_right (value q.data)
    have hrest : ∀ {acc' swapped'},
        Rep (256 ^ (k + q.data.length) * (n + 256 ^ k * value q.data)) acc' →
        swapped' = decide ((k + q.data.length) % 2 = 1) →
        Rep (256 ^ (k + (bytes (q :: chain)).length) * (n + 256 ^ k * value (bytes (q :: chain))))
          (sumChain chain acc' swapped').1 ∧
          (sumChain chain acc' swapped').2 =
            decide ((k + (bytes (q :: chain)).length) % 2 = 1) := by
      intro acc' swapped' h1 h2
      have heq : n + 256 ^ k * value (q.data ++ bytes chain) =
          n + 256 ^ k * value q.data + 256 ^ (k + q.data.length) * value (bytes chain) := by
        rw [value_append]
        ring
      rw [bytes_cons, List.length_append, heq, ← add_assoc]
      exact ih (fun q' hq' => h q' (.tail _ hq')) h1 h2
    unfold sumChain
    dsimp only
    rw [Nat.mod_eq_of_lt hfits]
    split_ifs with hodd
    · refine hrest (hsum.swap.congr ?_ ?_) ?_
      · have h256 : 256 ≡ 256 ^ q.data.length [MOD 0xFFFF] := by
          have := (pow_mod q.data.length).symm
          rwa [if_neg hodd] at this
        exact (h256.mul_right _).trans hgoal.symm
      · simp
      · rw [hswap]
        rcases Nat.mod_two_eq_zero_or_one k with
          hk | hk <;> simp [hk, Nat.add_mod, Nat.mod_two_ne_zero.1 hodd]
    · have heven := not_not.1 hodd
      refine hrest (hsum.congr ?_ ?_) ?_
      · have h1 : 1 ≡ 256 ^ q.data.length [MOD 0xFFFF] := by
          have := (pow_mod q.data.length).symm
          rwa [if_pos heven] at this
        have := h1.mul_right (256 ^ k * n + value q.data)
        rw [one_mul] at this
        exact this.trans hgoal.symm
      · simp
      · rw [hswap, Nat.add_mod, heven, Nat.add_zero, Nat.mod_mod]

/-! ### The pseudo header -/

/-- The bytes of a word in memory. -/
def addrBytes (a : BitVec 32) : Bytes :=
  [UInt8.ofNat a.toNat, UInt8.ofNat (a.toNat / 2 ^ 8), UInt8.ofNat (a.toNat / 2 ^ 16),
    UInt8.ofNat (a.toNat / 2 ^ 24)]

/-- A sixteen-bit number as it goes over the wire. -/
def wire16 (n : ℕ) : Bytes := [UInt8.ofNat (n / 256), UInt8.ofNat n]

/-- The header that the checksum of TCP covers beside the segment. -/
def pseudoHeader (proto protoLen : ℕ) (src dest : BitVec 32) : Bytes :=
  addrBytes src ++ addrBytes dest ++ [0, UInt8.ofNat proto] ++ wire16 protoLen

lemma value_addrBytes (a : BitVec 32) : value (addrBytes a) = a.toNat := by
  have := a.isLt
  simp only [addrBytes, value_cons, value_nil, UInt8.toNat_ofNat']
  omega

lemma value_wire16 (n : ℕ) : value (wire16 n) = swap n := by
  simp only [wire16, value_cons, value_nil, UInt8.toNat_ofNat', swap]
  omega

lemma value_pseudoHeader {proto : ℕ} (hproto : proto < 256) (protoLen : ℕ) (src dest : BitVec 32) :
    value (pseudoHeader proto protoLen src dest) ≡
      src.toNat % 2 ^ 16 + src.toNat / 2 ^ 16 + dest.toNat % 2 ^ 16 + dest.toNat / 2 ^ 16 +
        swap proto + swap protoLen [MOD 0xFFFF] ∧
    (value (pseudoHeader proto protoLen src dest) = 0 ↔
      src.toNat % 2 ^ 16 + src.toNat / 2 ^ 16 + dest.toNat % 2 ^ 16 + dest.toNat / 2 ^ 16 +
        swap proto + swap protoLen = 0) := by
  have hsrc := src.isLt
  have hdest := dest.isLt
  have hp : value [0, UInt8.ofNat proto] = swap proto := by
    simp only [value_cons, value_nil, UInt8.toNat_ofNat', swap]
    simp only [UInt8.toNat_zero]
    omega
  have hl := value_wire16 protoLen
  simp only [pseudoHeader, value_append, value_addrBytes, hp, hl]
  simp only [addrBytes, List.length_append, List.length_cons, List.length_nil]
  unfold Nat.ModEq
  constructor <;> omega

lemma rep_unswap {n x k : ℕ} (h : Rep (256 ^ k * n) x) :
    Rep n (if decide (k % 2 = 1) then swap x else x) := by
  have hzero : ∀ j, 256 ^ j * n = 0 ↔ n = 0 := fun j => by simp
  by_cases hk : k % 2 = 1
  · have hpow : 256 ^ (k + 1) ≡ 1 [MOD 0xFFFF] := by
      have := pow_mod (k + 1)
      rwa [if_pos (by omega)] at this
    have heq : 256 * (256 ^ k * n) = 256 ^ (k + 1) * n := by ring
    have hs := h.swap
    rw [heq] at hs
    simp only [hk, decide_true, if_true]
    exact hs.congr (by simpa using hpow.mul_right n) (hzero _)
  · have hpow : 256 ^ k ≡ 1 [MOD 0xFFFF] := by
      have := pow_mod k
      rwa [if_pos (by omega)] at this
    simp only [hk, decide_false, Bool.false_eq_true, if_false]
    exact h.congr (by simpa using hpow.mul_right n) (hzero _)

lemma pseudo_spec {p : List Piece} (h : ∀ q ∈ p, q.data.length < 2 ^ 16) {proto : ℕ}
    (hproto : proto < 256) (protoLen : ℕ) (src dest : BitVec 32) :
    ∃ x, inetChksumPseudo p proto protoLen src dest = 0xFFFF - x ∧
    Rep (value (pseudoHeader proto protoLen src dest ++ bytes p)) x := by
  -- the sum over a pseudo header and a chain, before it is inverted
  have hsrc := src.isLt
  have hdest := dest.isLt
  have hp := swap_le proto
  have hl := swap_le protoLen
  have hlen : (pseudoHeader proto protoLen src dest).length = 12 := rfl
  obtain ⟨hmod, hzero⟩ := value_pseudoHeader hproto protoLen src dest
  rw [value_append, hlen]
  unfold inetChksumPseudo inetCksumPseudoBase
  dsimp only
  rw [Nat.mod_eq_of_lt (a := src.toNat % 2 ^ 16 + _) (by omega),
    Nat.mod_eq_of_lt (a := src.toNat % 2 ^ 16 + _ + _) (by omega),
    Nat.mod_eq_of_lt (a := src.toNat % 2 ^ 16 + _ + _ + _) (by omega)]
  have hstart : Rep (src.toNat % 2 ^ 16 + src.toNat / 2 ^ 16 + dest.toNat % 2 ^ 16 +
      dest.toNat / 2 ^ 16)
      (fold (fold (src.toNat % 2 ^ 16 + src.toNat / 2 ^ 16 + dest.toNat % 2 ^ 16 +
        dest.toNat / 2 ^ 16))) := rep_fold_fold (by omega)
  generalize src.toNat % 2 ^ 16 + src.toNat / 2 ^ 16 + dest.toNat % 2 ^ 16 + dest.toNat / 2 ^ 16 =
    n at *
  obtain ⟨hsum, hswap⟩ := sumChain_spec h (k := 0) (n := n) (by simpa using hstart) (Eq.refl false)
  generalize sumChain p (fold (fold n)) false = r at *
  rw [hswap]
  simp only [zero_add, pow_zero, one_mul] at hsum ⊢
  have hdata := rep_unswap hsum
  generalize (if decide ((bytes p).length % 2 = 1) = true then swap r.1 else r.1) = y at *
  have hy := hdata.le
  rw [Nat.mod_eq_of_lt (a := y + _) (by omega), Nat.mod_eq_of_lt (a := y + _ + _) (by omega)]
  have hfold : Rep (y + swap proto + swap protoLen) _ := rep_fold_fold (by omega)
  have hle := hfold.le
  refine ⟨_, by rw [Nat.mod_eq_of_lt (by omega)], hfold.congr ?_ ?_⟩
  · have h1 : y % 0xFFFF = (n + value (bytes p)) % 0xFFFF := hdata.mod
    unfold Nat.ModEq at hmod ⊢
    omega
  · have h1 := hdata.zero
    omega

/-! ### The results -/

/-- However a segment is cut into pbufs and wherever they lie, the checksum that lwIP computes is,
as the two bytes it stores, the Internet checksum of the pseudo header and the bytes of the
segment. -/
theorem chksum_pseudo_plain {p : List Piece} (h : ∀ q ∈ p, q.data.length < 2 ^ 16) {proto : ℕ}
    (hproto : proto < 256) (protoLen : ℕ) (src dest : BitVec 32) :
    swap (inetChksumPseudo p proto protoLen src dest) = internetChecksum
      (pseudoHeader proto protoLen src dest ++ bytes p) := by
  obtain ⟨x, hx, hrep⟩ := pseudo_spec h hproto protoLen src dest
  have hle := hrep.le
  rw [hx, internetChecksum, ← hrep.swap_eq]
  unfold swap
  omega

theorem chksum_pseudo_plain_pieces :
    let p : List Piece := [⟨true, [1, 2, 3]⟩, ⟨false, []⟩, ⟨true, [4]⟩, ⟨false, [5, 6]⟩]
    swap (inetChksumPseudo p 6 6 0x0100000A 0x0200000A) = internetChecksum
      (pseudoHeader 6 6 0x0100000A 0x0200000A ++ bytes p) ∧
      bytes p = [1, 2, 3, 4, 5, 6] :=
  ⟨chksum_pseudo_plain (by decide) (by decide) 6 _ _, by decide⟩

lemma chksum_eq_zero_iff {p : List Piece} (h : ∀ q ∈ p, q.data.length < 2 ^ 16) {proto : ℕ}
    (hproto : proto < 256) (protoLen : ℕ) (src dest : BitVec 32) :
    inetChksumPseudo p proto protoLen src dest = 0 ↔
      value (pseudoHeader proto protoLen src dest ++ bytes p) ≠ 0 ∧
      0xFFFF ∣ value (pseudoHeader proto protoLen src dest ++ bytes p) := by
  obtain ⟨x, hx, hrep⟩ := pseudo_spec h hproto protoLen src dest
  have hle := hrep.le
  rw [hx]
  by_cases h0 : value (pseudoHeader proto protoLen src dest ++ bytes p) = 0
  · have := hrep.zero.2 h0
    simp [h0, this]
  · rw [← hrep.dvd_iff h0]
    constructor
    · intro _
      exact ⟨h0, by omega⟩
    · intro hmax
      omega

/-- The word that `x` is when it is stored. -/
def stored (x : ℕ) : Bytes := [UInt8.ofNat x, UInt8.ofNat (x / 256)]

lemma value_stored {x : ℕ} (h : x ≤ 0xFFFF) : value (stored x) = x := by
  simp only [stored, value_cons, value_nil, UInt8.toNat_ofNat']
  omega

lemma value_middle (as ws bs : Bytes) :
    value (as ++ ws ++ bs) = value as + 256 ^ as.length * value ws + 256 ^
      (as.length + ws.length) * value bs := by
  rw [value_append, value_append, List.length_append]

/-- A segment whose checksum was computed with the field empty passes the receiver's test, in
whatever pieces and wherever it arrives. -/
lemma chksum_verifies {p p' : List Piece} (h : ∀ q ∈ p, q.data.length < 2 ^ 16)
    (h' : ∀ q ∈ p', q.data.length < 2 ^ 16) {proto : ℕ} (hproto : proto < 256) (protoLen : ℕ)
    (src dest : BitVec 32) {pre post : Bytes} (heven : pre.length % 2 = 0)
    (hp : bytes p = pre ++ [0, 0] ++ post)
    (hp' : bytes p' = pre ++ stored (inetChksumPseudo p proto protoLen src dest) ++ post) :
    inetChksumPseudo p' proto protoLen src dest = 0 := by
  obtain ⟨x, hx, hrep⟩ := pseudo_spec h hproto protoLen src dest
  have hlen : (pseudoHeader proto protoLen src dest).length = 12 := rfl
  have hsum : value (pseudoHeader proto protoLen src dest ++ bytes p') =
      value (pseudoHeader proto protoLen src dest ++ bytes p) + 256 ^ (12 + pre.length) *
        (0xFFFF - x) := by
    rw [hp, hp', hx]
    simp only [← List.append_assoc]
    rw [value_middle, value_middle, value_stored (Nat.sub_le _ _), List.length_append, hlen]
    simp [stored]
    omega
  rw [chksum_eq_zero_iff h' hproto, hsum]
  exact hrep.complement (by omega)

lemma word_unique {m n k w w' : ℕ} (hw : w ≤ 0xFFFF) (hw' : w' ≤ 0xFFFF)
    (h : 0xFFFF ∣ m + 256 ^ k * w + n) (h' : 0xFFFF ∣ m + 256 ^ k * w' + n) :
    w = w' ∨ (w = 0 ∧ w' = 0xFFFF) ∨ (w = 0xFFFF ∧ w' = 0) := by
  have hsame : m + 256 ^ k * w + n ≡ m + 256 ^ k * w' + n [MOD 0xFFFF] :=
    (Nat.modEq_zero_iff_dvd.2 h).trans (Nat.modEq_zero_iff_dvd.2 h').symm
  have hshift : 256 ^ k * w ≡ 256 ^ k * w' [MOD 0xFFFF] :=
    (hsame.add_right_cancel' n).add_left_cancel' m
  have hmul := hshift.mul_left (256 ^ k)
  have heq : ∀ v, 256 ^ k * (256 ^ k * v) = 256 ^ (2 * k) * v := fun v => by ring
  have hone : ∀ v, 256 ^ (2 * k) * v ≡ v [MOD 0xFFFF] := fun v => by
    simpa using (pow_twice k).mul_right v
  rw [heq, heq] at hmul
  have hmod : w % 0xFFFF = w' % 0xFFFF := ((hone w).symm.trans hmul).trans (hone w')
  omega

lemma value_pair (a b : UInt8) :
    value [a, b] ≤ 0xFFFF ∧ (value [a, b] = 0 → [a, b] = [0, 0]) ∧
    (value [a, b] = 0xFFFF → [a, b] = [0xFF, 0xFF]) ∧
    ∀ a' b' : UInt8, value [a, b] = value [a', b'] → [a, b] = [a', b'] := by
  have ha := a.toNat_lt
  have hb := b.toNat_lt
  have hpair : ∀ c d : UInt8, a.toNat = c.toNat → b.toNat = d.toNat → [a, b] = [c, d] := by
    intro c d h1 h2
    rw [UInt8.toNat_inj.1 h1, UInt8.toNat_inj.1 h2]
  simp only [value_cons, value_nil, mul_zero, add_zero]
  refine ⟨by omega, fun h => hpair 0 0 ?_ ?_, fun h => hpair 0xFF 0xFF ?_ ?_,
    fun a' b' h => hpair a' b' ?_ ?_⟩
  · rw [UInt8.toNat_zero]
    omega
  · rw [UInt8.toNat_zero]
    omega
  · rw [show UInt8.toNat 0xFF = 255 from rfl]
    omega
  · rw [show UInt8.toNat 0xFF = 255 from rfl]
    omega
  · have := a'.toNat_lt
    omega
  · have := a'.toNat_lt
    omega

/-- Two segments that differ in no more than two neighbouring bytes do not both pass, unless the
two bytes are all zeros in one and all ones in the other. -/
theorem corruption_detected {p p' : List Piece} (h : ∀ q ∈ p, q.data.length < 2 ^ 16)
    (h' : ∀ q ∈ p', q.data.length < 2 ^ 16) {proto : ℕ} (hproto : proto < 256) (protoLen : ℕ)
    (src dest : BitVec 32) {pre post : Bytes} {a b a' b' : UInt8} (hne : [a, b] ≠ [a', b'])
    (hzeros : ¬([a, b] = [0, 0] ∧ [a', b'] = [0xFF, 0xFF]))
    (hones : ¬([a, b] = [0xFF, 0xFF] ∧ [a', b'] = [0, 0])) (hp : bytes p = pre ++ [a, b] ++ post)
    (hp' : bytes p' = pre ++ [a', b'] ++ post)
    (hpass : inetChksumPseudo p proto protoLen src dest = 0) :
    inetChksumPseudo p' proto protoLen src dest ≠ 0 := by
  intro hpass'
  have h1 := ((chksum_eq_zero_iff h hproto protoLen src dest).1 hpass).2
  have h2 := ((chksum_eq_zero_iff h' hproto protoLen src dest).1 hpass').2
  rw [hp, ← List.append_assoc, ← List.append_assoc, value_middle] at h1
  rw [hp', ← List.append_assoc, ← List.append_assoc, value_middle] at h2
  obtain ⟨hle, hz, ho, hinj⟩ := value_pair a b
  obtain ⟨hle', hz', ho', -⟩ := value_pair a' b'
  rcases word_unique hle hle' h1 h2 with heq | ⟨h0, h0'⟩ | ⟨h0, h0'⟩
  · exact hne (hinj a' b' heq)
  · exact hzeros ⟨hz h0, ho' h0'⟩
  · exact hones ⟨ho h0, hz' h0'⟩

/-- A segment with its checksum, and the data `data` in a pbuf of its own. -/
def sealedSegment (data : Bytes) : List Piece :=
  [⟨false, [7, 9] ++ stored (inetChksumPseudo [⟨false, [7, 9, 0, 0, 1, 2, 3]⟩] 6 7 1 2)⟩,
    ⟨true, data⟩]

theorem corruption_detected_exchanged :
    inetChksumPseudo (sealedSegment [1, 2, 3]) 6 7 1 2 = 0 ∧
    inetChksumPseudo (sealedSegment [1, 3, 2]) 6 7 1 2 ≠ 0 :=
  ⟨by decide, corruption_detected (p := sealedSegment [1, 2, 3]) (by decide) (by decide)
    (by decide) 7 1 2 (by decide) (by decide) (by decide)
    (show _ = ([7, 9] ++ stored (inetChksumPseudo [⟨false, [7, 9, 0, 0, 1, 2, 3]⟩] 6 7 1 2) ++ [1])
      ++ [2, 3] ++ [] from rfl) rfl (by decide)⟩

end TunForge.Checksum
