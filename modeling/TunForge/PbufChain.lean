import Mathlib

/-! The chained packet buffers of `pbuf.c`, as far as the TCP receive path uses
them. A chain is the list of its cells; the chain is named by its head cell. -/
namespace TunForge.PbufChain

abbrev Bytes := List UInt8

/-- One `struct pbuf`: the cell's identity (its address) and the bytes of its payload. -/
structure Cell where
  id : ℕ
  payload : Bytes
  deriving DecidableEq, Repr

structure Pbuf where
  cells : List Cell
  deriving DecidableEq, Repr

namespace Pbuf

def payloads (p : Pbuf) : List Bytes := p.cells.map Cell.payload

def bytes (p : Pbuf) : Bytes := p.payloads.flatten

/-- The number of payload bytes, which `tot_len` holds modulo its width. -/
def size (p : Pbuf) : ℕ := (p.payloads.map List.length).sum

/-- The `u16_t` field `tot_len` of the head cell. -/
def totLen (p : Pbuf) : ℕ := p.size % 2 ^ 16

/-- `pbuf_clen`, also the slice count of the readable handlers. -/
def clen (p : Pbuf) : ℕ := p.cells.length

/-- `pbuf_cat`. -/
def cat (p q : Pbuf) : Pbuf := ⟨p.cells ++ q.cells⟩

def keepCells : ℕ → List Cell → List Cell
  | _, [] => []
  | n, c :: cs =>
    if c.payload.length < n then c :: keepCells (n - c.payload.length) cs
    else [{ c with payload := c.payload.take n }]

/-- `pbuf_realloc`: cut the chain to `n` bytes; a chain that is not longer stays as it is. -/
def realloc (p : Pbuf) (n : ℕ) : Pbuf := if p.totLen ≤ n then p else ⟨keepCells n p.cells⟩

def hideCells : ℕ → List Cell → List Cell
  | _, [] => []
  | n, c :: cs =>
    if c.payload.length < n then { c with payload := [] } :: hideCells (n - c.payload.length) cs
    else { c with payload := c.payload.drop n } :: cs

/-- The first-edge trim of `tcp_receive`: the first `n` bytes are hidden, and the
cells they emptied stay in the chain. -/
def trimFront (p : Pbuf) (n : ℕ) : Pbuf := ⟨hideCells n p.cells⟩

def splitCells : ℕ → List Cell → List Cell × List Cell
  | _, [] => ([], [])
  | n, c :: cs =>
    if n + c.payload.length < 2 ^ 16 then
      let (front, rest) := splitCells (n + c.payload.length) cs
      (c :: front, rest)
    else ([], c :: cs)

/-- `pbuf_split_64k`: the longest front whose length does not overflow `tot_len`, and the rest. -/
def split64k (p : Pbuf) : Pbuf × Option Pbuf :=
  match p.cells with
  | [] => (p, none)
  | c :: cs =>
    let (front, rest) := splitCells c.payload.length cs
    (⟨c :: front⟩, if rest = [] then none else some ⟨rest⟩)

def copyCells : ℕ → ℕ → List Bytes → Bytes
  | _, _, [] => []
  | len, offset, c :: cs =>
    if offset ≠ 0 ∧ c.length ≤ offset then copyCells len (offset - c.length) cs
    else
      let chunk := (c.drop offset).take len
      chunk ++ if chunk.length = len then [] else copyCells (len - chunk.length) 0 cs

/-- `pbuf_copy_partial`: `len` bytes of the chain from `offset` on, or as many as there are. -/
def copyPartial (p : Pbuf) (len offset : ℕ) : Bytes := copyCells len offset p.payloads

lemma length_bytes (p : Pbuf) : p.bytes.length = p.size := by
  simp [bytes, size, List.length_flatten]

lemma totLen_le (p : Pbuf) : p.totLen ≤ p.size := Nat.mod_le _ _

lemma totLen_eq {p : Pbuf} (h : p.size < 2 ^ 16) : p.totLen = p.size := Nat.mod_eq_of_lt h

@[simp] lemma bytes_cat (p q : Pbuf) : (p.cat q).bytes = p.bytes ++ q.bytes := by
  simp [bytes, payloads, cat]

@[simp] lemma size_cat (p q : Pbuf) : (p.cat q).size = p.size + q.size := by
  simp [size, payloads, cat]

lemma bytes_keepCells (n : ℕ) (cs : List Cell) : bytes ⟨keepCells n cs⟩ = (bytes ⟨cs⟩).take n := by
  induction cs generalizing n with
  | nil => simp [keepCells, bytes, payloads]
  | cons c cs ih =>
    simp only [bytes, payloads] at ih
    unfold keepCells
    split_ifs with h
    · simp [bytes, payloads, ih, List.take_append, List.take_of_length_le (Nat.le_of_lt h)]
    · simp [bytes, payloads, List.take_append_of_le_length (Nat.le_of_not_lt h)]

lemma bytes_hideCells (n : ℕ) (cs : List Cell) : bytes ⟨hideCells n cs⟩ = (bytes ⟨cs⟩).drop n := by
  induction cs generalizing n with
  | nil => simp [hideCells, bytes, payloads]
  | cons c cs ih =>
    simp only [bytes, payloads] at ih
    unfold hideCells
    split_ifs with h
    · simp [bytes, payloads, ih, List.drop_append, List.drop_of_length_le (Nat.le_of_lt h)]
    · simp [bytes, payloads, List.drop_append_of_le_length (Nat.le_of_not_lt h)]

@[simp] lemma bytes_trimFront (p : Pbuf) (n : ℕ) : (p.trimFront n).bytes = p.bytes.drop n :=
  bytes_hideCells n p.cells

@[simp] lemma size_trimFront (p : Pbuf) (n : ℕ) : (p.trimFront n).size = p.size - n := by
  simp [← length_bytes]

lemma bytes_realloc {p : Pbuf} {n : ℕ} (hp : p.size < 2 ^ 16) :
    (p.realloc n).bytes = p.bytes.take n := by
  unfold realloc
  rw [totLen_eq hp]
  split_ifs with h
  · rw [List.take_of_length_le (by rw [length_bytes]; exact h)]
  · exact bytes_keepCells n p.cells

lemma size_realloc {p : Pbuf} {n : ℕ} (hp : p.size < 2 ^ 16) :
    (p.realloc n).size = min n p.size := by
  rw [← length_bytes, bytes_realloc hp, List.length_take, length_bytes]

lemma splitCells_of_small (cs : List Cell) (n : ℕ) (h : n + size ⟨cs⟩ < 2 ^ 16) :
    splitCells n cs = (cs, []) := by
  induction cs generalizing n with
  | nil => rfl
  | cons c cs ih =>
    simp only [size, payloads, List.map_cons, List.sum_cons] at h ih
    simp [splitCells, ih (n + c.payload.length) (by omega),
      show n + c.payload.length < 65536 by omega]

lemma split64k_of_small {p : Pbuf} (h : p.size < 2 ^ 16) : p.split64k = (p, none) := by
  obtain ⟨cells⟩ := p
  cases cells with
  | nil => rfl
  | cons c cs =>
    have hcs : splitCells c.payload.length cs = (cs, []) := splitCells_of_small cs _ h
    simp [split64k, hcs]

lemma append_splitCells (n : ℕ) (cs : List Cell) :
    (splitCells n cs).1 ++ (splitCells n cs).2 = cs := by
  induction cs generalizing n with
  | nil => rfl
  | cons c cs ih =>
    unfold splitCells
    split_ifs
    · simp [ih]
    · rfl

lemma split64k_cases (p : Pbuf) : p.split64k = (p, none) ∨
    ∃ front rest, p.split64k = (front, some rest) ∧ front.cat rest = p ∧ rest.cells ≠ [] ∧
    rest.clen < p.clen := by
  -- nothing is lost when a chain is split, and each part is shorter than the whole
  obtain ⟨cells⟩ := p
  cases cells with
  | nil => exact .inl rfl
  | cons c cs =>
    have happ := append_splitCells c.payload.length cs
    unfold split64k
    dsimp only
    split_ifs with hrest
    · refine .inl ?_
      rw [hrest, List.append_nil] at happ
      rw [happ]
    · refine .inr ⟨_, _, rfl, ?_, hrest, ?_⟩
      · simp [cat, happ]
      · have hlen := congrArg List.length happ
        simp only [List.length_append] at hlen
        simp only [clen, List.length_cons]
        omega

lemma cells_ne_nil_of_size {p : Pbuf} (h : 0 < p.size) : p.cells ≠ [] := by
  intro hnil
  simp [size, payloads, hnil] at h

lemma copyCells_eq (cs : List Bytes) (len offset : ℕ) :
    copyCells len offset cs = (cs.flatten.drop offset).take len := by
  induction cs generalizing len offset with
  | nil => simp [copyCells]
  | cons c cs ih =>
    unfold copyCells
    split_ifs with h
    · rw [ih, List.flatten_cons, List.drop_append, List.drop_of_length_le h.2, List.nil_append]
    · have hle : offset ≤ c.length := by
        by_contra hc
        exact h ⟨by omega, by omega⟩
      simp only [List.flatten_cons, List.drop_append_of_le_length hle, ih, List.drop_zero]
      rw [List.take_append]
      congr 1
      split_ifs with hlen
      · rw [List.length_take] at hlen
        rw [show len - (c.drop offset).length = 0 by omega, List.take_zero]
      · rw [List.length_take] at hlen ⊢
        rw [show len - min len (c.drop offset).length = len - (c.drop offset).length by omega]

lemma copyPartial_eq (p : Pbuf) (len offset : ℕ) :
    p.copyPartial len offset = (p.bytes.drop offset).take len := copyCells_eq p.payloads len offset

end Pbuf

end TunForge.PbufChain
