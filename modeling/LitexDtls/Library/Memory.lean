import Mathlib.Data.List.Basic
import Mathlib.Data.List.Range

/-!
# Flat memory, block reads and writes, and network byte order

Memory is a total function from addresses to cells, so that a read outside a buffer is
visible as a read of the neighbouring cells. `read` and `write` move whole blocks; every
fact about overlapping blocks follows from the two cell equations of `write`. A `Mem`
of bytes also has 16 and 32 bit words in network byte order.
-/
namespace LitexDtls.Library

abbrev Mem (β : Type*) := Nat → β

namespace Mem

variable {β : Type*}

/-- The block of `n` cells from address `a` on. -/
def read (m : Mem β) (a n : Nat) : List β := (List.range n).map fun i => m (a + i)

/-- Overwrite the block at address `a` with the list `l`. -/
def write (m : Mem β) (a : Nat) (l : List β) : Mem β :=
  fun x => if a ≤ x then l.getD (x - a) (m x) else m x

@[simp] theorem length_read (m : Mem β) (a n : Nat) : (m.read a n).length = n := by simp [read]

@[simp] theorem getElem_read (m : Mem β) (a n i : Nat) (h : i < (m.read a n).length) :
    (m.read a n)[i] = m (a + i) := by simp [read]

theorem getElem?_read (m : Mem β) (a : Nat) {n i : Nat} (h : i < n) :
    (m.read a n)[i]? = some (m (a + i)) := by simp [read, h]

theorem take_read (m : Mem β) (a n k : Nat) : (m.read a n).take k = m.read a (min k n) := by
  simp [read, ← List.map_take, List.take_range]

theorem read_append (m : Mem β) (a n k : Nat) :
    m.read a (n + k) = m.read a n ++ m.read (a + n) k := by
  simp [read, List.range_add, Nat.add_assoc]

theorem drop_read (m : Mem β) (a : Nat) {n k : Nat} (h : k ≤ n) :
    (m.read a n).drop k = m.read (a + k) (n - k) := by
  obtain ⟨j, rfl⟩ := Nat.exists_eq_add_of_le h
  rw [read_append, List.drop_left' (length_read m a k), Nat.add_sub_cancel_left]

/-- A read sees only the cells of its own block. -/
theorem read_congr {m m' : Mem β} {a n : Nat} (h : ∀ i < n, m (a + i) = m' (a + i)) :
    m.read a n = m'.read a n := by
  apply List.map_congr_left
  intro i hi
  exact h i (List.mem_range.mp hi)

theorem write_inside (m : Mem β) (a : Nat) (l : List β) {i : Nat} (h : i < l.length) :
    m.write a l (a + i) = l[i] := by simp [write, h]

theorem write_outside (m : Mem β) (a : Nat) (l : List β) {x : Nat}
    (h : x < a ∨ a + l.length ≤ x) : m.write a l x = m x := by
  rcases h with h | h
  · simp [write, Nat.not_le.mpr h]
  · have hge : l.length ≤ x - a := by omega
    simp [write, List.getElem?_eq_none hge]

@[simp] theorem read_write (m : Mem β) (a : Nat) (l : List β) :
    (m.write a l).read a l.length = l := by
  apply List.ext_getElem (by simp)
  intro i _ hi
  rw [getElem_read, write_inside m a l hi]

theorem read_write_of_length (m : Mem β) (a : Nat) (l : List β) {n : Nat} (h : n = l.length) :
    (m.write a l).read a n = l := by rw [h, read_write]

theorem read_write_disjoint (m : Mem β) (l : List β) {a b n : Nat}
    (h : b + n ≤ a ∨ a + l.length ≤ b) : (m.write a l).read b n = m.read b n := by
  apply read_congr
  intro i hi
  exact write_outside m a l (by omega)

/-- A copy from another memory, cell by cell. -/
theorem write_read_apply (m src : Mem β) (a b n x : Nat) :
    m.write a (src.read b n) x = if a ≤ x ∧ x < a + n then src (b + (x - a)) else m x := by
  by_cases hx : a ≤ x ∧ x < a + n
  · have hin : x - a < (src.read b n).length := by rw [length_read]; omega
    have h := write_inside m a (src.read b n) hin
    rw [getElem_read, Nat.add_sub_cancel' hx.1] at h
    rw [h, if_pos hx]
  · rw [if_neg hx]
    exact write_outside m a _ (by rw [length_read]; omega)

/-- Reading back a part of the block just written. -/
theorem read_write_sub (m : Mem β) (a : Nat) (l : List β) {k n : Nat} (h : k + n ≤ l.length) :
    (m.write a l).read (a + k) n = (l.drop k).take n := by
  apply List.ext_getElem (by simp; omega)
  intro i hi _
  have hi' : k + i < l.length := by rw [length_read] at hi; omega
  rw [getElem_read, Nat.add_assoc, write_inside m a l hi']
  simp

end Mem

/-! ## Words in network byte order -/

def be16 (v : UInt16) : List UInt8 := [UInt8.ofNat (v.toNat / 256), UInt8.ofNat v.toNat]

def be32 (v : UInt32) : List UInt8 :=
  [UInt8.ofNat (v.toNat / 16777216), UInt8.ofNat (v.toNat / 65536),
    UInt8.ofNat (v.toNat / 256), UInt8.ofNat v.toNat]

@[simp] theorem length_be16 (v : UInt16) : (be16 v).length = 2 := rfl
@[simp] theorem length_be32 (v : UInt32) : (be32 v).length = 4 := rfl

/-- The 16 bit word of a two byte block. -/
def word16 (l : List UInt8) : UInt16 :=
  UInt16.ofNat (256 * (l.getD 0 0).toNat + (l.getD 1 0).toNat)

def word32 (l : List UInt8) : UInt32 :=
  UInt32.ofNat (16777216 * (l.getD 0 0).toNat + 65536 * (l.getD 1 0).toNat +
    256 * (l.getD 2 0).toNat + (l.getD 3 0).toNat)

@[simp] theorem word16_be16 (v : UInt16) : word16 (be16 v) = v := by
  apply UInt16.toNat_inj.mp
  have hv := v.toNat_lt
  simp [word16, be16]
  omega

/-- A 24 bit word in network byte order. -/
def be24 (v : Nat) : List UInt8 :=
  [UInt8.ofNat (v / 65536), UInt8.ofNat (v / 256), UInt8.ofNat v]

def word24 (l : List UInt8) : Nat :=
  65536 * (l.getD 0 0).toNat + 256 * (l.getD 1 0).toNat + (l.getD 2 0).toNat

@[simp] theorem length_be24 (v : Nat) : (be24 v).length = 3 := rfl

theorem word24_be24 {v : Nat} (h : v < 16777216) : word24 (be24 v) = v := by
  simp [word24, be24]
  omega

/-- A 64 bit word in network byte order. -/
def be64 (v : UInt64) : List UInt8 :=
  be32 (UInt32.ofNat (v.toNat / 4294967296)) ++ be32 (UInt32.ofNat v.toNat)

def word64 (l : List UInt8) : UInt64 :=
  UInt64.ofNat (4294967296 * (word32 l).toNat + (word32 (l.drop 4)).toNat)

@[simp] theorem length_be64 (v : UInt64) : (be64 v).length = 8 := rfl

theorem word32_be32 (v : UInt32) (rest : List UInt8) : word32 (be32 v ++ rest) = v := by
  apply UInt32.toNat_inj.mp
  have hv := v.toNat_lt
  simp [word32, be32]
  omega

theorem word64_be64 (v : UInt64) (rest : List UInt8) : word64 (be64 v ++ rest) = v := by
  have hv := v.toNat_lt
  have hdrop : (be64 v ++ rest).drop 4 = be32 (UInt32.ofNat v.toNat) ++ rest := rfl
  rw [word64, hdrop, be64, List.append_assoc, word32_be32, word32_be32]
  apply UInt64.toNat_inj.mp
  simp
  omega

namespace Mem

def get16 (m : Mem UInt8) (a : Nat) : UInt16 := word16 (m.read a 2)

def get32 (m : Mem UInt8) (a : Nat) : UInt32 := word32 (m.read a 4)

end Mem

end LitexDtls.Library
