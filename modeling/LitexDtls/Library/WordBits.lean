import Mathlib.Algebra.Group.Nat.Defs
import Mathlib.Data.List.Basic

/-!
# Bits of a list of words

A list of 32 bit words, the lowest first, read as one long word: `bitAt l k` is its bit `k`.
The facts are about one word, so that those about a loop over words are left with arithmetic on
the positions.
-/
namespace LitexDtls.Library

/-- Bit `k` of a word. -/
def wordBit (w : UInt32) (k : Nat) : Bool := w.toNat.testBit k

def bitAt (l : List UInt32) (k : Nat) : Bool := wordBit (l.getD (k / 32) 0) (k % 32)

@[simp] theorem wordBit_zero (k : Nat) : wordBit 0 k = false := by simp [wordBit]

theorem wordBit_of_le (w : UInt32) {k : Nat} (h : 32 ≤ k) : wordBit w k = false :=
  Nat.testBit_lt_two_pow (Nat.lt_of_lt_of_le w.toNat_lt (Nat.pow_le_pow_right (by decide) h))

@[simp] theorem wordBit_or (v w : UInt32) (k : Nat) :
    wordBit (v ||| w) k = (wordBit v k || wordBit w k) := by
  simp [wordBit, UInt32.toNat_or, Nat.testBit_or]

theorem wordBit_shiftLeft (w : UInt32) {d k : Nat} (hd : d < 32) (hk : k < 32) :
    wordBit (w <<< UInt32.ofNat d) k = (decide (d ≤ k) && wordBit w (k - d)) := by
  have hmod : (UInt32.ofNat d).toNat % 32 = d := by simp; omega
  rw [wordBit, UInt32.toNat_shiftLeft, hmod, Nat.testBit_mod_two_pow, Nat.testBit_shiftLeft]
  simp [wordBit, hk]

theorem wordBit_shiftRight (w : UInt32) {d k : Nat} (hd : d < 32) :
    wordBit (w >>> UInt32.ofNat d) k = wordBit w (d + k) := by
  have hmod : (UInt32.ofNat d).toNat % 32 = d := by simp; omega
  rw [wordBit, UInt32.toNat_shiftRight, hmod, Nat.testBit_shiftRight, wordBit]

theorem wordBit_one_shiftLeft {d k : Nat} (hd : d < 32) (hk : k < 32) :
    wordBit (1 <<< UInt32.ofNat d) k = decide (k = d) := by
  have hone (j : Nat) : wordBit 1 j = decide (j = 0) := by
    have := @Nat.testBit_two_pow 0 j
    simpa [wordBit, eq_comm] using this
  rw [wordBit_shiftLeft 1 hd hk, hone]
  grind

theorem testBit_not32 (w : UInt32) (k : Nat) :
    (~~~w).toNat.testBit k = (decide (k < 32) && !w.toNat.testBit k) := by
  have hsize : UInt32.size - 1 - w.toNat = 2 ^ 32 - (w.toNat + 1) := by
    have : UInt32.size = 2 ^ 32 := rfl
    omega
  rw [UInt32.toNat_not, hsize, Nat.testBit_two_pow_sub_succ w.toNat_lt]

theorem testBit_not64 (w : UInt64) (k : Nat) :
    (~~~w).toNat.testBit k = (decide (k < 64) && !w.toNat.testBit k) := by
  have hsize : UInt64.size - 1 - w.toNat = 2 ^ 64 - (w.toNat + 1) := by
    have : UInt64.size = 2 ^ 64 := rfl
    omega
  rw [UInt64.toNat_not, hsize, Nat.testBit_two_pow_sub_succ w.toNat_lt]

/-- Put `low` in the place of the low `b` bits of `x`, by way of the low half of `x`. -/
theorem toNat_setLow (x : UInt64) {mask low : UInt32} {b : Nat} (hb : b ≤ 32)
    (hmask : mask.toNat = 2 ^ b - 1) (hlow : low.toNat < 2 ^ b) :
    ((x &&& ~~~0xffffffff) ||| ((x.toUInt32 &&& ~~~mask) ||| low).toUInt64).toNat =
      x.toNat / 2 ^ b * 2 ^ b + low.toNat := by
  have hhalf : (0xffffffff : UInt64).toNat = 2 ^ 32 - 1 := rfl
  apply Nat.eq_of_testBit_eq
  intro i
  rw [Nat.mul_comm, Nat.testBit_two_pow_mul_add _ hlow, Nat.testBit_div_two_pow]
  simp only [UInt64.toNat_or, UInt64.toNat_and, UInt32.toNat_toUInt64, UInt32.toNat_or,
    UInt32.toNat_and, UInt64.toNat_toUInt32, Nat.testBit_or, Nat.testBit_and, testBit_not32,
    testBit_not64, hmask, hhalf, Nat.testBit_two_pow_sub_one, Nat.testBit_mod_two_pow]
  have hlow' : b ≤ i → low.toNat.testBit i = false := fun h =>
    Nat.testBit_lt_two_pow (Nat.lt_of_lt_of_le hlow (Nat.pow_le_pow_right (by decide) h))
  have htop : 64 ≤ i → x.toNat.testBit i = false := fun h =>
    Nat.testBit_lt_two_pow (Nat.lt_of_lt_of_le x.toNat_lt (Nat.pow_le_pow_right (by decide) h))
  grind

/-- A mask with one bit tests that bit. -/
theorem and_one_shiftLeft_ne_zero (w : UInt32) {d : Nat} (hd : d < 32) :
    w &&& 1 <<< UInt32.ofNat d ≠ 0 ↔ wordBit w d = true := by
  have hbit (k : Nat) : wordBit (w &&& 1 <<< UInt32.ofNat d) k =
      (wordBit w k && wordBit (1 <<< UInt32.ofNat d) k) := by
    simp [wordBit, UInt32.toNat_and, Nat.testBit_and]
  constructor
  · intro hne
    by_contra hd'
    apply hne
    apply UInt32.toNat_inj.mp
    apply Nat.eq_of_testBit_eq
    intro k
    by_cases hk : k < 32
    · have := hbit k
      rw [wordBit_one_shiftLeft hd hk] at this
      rw [show (w &&& 1 <<< UInt32.ofNat d).toNat.testBit k = _ from this]
      by_cases hkd : k = d
      · subst hkd
        simpa using hd'
      · simp [hkd]
    · rw [show (w &&& 1 <<< UInt32.ofNat d).toNat.testBit k = _ from wordBit_of_le _ (by omega)]
      simp
  · intro hd' hzero
    have := hbit d
    rw [hzero, wordBit_one_shiftLeft hd hd, hd'] at this
    simp at this

/-- A bit of a list of words, read with a mask. -/
theorem bitAt_eq_mask (l : List UInt32) (k : Nat) :
    bitAt l k = (l.getD (k / 32) 0 &&& 1 <<< UInt32.ofNat (k % 32) != 0) := by
  have hmask := and_one_shiftLeft_ne_zero (l.getD (k / 32) 0) (Nat.mod_lt k (by decide : 0 < 32))
  rw [Bool.eq_iff_iff, bitAt, ← hmask, bne_iff_ne]

theorem bitAt_mul_add (l : List UInt32) (j : Nat) {b : Nat} (hb : b < 32) :
    bitAt l (32 * j + b) = wordBit (l.getD j 0) b := by
  rw [bitAt, Nat.mul_add_div (by decide), Nat.mul_add_mod, Nat.div_eq_of_lt hb,
    Nat.mod_eq_of_lt hb, Nat.add_zero]

theorem bitAt_cons (w : UInt32) (l : List UInt32) (k : Nat) :
    bitAt (w :: l) k = if k < 32 then wordBit w k else bitAt l (k - 32) := by
  unfold bitAt
  split_ifs with hk
  · rw [Nat.div_eq_of_lt hk, Nat.mod_eq_of_lt hk, List.getD_cons_zero]
  · obtain ⟨j, rfl⟩ := Nat.exists_eq_add_of_le (Nat.le_of_not_lt hk)
    rw [Nat.add_comm 32 j, Nat.add_div_right _ (by decide), Nat.add_mod_right,
      Nat.add_sub_cancel, List.getD_cons_succ]

@[simp] theorem bitAt_nil (k : Nat) : bitAt [] k = false := by simp [bitAt]

/-- A word with one more bit. -/
theorem bitAt_modify_or (l : List UInt32) {d : Nat} (hd : d < 32 * l.length) (k : Nat) :
    bitAt (l.modify (d / 32) (· ||| 1 <<< UInt32.ofNat (d % 32))) k =
      (decide (k = d) || bitAt l k) := by
  induction l generalizing d k with
  | nil => simp at hd
  | cons w l ih =>
    by_cases hlow : d < 32
    · rw [Nat.div_eq_of_lt hlow, Nat.mod_eq_of_lt hlow, List.modify_zero_cons, bitAt_cons,
        bitAt_cons]
      split_ifs with hk
      · rw [wordBit_or, wordBit_one_shiftLeft hlow hk, Bool.or_comm]
      · have hne : k ≠ d := by omega
        simp [hne]
    · obtain ⟨j, rfl⟩ := Nat.exists_eq_add_of_le (Nat.le_of_not_lt hlow)
      rw [Nat.add_comm 32 j, Nat.add_div_right _ (by decide), Nat.add_mod_right,
        List.modify_succ_cons, bitAt_cons, bitAt_cons]
      split_ifs with hk
      · have hne : k ≠ j + 32 := by omega
        simp [hne]
      · rw [ih (by rw [List.length_cons] at hd; omega)]
        grind

/-- A word list with its lowest bit set. -/
theorem bitAt_modify_zero_or_one (l : List UInt32) (hl : 0 < l.length) (k : Nat) :
    bitAt (l.modify 0 (· ||| 1)) k = (decide (k = 0) || bitAt l k) := by
  have h := bitAt_modify_or l (d := 0) (by omega) k
  have hone : (1 : UInt32) <<< UInt32.ofNat 0 = 1 := by decide
  simpa only [Nat.zero_div, Nat.zero_mod, hone] using h

theorem bitAt_replicate_zero (n k : Nat) : bitAt (List.replicate n 0) k = false := by
  induction n generalizing k with
  | zero => simp
  | succ n ih => rw [List.replicate_succ, bitAt_cons, ih]; simp

end LitexDtls.Library
