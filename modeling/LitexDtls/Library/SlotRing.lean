import Mathlib.Data.List.Range
import Mathlib.Data.Nat.ModEq

/-!
# Slots in flight in a ring

Jobs numbered 0, 1, 2, … use the slots of a ring of `n` in turn: job `k` uses slot `k % n`.
`window n k len` are the slots of the `len` jobs before job `k`. The slot of job `k` is free
as long as fewer than `n` jobs are in flight, and taken when `n` are.
-/
namespace LitexDtls.Library

/-- The slots of the jobs `k - len`, …, `k - 1`. -/
def window (n k len : Nat) : List Nat := (List.range' (k - len) len).map (· % n)

namespace window

/-- Job `k` starts. -/
theorem push (n : Nat) {k len : Nat} (h : len ≤ k) :
    window n (k + 1) (len + 1) = window n k len ++ [k % n] := by
  have hstart : k + 1 - (len + 1) = k - len := by omega
  have hlast : k - len + len = k := by omega
  simp [window, hstart, List.range'_concat, hlast]

/-- The oldest job ends. -/
theorem pop (n : Nat) {k len : Nat} (h : len + 1 ≤ k) :
    window n k (len + 1) = (k - (len + 1)) % n :: window n k len := by
  have hstart : k - (len + 1) + 1 = k - len := by omega
  simp [window, List.range'_succ, hstart]

/-- The slot of the next job is in flight exactly when all slots are. -/
theorem mem_iff {n k len : Nat} (hn : 0 < n) (hlen : len ≤ n) (hk : len ≤ k) :
    k % n ∈ window n k len ↔ len = n := by
  simp only [window, List.mem_map, List.mem_range'_1]
  constructor
  · rintro ⟨j, ⟨hlow, hhigh⟩, hmod⟩
    have hdvd : n ∣ k - j := (Nat.modEq_iff_dvd' (by omega)).mp hmod
    have hle : n ≤ k - j := Nat.le_of_dvd (by omega) hdvd
    omega
  · rintro rfl
    refine ⟨k - len, ⟨le_refl _, by omega⟩, ?_⟩
    exact (Nat.mod_eq_sub_mod hk).symm

end window

end LitexDtls.Library
