import Mathlib.Data.List.Iterate
import Mathlib.Tactic.NormNum.Prime
import LitexDtls.Client.Rng
import LitexDtls.Library.XorLinear

/-!
# The cycle of the client's random source

`prng_next` is linear over exclusive or, and its characteristic polynomial is primitive: every
state but zero comes back after `2 ^ 32 - 1` steps and not before. The bytes put out are the
top bytes of the states, and 32 of them determine the state.
-/
namespace LitexDtls.Client
open Library Library.XorLinear Function

/-- `prng_next` on bit vectors. -/
def nextBits (x : BitVec 32) : BitVec 32 := (prngNext ⟨x⟩).toBitVec

theorem toBitVec_iterate (k : Nat) (s : UInt32) :
    (prngNext^[k] s).toBitVec = nextBits^[k] s.toBitVec := by
  induction k generalizing s with
  | zero => rfl
  | succ k ih => exact ih (prngNext s)

theorem xorLinear_shiftLeft (n : Nat) : XorLinear fun x : BitVec 32 => x ^^^ x <<< n := by
  intro x y
  simp only [BitVec.shiftLeft_xor_distrib, xor_xor_xor_comm]

theorem xorLinear_shiftRight (n : Nat) : XorLinear fun x : BitVec 32 => x ^^^ x >>> n := by
  intro x y
  simp only [BitVec.ushiftRight_xor_distrib, xor_xor_xor_comm]

theorem xorLinear_nextBits : XorLinear nextBits :=
  (xorLinear_shiftLeft 5).comp ((xorLinear_shiftRight 17).comp (xorLinear_shiftLeft 13))

/-- The characteristic polynomial of `nextBits`, without its leading term. -/
def nextPoly : BitVec 32 := 0x3EC241

theorem relation_one : Relation nextBits nextPoly 1#32 := by decide +kernel

/-- Looking ahead from the state 1. -/
theorem iterate_one {k : Nat} (hk : k < 2 ^ 32) :
    nextBits^[k] 1#32 = eval nextBits (powX nextPoly 32 k) 1#32 :=
  (eval_powX xorLinear_nextBits relation_one hk).symm

theorem prime_dvd_cases {p : Nat} (hp : p.Prime) (hdvd : p ∣ 2 ^ 32 - 1) :
    p = 3 ∨ p = 5 ∨ p = 17 ∨ p = 257 ∨ p = 65537 := by
  have hfactors : 2 ^ 32 - 1 = 3 * 5 * 17 * 257 * 65537 := rfl
  rw [hfactors] at hdvd
  simp only [hp.dvd_mul] at hdvd
  have eq_of_dvd {q : Nat} (hq : q.Prime) (h : p ∣ q) : p = q :=
    (Nat.prime_dvd_prime_iff_eq hp hq).mp h
  rcases hdvd with (((h | h) | h) | h) | h
  · exact .inl (eq_of_dvd (by norm_num) h)
  · exact .inr (.inl (eq_of_dvd (by norm_num) h))
  · exact .inr (.inr (.inl (eq_of_dvd (by norm_num) h)))
  · exact .inr (.inr (.inr (.inl (eq_of_dvd (by norm_num) h))))
  · exact .inr (.inr (.inr (.inr (eq_of_dvd (by norm_num) h))))

theorem minimalPeriod_one : minimalPeriod nextBits 1#32 = 2 ^ 32 - 1 := by
  apply minimalPeriod_eq_of_prime
  · rw [iterate_one (by omega)]
    decide +kernel
  · intro p hp hdvd
    rcases prime_dvd_cases hp hdvd with rfl | rfl | rfl | rfl | rfl
    all_goals
      rw [iterate_one (by omega)]
      decide +kernel

theorem fullCycle_nextBits : FullCycle nextBits :=
  ⟨xorLinear_nextBits, 1#32, by decide, minimalPeriod_one⟩

/-! ## States -/

theorem toBitVec_ne_zero {s : UInt32} (h : s ≠ 0) : s.toBitVec ≠ 0#32 :=
  fun h0 => h (UInt32.toBitVec_inj.mp h0)

theorem iterate_prngNext_ne_zero {s : UInt32} (h : s ≠ 0) (k : Nat) : prngNext^[k] s ≠ 0 := by
  intro hzero
  have hbits := fullCycle_nextBits.iterate_ne_zero (toBitVec_ne_zero h) k
  rw [← toBitVec_iterate, hzero] at hbits
  exact hbits rfl

theorem minimalPeriod_prngNext {s : UInt32} (h : s ≠ 0) :
    minimalPeriod prngNext s = 2 ^ 32 - 1 := by
  rw [← fullCycle_nextBits.minimalPeriod_eq (toBitVec_ne_zero h)]
  apply minimalPeriod_eq_minimalPeriod_iff.mpr
  intro k
  rw [IsPeriodicPt, IsPeriodicPt, IsFixedPt, IsFixedPt, ← toBitVec_iterate, UInt32.toBitVec_inj]

theorem isLeast_period {s : UInt32} (h : s ≠ 0) :
    IsLeast {k : Nat | 0 < k ∧ prngNext^[k] s = s} (2 ^ 32 - 1) := by
  rw [← minimalPeriod_prngNext h]
  refine ⟨⟨?_, iterate_minimalPeriod⟩, fun k hk => IsPeriodicPt.minimalPeriod_le hk.1 hk.2⟩
  rw [minimalPeriod_prngNext h]
  omega

theorem prngSeed_ne_zero (cycles : UInt64) (state : UInt32) : prngSeed cycles state ≠ 0 := by
  unfold prngSeed
  dsimp only
  split_ifs with h
  · decide
  · exact h

namespace Rng

/-- The states visited since the last seeding are steps of `prng_next` from one that is not
zero. -/
def Running (g : Rng) : Prop :=
  ∃ s n, s ≠ 0 ∧ g.visited = List.iterate prngNext s (n + 1) ∧ g.prngState = prngNext^[n] s

theorem running_init : init.Running := ⟨prngUnseeded, 0, by decide, rfl, rfl⟩

theorem Running.step {g : Rng} (h : g.Running) (r : Request) : (g.step r).Running := by
  obtain ⟨s, n, hs, hvisited, hstate⟩ := h
  by_cases hunseeded : g.prngState = prngUnseeded
  · obtain ⟨hstate', _, _, hvisited'⟩ := step_of_unseeded hunseeded r
    exact ⟨prngSeed r.cycles prngUnseeded, r.sz, prngSeed_ne_zero _ _, hvisited', hstate'⟩
  · obtain ⟨hstate', _, _, hvisited'⟩ := step_of_undisturbed hunseeded (r := r)
    refine ⟨s, n + r.sz, hs, ?_, ?_⟩
    · rw [hvisited', hvisited, hstate, ← iterate_succ_apply' prngNext, ← List.iterate_add,
        Nat.add_right_comm]
    · rw [hstate', hstate, ← iterate_add_apply, Nat.add_comm]

theorem running (rs : List Request) : (run Rng.step init rs).Running :=
  run_invariant (I := Running) (fun _ r h => h.step r) running_init rs

theorem Running.ne_zero {g : Rng} (h : g.Running) : g.prngState ≠ 0 := by
  obtain ⟨s, n, hs, _, hstate⟩ := h
  rw [hstate]
  exact iterate_prngNext_ne_zero hs n

/-- A state comes back after the full period at the earliest. -/
theorem Running.recurs {g : Rng} (h : g.Running) {i j : Nat} {v : UInt32} (hij : i < j)
    (hi : g.visited[i]? = some v) (hj : g.visited[j]? = some v) : 2 ^ 32 - 1 ≤ j - i := by
  obtain ⟨s, n, hs, hvisited, _⟩ := h
  have hlen : j < n + 1 := by
    by_contra hge
    rw [hvisited, List.getElem?_eq_none (by simp; omega)] at hj
    cases hj
  rw [hvisited, List.getElem?_iterate _ _ _ _ (by omega)] at hi hj
  have hback : prngNext^[j - i] v = v := by
    rw [← Option.some.inj hi, ← iterate_add_apply, Nat.sub_add_cancel (by omega)]
    exact (Option.some.inj hj).trans (Option.some.inj hi).symm
  have hv : v ≠ 0 := Option.some.inj hi ▸ iterate_prngNext_ne_zero hs i
  exact (isLeast_period hv).2 ⟨by omega, hback⟩

/-- The generator never reaches zero, and no state recurs before the full period. -/
theorem never_dies :
    (∀ rs : List Request, (run Rng.step init rs).prngState ≠ 0) ∧
      (∀ s : UInt32, s ≠ 0 → IsLeast {k : Nat | 0 < k ∧ prngNext^[k] s = s} (2 ^ 32 - 1)) ∧
      (∀ (rs : List Request) (i j : Nat) (v : UInt32), i < j →
        (run Rng.step init rs).visited[i]? = some v →
        (run Rng.step init rs).visited[j]? = some v → 2 ^ 32 - 1 ≤ j - i) :=
  ⟨fun rs => (running rs).ne_zero, fun _ hs => isLeast_period hs,
    fun rs _ _ _ hij hi hj => (running rs).recurs hij hi hj⟩

end Rng

/-! ## Bytes -/

/-- What a state shows: its top byte. -/
def topByte (x : BitVec 32) : BitVec 8 := (x >>> 24).setWidth 8

theorem toBitVec_prngByte (v : UInt32) : (prngByte v).toBitVec = topByte v.toBitVec := by
  simp [prngByte, topByte]

theorem xorLinear_topByte : XorLinear topByte := by
  intro x y
  simp [topByte, BitVec.ushiftRight_xor_distrib]

/-- Two states that put out the same 32 bytes are the same. -/
theorem eq_of_generate_eq {s t : UInt32} {n : Nat} (hn : 32 ≤ n)
    (h : (generate n s).2 = (generate n t).2) : s = t := by
  have hbytes : ∀ j < 32, topByte (nextBits^[j] (nextBits s.toBitVec)) =
      topByte (nextBits^[j] (nextBits t.toBitVec)) := by
    intro j hj
    have hbyte := congrArg (fun l => l[j]?) h
    simp only [getElem?_generate (show j < n by omega), Option.some.injEq] at hbyte
    rw [← iterate_succ_apply, ← iterate_succ_apply, ← toBitVec_iterate, ← toBitVec_iterate,
      ← toBitVec_prngByte, ← toBitVec_prngByte, hbyte]
  have hnext : nextBits s.toBitVec = nextBits t.toBitVec :=
    fullCycle_nextBits.eq_of_observe (by decide) relation_one xorLinear_topByte
      (show topByte 0x80000000#32 ≠ 0#8 by decide) hbytes
  exact UInt32.toBitVec_inj.mp (fullCycle_nextBits.injective hnext)

/-- Requests of 32 bytes and more tell apart all states that are not seeded first. -/
theorem output_ne_of_ne {s t : UInt32} (hs : s ≠ prngUnseeded) (ht : t ≠ prngUnseeded)
    (hne : s ≠ t) {n : Nat} (hn : 32 ≤ n) (c d : UInt64) :
    (customRngGenerateBlock ⟨c, n⟩ s).2.2 ≠ (customRngGenerateBlock ⟨d, n⟩ t).2.2 := by
  intro heq
  simp only [customRngGenerateBlock, seeded, if_neg hs, if_neg ht] at heq
  exact hne (eq_of_generate_eq hn heq)

theorem output_ne_one_two : (customRngGenerateBlock ⟨0, 32⟩ 1).2.2 ≠
    (customRngGenerateBlock ⟨0, 32⟩ 2).2.2 :=
  output_ne_of_ne (by decide) (by decide) (by decide) (le_refl 32) 0 0

end LitexDtls.Client
