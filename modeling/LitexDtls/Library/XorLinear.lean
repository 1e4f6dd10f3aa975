import Mathlib.Dynamics.PeriodicPts.Lemmas
import Mathlib.Data.Nat.Prime.Basic
import Mathlib.Order.Interval.Finset.Nat

/-!
# Generators that are linear over exclusive or

A map on words is `XorLinear` when it respects exclusive or. Iterating it is arithmetic with
binary polynomials: `eval f r x` applies the polynomial with the coefficients `r` in `f` to
`x`, and when `f` satisfies a relation of degree `w` at `x`, polynomials may be reduced modulo
it. `powX` computes a high power of the variable in this way by repeated squaring, so that a
state many steps ahead is within reach of evaluation.

A generator whose orbit of one state has `2 ^ w - 1` elements goes through all states but
zero, and an observation that is not constantly zero tells its states apart within `w` steps.
-/
namespace LitexDtls.Library
open Function

variable {w v : Nat}

def XorLinear (f : BitVec w → BitVec v) : Prop := ∀ x y, f (x ^^^ y) = f x ^^^ f y

namespace XorLinear

theorem zero {f : BitVec w → BitVec v} (hf : XorLinear f) : f 0#w = 0#v := by
  have h := hf 0#w 0#w
  rwa [BitVec.xor_self, BitVec.xor_self] at h

theorem comp {u : Nat} {g : BitVec v → BitVec u} {f : BitVec w → BitVec v}
    (hg : XorLinear g) (hf : XorLinear f) : XorLinear (g ∘ f) := by
  intro x y
  rw [comp_apply, hf]
  exact hg _ _

theorem iterate {f : BitVec w → BitVec w} (hf : XorLinear f) (k : Nat) :
    XorLinear f^[k] := by
  induction k with
  | zero => exact fun _ _ => rfl
  | succ k ih => exact ih.comp hf

/-! ## Polynomials in a map -/

/-- The sum of `f^[j] x` over those of the `n` coefficients of `r` from the `i`-th on that are
set. -/
def evalFrom (f : BitVec w → BitVec w) (r : BitVec w) : Nat → Nat → BitVec w → BitVec w
  | _, 0, _ => 0#w
  | i, n + 1, x => (if r.getLsbD i then x else 0#w) ^^^ evalFrom f r (i + 1) n (f x)

/-- The polynomial `r` in `f`, applied to `x`. -/
def eval (f : BitVec w → BitVec w) (r x : BitVec w) : BitVec w := evalFrom f r 0 w x

/-- `f` satisfies the polynomial `X ^ w + P` at `x`. -/
def Relation (f : BitVec w → BitVec w) (P x : BitVec w) : Prop := eval f P x = f^[w] x

instance (f : BitVec w → BitVec w) (P x : BitVec w) : Decidable (Relation f P x) :=
  inferInstanceAs (Decidable (_ = _))

theorem xor_xor_xor_comm (a b c d : BitVec w) : a ^^^ b ^^^ (c ^^^ d) = a ^^^ c ^^^ (b ^^^ d) := by
  ac_rfl

theorem evalFrom_xor (f : BitVec w → BitVec w) (r s : BitVec w) (i n : Nat) (x : BitVec w) :
    evalFrom f (r ^^^ s) i n x = evalFrom f r i n x ^^^ evalFrom f s i n x := by
  induction n generalizing i x with
  | zero => simp [evalFrom]
  | succ n ih =>
    rw [evalFrom, evalFrom, evalFrom, ih, xor_xor_xor_comm]
    congr 1
    cases hr : r.getLsbD i <;> cases hs : s.getLsbD i <;> simp [hr, hs]

theorem eval_xor (f : BitVec w → BitVec w) (r s x : BitVec w) :
    eval f (r ^^^ s) x = eval f r x ^^^ eval f s x := evalFrom_xor f r s 0 w x

theorem evalFrom_zero (f : BitVec w → BitVec w) (i n : Nat) (x : BitVec w) :
    evalFrom f 0#w i n x = 0#w := by
  induction n generalizing i x with
  | zero => rfl
  | succ n ih => simp [evalFrom, ih]

theorem eval_one (f : BitVec w → BitVec w) (x : BitVec w) : eval f 1#w x = x := by
  cases w with
  | zero => exact Subsingleton.elim _ _
  | succ w =>
    have hrest (i n : Nat) (y : BitVec (w + 1)) :
        evalFrom f 1#(w + 1) (i + 1) n y = 0#(w + 1) := by
      induction n generalizing i y with
      | zero => rfl
      | succ n ih => simp [evalFrom, ih, BitVec.getLsbD_one]
    simp [eval, evalFrom, hrest]

section Linear

variable {f : BitVec w → BitVec w} (hf : XorLinear f)
include hf

theorem evalFrom_apply (r : BitVec w) (i n : Nat) (x : BitVec w) :
    evalFrom f r i n (f x) = f (evalFrom f r i n x) := by
  induction n generalizing i x with
  | zero => exact hf.zero.symm
  | succ n ih =>
    rw [evalFrom, evalFrom, hf, ih]
    cases r.getLsbD i <;> simp [hf.zero]

theorem eval_iterate (r x : BitVec w) (k : Nat) : eval f r (f^[k] x) = f^[k] (eval f r x) := by
  induction k generalizing x with
  | zero => rfl
  | succ k ih =>
    rw [iterate_succ_apply, iterate_succ_apply, ih]
    exact congrArg _ (evalFrom_apply hf r 0 w x)

theorem Relation.iterate {P x : BitVec w} (h : Relation f P x) (k : Nat) :
    Relation f P (f^[k] x) := by
  rw [Relation, eval_iterate hf, h, ← iterate_add_apply, ← iterate_add_apply, Nat.add_comm]

end Linear

theorem evalFrom_succ (f : BitVec w → BitVec w) (r : BitVec w) (i n : Nat) (x : BitVec w) :
    evalFrom f r i (n + 1) x =
      evalFrom f r i n x ^^^ (if r.getLsbD (i + n) then f^[n] x else 0#w) := by
  induction n generalizing i x with
  | zero => simp [evalFrom]
  | succ n ih =>
    rw [evalFrom, ih, evalFrom, iterate_succ_apply, BitVec.xor_assoc, Nat.add_right_comm,
      Nat.add_assoc]

/-! ## Residues and powers -/

/-- The variable times the residue `r`, modulo `X ^ w + P`. -/
def mulX (P r : BitVec w) : BitVec w := r <<< 1 ^^^ (if r.msb then P else 0#w)

/-- The product of two residues. -/
def mul (P r s : BitVec w) : BitVec w := eval (mulX P) s r

/-- The residue of the `k`-th power of the variable, for `k < 2 ^ fuel`. -/
def powX (P : BitVec w) : Nat → Nat → BitVec w
  | 0, _ => 1#w
  | fuel + 1, k =>
    let q := powX P fuel (k / 2)
    let s := mul P q q
    if k % 2 = 0 then s else mulX P s

theorem evalFrom_shiftLeft (f : BitVec w → BitVec w) (r : BitVec w) (i n : Nat) (x : BitVec w)
    (h : i + 1 + n ≤ w) : evalFrom f (r <<< 1) (i + 1) n x = evalFrom f r i n x := by
  induction n generalizing i x with
  | zero => rfl
  | succ n ih =>
    have hbit : (r <<< 1).getLsbD (i + 1) = r.getLsbD i := by
      have hlt : i + 1 < w := by omega
      simp [hlt, Nat.lt_of_succ_lt hlt]
    rw [evalFrom, evalFrom, ih (i + 1) (f x) (by omega), hbit]

section Residues

variable {f : BitVec w → BitVec w} (hf : XorLinear f) {P x : BitVec w} (h : Relation f P x)
include hf h

theorem eval_mulX (r : BitVec w) : eval f (mulX P r) x = f (eval f r x) := by
  cases w with
  | zero => exact Subsingleton.elim _ _
  | succ w =>
    have hlow : eval f (r <<< 1) x = f (evalFrom f r 0 w x) := by
      rw [eval, evalFrom, evalFrom_shiftLeft f r 0 w (f x) (by omega), evalFrom_apply hf]
      simp
    have hhigh : eval f (if r.msb then P else 0#(w + 1)) x =
        f (if r.getLsbD w then f^[w] x else 0#(w + 1)) := by
      have htop : r.msb = r.getLsbD w := by simp [BitVec.msb_eq_getLsbD_last]
      rw [htop]
      cases r.getLsbD w with
      | false => simp [eval, evalFrom_zero, hf.zero]
      | true =>
        rw [if_pos rfl, if_pos rfl, ← iterate_succ_apply' f]
        exact h
    rw [mulX, eval_xor, hlow, hhigh, ← hf, eval, evalFrom_succ, Nat.zero_add]

theorem eval_evalFrom_mulX (r s : BitVec w) (i n : Nat) :
    eval f (evalFrom (mulX P) s i n r) x = evalFrom f s i n (eval f r x) := by
  induction n generalizing i r with
  | zero => exact evalFrom_zero f 0 w x
  | succ n ih =>
    rw [evalFrom, evalFrom, eval_xor, ih, eval_mulX hf h]
    cases s.getLsbD i with
    | false => simp [eval, evalFrom_zero]
    | true => simp

/-- A product of residues acts like one polynomial after the other. -/
theorem eval_mul (r s : BitVec w) : eval f (mul P r s) x = eval f s (eval f r x) :=
  eval_evalFrom_mulX hf h r s 0 w

/-- Looking `k` steps ahead with `powX`. -/
theorem eval_powX {fuel k : Nat} (hk : k < 2 ^ fuel) : eval f (powX P fuel k) x = f^[k] x := by
  induction fuel generalizing k with
  | zero =>
    obtain rfl : k = 0 := by simpa using hk
    exact eval_one f x
  | succ fuel ih =>
    have hhalf : k / 2 < 2 ^ fuel := by omega
    have hsquare : eval f (mul P (powX P fuel (k / 2)) (powX P fuel (k / 2))) x =
        f^[k / 2 + k / 2] x := by
      rw [eval_mul hf h, ih hhalf, eval_iterate hf, ih hhalf, ← iterate_add_apply]
    unfold powX
    dsimp only
    split_ifs with heven
    · rw [hsquare]
      congr 2
      omega
    · rw [eval_mulX hf h, hsquare, ← iterate_succ_apply' f]
      congr 2
      omega

end Residues

end XorLinear

/-! ## Full cycles -/

open XorLinear

/-- A point of period `n` whose period is no proper divisor of `n`. -/
theorem minimalPeriod_eq_of_prime {α : Type*} {f : α → α} {x : α} {n : Nat}
    (hx : f^[n] x = x) (hprime : ∀ p, p.Prime → p ∣ n → f^[n / p] x ≠ x) :
    minimalPeriod f x = n := by
  have hperiodic : IsPeriodicPt f n x := hx
  obtain ⟨a, ha⟩ := hperiodic.minimalPeriod_dvd
  by_contra hne
  have hone : a ≠ 1 := by
    rintro rfl
    exact hne (by omega)
  obtain ⟨p, hp, b, rfl⟩ := Nat.exists_prime_and_dvd hone
  have hquotient : n / p = minimalPeriod f x * b := by
    rw [ha, Nat.mul_left_comm, Nat.mul_div_cancel_left _ hp.pos]
  refine hprime p hp ⟨minimalPeriod f x * b, by rw [ha, Nat.mul_left_comm]⟩ ?_
  rw [hquotient]
  exact (isPeriodicPt_minimalPeriod f x).mul_const b

/-- A linear generator one of whose orbits has `2 ^ w - 1` states. -/
structure FullCycle (f : BitVec w → BitVec w) : Prop where
  linear : XorLinear f
  orbit : ∃ x, x ≠ 0#w ∧ minimalPeriod f x = 2 ^ w - 1

theorem XorLinear.iterate_ne_zero {f : BitVec w → BitVec w} (hf : XorLinear f) {x : BitVec w}
    (hx : x ≠ 0#w) (hper : x ∈ periodicPts f) (k : Nat) : f^[k] x ≠ 0#w := by
  intro hzero
  obtain ⟨n, hn, hperiodic⟩ := hper
  have hstays (j : Nat) : f^[j] 0#w = 0#w := (hf.iterate j).zero
  have hback : f^[k * n] x = x := by
    rw [Nat.mul_comm]
    exact hperiodic.mul_const k
  have hlate : f^[k * n] x = 0#w := by
    have hle : k ≤ k * n := Nat.le_mul_of_pos_right k hn
    rw [← Nat.sub_add_cancel hle, iterate_add_apply, hzero, hstays]
  exact hx (hback.symm.trans hlate)

namespace FullCycle

variable {f : BitVec w → BitVec w} (hf : FullCycle f)
include hf

/-- The long orbit leaves no room for another one. -/
theorem exists_orbit : ∃ x, x ∈ periodicPts f ∧ minimalPeriod f x = 2 ^ w - 1 ∧
    ∀ y, y ≠ 0#w → ∃ k, f^[k] x = y := by
  obtain ⟨x, hx, hperiod⟩ := hf.orbit
  have hpos : 0 < minimalPeriod f x := by
    have hlt := x.isLt
    have hne : x.toNat ≠ 0 := fun h => hx (BitVec.eq_of_toNat_eq h)
    omega
  have hper : x ∈ periodicPts f := minimalPeriod_pos_iff_mem_periodicPts.mp hpos
  refine ⟨x, hper, hperiod, fun y hy => ?_⟩
  have hinj : Set.InjOn (fun k => (f^[k] x).toNat) (Finset.range (2 ^ w - 1)) := by
    intro j hj k hk hjk
    simp only [Finset.coe_range, Set.mem_Iio, ← hperiod] at hj hk
    exact iterate_injOn_Iio_minimalPeriod hj hk (BitVec.eq_of_toNat_eq hjk)
  have hsub : (Finset.range (2 ^ w - 1)).image (fun k => (f^[k] x).toNat) ⊆
      Finset.Ico 1 (2 ^ w) := by
    intro m hm
    obtain ⟨k, _, rfl⟩ := Finset.mem_image.mp hm
    have hne : (f^[k] x).toNat ≠ 0 :=
      fun h => hf.linear.iterate_ne_zero hx hper k (BitVec.eq_of_toNat_eq h)
    exact Finset.mem_Ico.mpr ⟨by omega, (f^[k] x).isLt⟩
  have hcard : (Finset.Ico 1 (2 ^ w)).card ≤
      ((Finset.range (2 ^ w - 1)).image (fun k => (f^[k] x).toNat)).card := by
    rw [Finset.card_image_of_injOn hinj, Finset.card_range, Nat.card_Ico]
  have hmem : y.toNat ∈ (Finset.range (2 ^ w - 1)).image (fun k => (f^[k] x).toNat) := by
    rw [Finset.eq_of_subset_of_card_le hsub hcard]
    have hne : y.toNat ≠ 0 := fun h => hy (BitVec.eq_of_toNat_eq h)
    exact Finset.mem_Ico.mpr ⟨by omega, y.isLt⟩
  obtain ⟨k, _, hk⟩ := Finset.mem_image.mp hmem
  exact ⟨k, BitVec.eq_of_toNat_eq hk⟩

/-- Every state but zero has the full period. -/
theorem minimalPeriod_eq {y : BitVec w} (hy : y ≠ 0#w) : minimalPeriod f y = 2 ^ w - 1 := by
  obtain ⟨x, hper, hperiod, hall⟩ := hf.exists_orbit
  obtain ⟨k, rfl⟩ := hall y hy
  rw [minimalPeriod_apply_iterate hper, hperiod]

theorem iterate_ne_zero {y : BitVec w} (hy : y ≠ 0#w) (k : Nat) : f^[k] y ≠ 0#w := by
  obtain ⟨x, hper, _, hall⟩ := hf.exists_orbit
  have hx : x ≠ 0#w := by
    obtain ⟨j, hj⟩ := hall y hy
    rintro rfl
    exact hy (hj.symm.trans (hf.linear.iterate j).zero)
  obtain ⟨j, rfl⟩ := hall y hy
  rw [← iterate_add_apply]
  exact hf.linear.iterate_ne_zero hx hper (k + j)

theorem injective : Injective f := by
  intro x y hxy
  by_contra hne
  have hdiff : x ^^^ y ≠ 0#w := fun h => hne (BitVec.xor_eq_zero_iff.mp h)
  refine hf.iterate_ne_zero hdiff 1 ?_
  rw [iterate_one, hf.linear, hxy, BitVec.xor_self]

/-- From every state but zero every state but zero is reached. -/
theorem exists_iterate_eq {y z : BitVec w} (hy : y ≠ 0#w) (hz : z ≠ 0#w) :
    ∃ k, f^[k] y = z := by
  obtain ⟨x, hper, hperiod, hall⟩ := hf.exists_orbit
  obtain ⟨j, rfl⟩ := hall y hy
  obtain ⟨k, rfl⟩ := hall z hz
  -- go round the orbit once more, so as to come back to `x` first
  obtain ⟨n, hn, hperiodic⟩ := hper
  refine ⟨k + (n * j - j), ?_⟩
  have hle : j ≤ n * j := Nat.le_mul_of_pos_left j hn
  rw [iterate_add_apply, ← iterate_add_apply f (n * j - j) j, Nat.sub_add_cancel hle]
  exact congrArg _ (hperiodic.mul_const j)

theorem relation {P x : BitVec w} (hx : x ≠ 0#w) (h : Relation f P x) (y : BitVec w) :
    Relation f P y := by
  by_cases hy : y = 0#w
  · subst hy
    have hzero (i n : Nat) : evalFrom f P i n 0#w = 0#w := by
      induction n generalizing i with
      | zero => rfl
      | succ n ih => simp [evalFrom, hf.linear.zero, ih]
    exact (hzero 0 w).trans (hf.linear.iterate w).zero.symm
  · obtain ⟨k, rfl⟩ := hf.exists_iterate_eq hx hy
    exact h.iterate hf.linear k

/-- An observation that is zero for `w` steps in a row is zero for ever. -/
theorem observe_zero {P x : BitVec w} (hx : x ≠ 0#w) (h : Relation f P x)
    {o : BitVec w → BitVec v} (ho : XorLinear o) {y : BitVec w}
    (hzero : ∀ j < w, o (f^[j] y) = 0#v) (k : Nat) : o (f^[k] y) = 0#v := by
  have hwindow (z : BitVec w) (i n : Nat) (hz : ∀ j < n, o (f^[j] z) = 0#v) :
      o (evalFrom f P i n z) = 0#v := by
    induction n generalizing i z with
    | zero => exact ho.zero
    | succ n ih =>
      have hhead : o z = 0#v := hz 0 (by omega)
      have htail : o (evalFrom f P (i + 1) n (f z)) = 0#v :=
        ih (f z) (i + 1) fun j hj => hz (j + 1) (by omega)
      rw [evalFrom, ho, htail]
      cases P.getLsbD i <;> simp [hhead, ho.zero]
  have hall (k : Nat) : ∀ j < w, o (f^[j] (f^[k] y)) = 0#v := by
    induction k with
    | zero => exact hzero
    | succ k ih =>
      intro j hj
      rw [← iterate_add_apply, ← Nat.add_assoc, Nat.add_right_comm, iterate_add_apply]
      by_cases hlast : j + 1 < w
      · exact ih (j + 1) hlast
      · have hw : j + 1 = w := by omega
        rw [hw, ← hf.relation hx h (f^[k] y)]
        exact hwindow _ 0 w ih
  have hpos : 0 < w := by
    cases w with
    | zero => exact absurd (Subsingleton.elim x 0#0) hx
    | succ w => omega
  exact hall k 0 hpos

/-- An observation that is not constantly zero tells the states apart within `w` steps. -/
theorem eq_of_observe {P x : BitVec w} (hx : x ≠ 0#w) (h : Relation f P x)
    {o : BitVec w → BitVec v} (ho : XorLinear o) {z : BitVec w} (hz : o z ≠ 0#v)
    {s t : BitVec w} (heq : ∀ j < w, o (f^[j] s) = o (f^[j] t)) : s = t := by
  have hdiff : ∀ j < w, o (f^[j] (s ^^^ t)) = 0#v := by
    intro j hj
    rw [hf.linear.iterate j, ho, heq j hj, BitVec.xor_self]
  by_contra hne
  have hst : s ^^^ t ≠ 0#w := fun h0 => hne (BitVec.xor_eq_zero_iff.mp h0)
  have hz0 : z ≠ 0#w := by
    rintro rfl
    exact hz ho.zero
  obtain ⟨k, hk⟩ := hf.exists_iterate_eq hst hz0
  exact hz (hk ▸ hf.observe_zero hx h ho hdiff k)

end FullCycle

end LitexDtls.Library
