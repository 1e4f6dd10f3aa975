import Mathlib.Algebra.Ring.Nat
import Mathlib.Logic.Function.Iterate
import LitexDtls.Library.Run

/-!
# The client's random source

`prng_next`, `prng_seed` and `CustomRngGenerateBlock` of `boot/main.c`. Whether the generator is
seeded is told by comparing its state with the value that it has before the first request. The
generator can come back to that value, and a request that finds it there seeds again and leaves
the stream.
-/
namespace LitexDtls.Client
open Library Function

/-- The initial value of `prng_state`, which asks for a seed. -/
def prngUnseeded : UInt32 := 0xA5A5A5A5

def prngNext (x : UInt32) : UInt32 :=
  let x := x ^^^ (x <<< 13)
  let x := x ^^^ (x >>> 17)
  x ^^^ (x <<< 5)

/-- `prng_seed`, with the cycle counter as `rdcycle` reads it. -/
def prngSeed (cycles : UInt64) (state : UInt32) : UInt32 :=
  let state := state ^^^ (cycles.toUInt32 ^^^ (cycles >>> 32).toUInt32)
  let state := state ^^^ 0x3C6EF35F
  if state = 0 then 1 else state

/-- The byte that is put out of a state. -/
def prngByte (v : UInt32) : UInt8 := (v >>> 24).toUInt8

/-- The loop of `CustomRngGenerateBlock` with `n` bytes to go: the last state and the bytes. -/
def generate : Nat → UInt32 → UInt32 × List UInt8
  | 0, state => (state, [])
  | n + 1, state =>
    let v := prngNext state
    let (last, output) := generate n v
    (last, prngByte v :: output)

/-- A call of `CustomRngGenerateBlock`: the cycle counter at the call, and the size. -/
structure Request where
  cycles : UInt64
  sz : Nat

/-- The state from which a request generates. -/
def seeded (r : Request) (state : UInt32) : UInt32 :=
  if state = prngUnseeded then prngSeed r.cycles state else state

/-- `CustomRngGenerateBlock`: its result, the state afterwards, and what it writes. -/
def customRngGenerateBlock (r : Request) (state : UInt32) : Int32 × UInt32 × List UInt8 :=
  let (last, output) := generate r.sz (seeded r state)
  (0, last, output)

/-! ## The loop -/

@[simp] theorem generate_fst (n : Nat) (s : UInt32) : (generate n s).1 = prngNext^[n] s := by
  induction n generalizing s with
  | zero => rfl
  | succ n ih => exact ih (prngNext s)

theorem getElem?_generate {n i : Nat} (h : i < n) (s : UInt32) :
    (generate n s).2[i]? = some (prngByte (prngNext^[i + 1] s)) := by
  induction n generalizing i s with
  | zero => omega
  | succ n ih =>
    cases i with
    | zero => rfl
    | succ i => exact ih (by omega) (prngNext s)

/-- A block may be cut in two where nothing is seeded. -/
theorem generate_add (m n : Nat) (s : UInt32) :
    (generate (m + n) s).2 = (generate m s).2 ++ (generate n (prngNext^[m] s)).2 := by
  induction m generalizing s with
  | zero => simp [generate]
  | succ m ih =>
    rw [Nat.add_right_comm]
    simp only [generate, ih, List.cons_append, iterate_succ_apply]

/-! ## Runs of requests -/

/-- The generator. `seedings` counts the runs of `prng_seed`, `output` is all that was written,
and `visited` are the states from the last seeding on. -/
structure Rng where
  prngState : UInt32
  seedings : Nat
  output : List UInt8
  visited : List UInt32
  deriving DecidableEq, Repr

namespace Rng

/-- The program before the first request. -/
def init : Rng := ⟨prngUnseeded, 0, [], [prngUnseeded]⟩

def step (g : Rng) (r : Request) : Rng :=
  let block := customRngGenerateBlock r g.prngState
  let passed := List.iterate prngNext (prngNext (seeded r g.prngState)) r.sz
  { prngState := block.2.1
    seedings := if g.prngState = prngUnseeded then g.seedings + 1 else g.seedings
    output := g.output ++ block.2.2
    visited :=
      (if g.prngState = prngUnseeded then [seeded r g.prngState] else g.visited) ++ passed }

/-- The request does not find the value that asks for a seed. -/
def Undisturbed (g : Rng) (_ : Request) : Prop := g.prngState ≠ prngUnseeded

/-- What a request does that seeds nothing. -/
theorem step_of_undisturbed {g : Rng} {r : Request} (h : g.Undisturbed r) :
    (g.step r).prngState = prngNext^[r.sz] g.prngState ∧ (g.step r).seedings = g.seedings ∧
      (g.step r).output = g.output ++ (generate r.sz g.prngState).2 ∧
      (g.step r).visited = g.visited ++ List.iterate prngNext (prngNext g.prngState) r.sz := by
  have hstate : g.prngState ≠ prngUnseeded := h
  simp [step, customRngGenerateBlock, seeded, hstate]

/-- What a request does that seeds first. -/
theorem step_of_unseeded {g : Rng} (h : g.prngState = prngUnseeded) (r : Request) :
    (g.step r).prngState = prngNext^[r.sz] (prngSeed r.cycles prngUnseeded) ∧
      (g.step r).seedings = g.seedings + 1 ∧
      (g.step r).output = g.output ++ (generate r.sz (prngSeed r.cycles prngUnseeded)).2 ∧
      (g.step r).visited = List.iterate prngNext (prngSeed r.cycles prngUnseeded) (r.sz + 1) := by
  simp [step, customRngGenerateBlock, seeded, h, List.iterate]

/-- The bytes of a list of requests. -/
def total (rs : List Request) : Nat := (rs.map Request.sz).sum

/-- Undisturbed requests continue one stream. -/
theorem output_of_undisturbed {g : Rng} {rs : List Request} (h : Meets step Undisturbed g rs) :
    (run step g rs).output = g.output ++ (generate (total rs) g.prngState).2 := by
  induction rs generalizing g with
  | nil => simp [total, generate]
  | cons r rs ih =>
    obtain ⟨hr, hrest⟩ := h
    obtain ⟨hstate, _, houtput, _⟩ := step_of_undisturbed hr
    have htotal : total (r :: rs) = r.sz + total rs := by simp [total]
    rw [run_cons, ih hrest, houtput, hstate, htotal, generate_add, List.append_assoc]

/-- The generator is seeded again by the first request that is disturbed. -/
theorem seedings_step {g : Rng} (r : Request) (h : 1 ≤ g.seedings) :
    (g.step r).seedings = 1 ↔ g.seedings = 1 ∧ g.Undisturbed r := by
  by_cases hstate : g.prngState = prngUnseeded
  · obtain ⟨_, hseedings, _⟩ := step_of_unseeded hstate r
    simp only [Undisturbed, hstate, ne_eq, not_true_eq_false, and_false, iff_false]
    omega
  · obtain ⟨_, hseedings, _⟩ := step_of_undisturbed hstate (r := r)
    simp [Undisturbed, hstate, hseedings]

theorem seedings_mono (g : Rng) (r : Request) (h : 1 ≤ g.seedings) :
    1 ≤ (g.step r).seedings := by
  by_cases hstate : g.prngState = prngUnseeded
  · obtain ⟨_, hseedings, _⟩ := step_of_unseeded hstate r
    omega
  · obtain ⟨_, hseedings, _⟩ := step_of_undisturbed hstate (r := r)
    omega

theorem seedings_iff {g : Rng} (h : g.seedings = 1) (rs : List Request) :
    (run step g rs).seedings = 1 ↔ Meets step Undisturbed g rs :=
  run_iff_meets (I := fun g => 1 ≤ g.seedings) (Q := fun g => g.seedings = 1)
    (fun g r hg => seedings_mono g r hg) (fun _ r hg => seedings_step r hg) rs (by omega) h

/-- A run in which no request is disturbed, in terms of the first state alone. -/
theorem meets_undisturbed_iff (g : Rng) (rs : List Request) :
    Meets step Undisturbed g rs ↔
      ∀ i < rs.length, prngNext^[total (rs.take i)] g.prngState ≠ prngUnseeded := by
  induction rs generalizing g with
  | nil => simp [Meets]
  | cons r rs ih =>
    have hzero : g.Undisturbed r ↔
        prngNext^[total ((r :: rs).take 0)] g.prngState ≠ prngUnseeded := Iff.rfl
    constructor
    · rintro ⟨hr, hrest⟩ i hi
      cases i with
      | zero => exact hzero.mp hr
      | succ i =>
        have hlater := (ih (g.step r)).mp hrest i (by simpa using hi)
        rw [(step_of_undisturbed hr).1, ← iterate_add_apply, Nat.add_comm] at hlater
        simpa [total] using hlater
    · intro h
      have hr : g.Undisturbed r := hzero.mpr (h 0 (by simp))
      refine ⟨hr, (ih (g.step r)).mpr fun i hi => ?_⟩
      have hlater := h (i + 1) (by simpa using hi)
      rw [(step_of_undisturbed hr).1, ← iterate_add_apply, Nat.add_comm]
      simpa [total] using hlater

/-! ## One stream -/

/-- Seeded by the first request and by no other, and one stream of bytes from there on. -/
structure OneStream (first : Request) (rest : List Request) : Prop where
  seededFirst : (run step init [first]).seedings = 1
  seededOnce : (run step init (first :: rest)).seedings = 1
  stream : (run step init (first :: rest)).output =
    (customRngGenerateBlock ⟨first.cycles, total (first :: rest)⟩ prngUnseeded).2.2

/-- The requests are one stream exactly when no later one finds the generator, by chance, at
the value that asks for a seed. -/
theorem oneStream_iff (first : Request) (rest : List Request) :
    OneStream first rest ↔ ∀ i < rest.length,
      prngNext^[first.sz + total (rest.take i)] (prngSeed first.cycles prngUnseeded) ≠
        prngUnseeded := by
  obtain ⟨hstate, hfirst, houtput, _⟩ := step_of_unseeded (g := init) rfl first
  have hmeets : Meets step Undisturbed (init.step first) rest ↔ ∀ i < rest.length,
      prngNext^[first.sz + total (rest.take i)] (prngSeed first.cycles prngUnseeded) ≠
        prngUnseeded := by
    rw [meets_undisturbed_iff, hstate]
    simp only [← iterate_add_apply, Nat.add_comm first.sz]
  rw [← hmeets]
  constructor
  · intro h
    exact (seedings_iff hfirst rest).mp h.seededOnce
  · intro h
    refine ⟨hfirst, (seedings_iff hfirst rest).mpr h, ?_⟩
    have htotal : total (first :: rest) = first.sz + total rest := by simp [total]
    rw [run_cons, output_of_undisturbed h, houtput, hstate, htotal]
    simp [customRngGenerateBlock, seeded, generate_add, init]

/-- Two requests of one byte. The cycle counter at the first one is such that the generator is
back at its initial value after the byte, so the second one seeds again. -/
theorem seeded_twice : ¬ ∀ (first : Request) (rest : List Request), OneStream first rest := by
  intro h
  have once := (h ⟨0x203EB17D, 1⟩ [⟨0, 1⟩]).seededOnce
  exact absurd once (by decide)

end Rng

end LitexDtls.Client
