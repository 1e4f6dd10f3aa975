import Mathlib.Data.List.Basic

/-!
# The lifetime of a resource

A program touches a resource: it acquires it, uses it and releases it. `ReleasedOnce` says of
the touches of a whole run that the resource is acquired at most once, released as often as
it is acquired, and touched only in between. `Handle` is the machine that follows such a run and
stops at the first touch that comes too early or too late; a run that it accepts, and after
which nothing is left alive, is `ReleasedOnce`.
-/
namespace LitexDtls.Library

inductive Touch where
  | idle
  | acquire
  | use
  | release
  deriving DecidableEq, Repr

/-- Acquired at most once, released as often as acquired, and in use only in between. -/
structure ReleasedOnce (ts : List Touch) : Prop where
  once : ts.count .acquire ≤ 1
  balanced : ts.count .release = ts.count .acquire
  alive : ∀ pre t post, ts = pre ++ t :: post → t = .use ∨ t = .release →
    .acquire ∈ pre ∧ .release ∉ pre

/-- What a run has made of the resource so far. -/
inductive Handle where
  | absent
  | live
  | freed
  deriving DecidableEq, Repr

namespace Handle

/-- One touch; none for one that finds the resource in the wrong state. -/
@[grind] def step : Handle → Touch → Option Handle
  | h, .idle => some h
  | .absent, .acquire => some .live
  | .live, .use => some .live
  | .live, .release => some .freed
  | _, _ => none

@[grind] def acquired : Handle → Nat
  | .absent => 0
  | .live => 1
  | .freed => 1

@[grind] def released : Handle → Nat
  | .absent => 0
  | .live => 0
  | .freed => 1

theorem eq_live_of_step {h h' : Handle} {t : Touch} (hstep : h.step t = some h')
    (ht : t = .use ∨ t = .release) : h = .live := by
  cases h <;> grind

/-- A handle counts what was done to the resource. -/
theorem step_counts {h h' : Handle} {t : Touch} (hstep : h.step t = some h') :
    h'.acquired = h.acquired + [t].count .acquire ∧
      h'.released = h.released + [t].count .release := by
  cases h <;> cases t <;> grind

theorem run_counts {h h' : Handle} {ts : List Touch} (hrun : ts.foldlM step h = some h') :
    h'.acquired = h.acquired + ts.count .acquire ∧
      h'.released = h.released + ts.count .release := by
  induction ts generalizing h with
  | nil =>
    simp only [List.foldlM_nil, Option.pure_def, Option.some.injEq] at hrun
    simp [hrun]
  | cons t ts ih =>
    simp only [List.foldlM_cons, Option.bind_eq_bind, Option.bind_eq_some_iff] at hrun
    obtain ⟨h₁, hstep, hrest⟩ := hrun
    obtain ⟨hacquired, hreleased⟩ := step_counts hstep
    obtain ⟨hacquired', hreleased'⟩ := ih hrest
    rw [← List.singleton_append, List.count_append, List.count_append]
    omega

/-- A run that the machine accepts and that leaves nothing alive releases what it acquires. -/
theorem releasedOnce {ts : List Touch} {h : Handle} (hrun : ts.foldlM step .absent = some h)
    (hend : h ≠ .live) : ReleasedOnce ts := by
  obtain ⟨hacquired, hreleased⟩ := run_counts hrun
  refine ⟨?_, ?_, ?_⟩
  · cases h <;> grind
  · cases h <;> grind
  · rintro pre t post rfl ht
    simp only [List.foldlM_append, List.foldlM_cons, Option.bind_eq_bind,
      Option.bind_eq_some_iff] at hrun
    obtain ⟨h₁, hpre, h₂, hstep, _⟩ := hrun
    obtain rfl := eq_live_of_step hstep ht
    obtain ⟨hone, hzero⟩ := run_counts hpre
    have hacquire : 0 < pre.count .acquire := by grind
    have hrelease : pre.count .release = 0 := by grind
    exact ⟨List.count_pos_iff.mp hacquire, List.count_eq_zero.mp hrelease⟩

end Handle

end LitexDtls.Library
