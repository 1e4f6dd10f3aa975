import Mathlib.Data.List.Basic

/-!
# Runs of a deterministic machine under a guard

A machine is a step function from a state and an event to a state; a run folds it
over a list of events. `Meets` says that every step of a run satisfies a guard on
its event and on the state before it.

`Meets.invariant` is the rule for "every run whose steps all meet the guard keeps the
invariant". `run_iff_meets` is its exact form: when a property, once lost, stays lost,
and one step keeps it exactly when the guard holds, a run keeps it exactly when all of
its steps meet the guard. `forall_prefix_iff_meets` is the exact form for a property that has
to hold in every state of the run.
-/
namespace LitexDtls.Library

variable {σ ε : Type*} (step : σ → ε → σ)

def run (s : σ) (es : List ε) : σ := es.foldl step s

@[simp] theorem run_nil (s : σ) : run step s [] = s := rfl
@[simp] theorem run_cons (s : σ) (e : ε) (es : List ε) :
    run step s (e :: es) = run step (step s e) es := rfl
@[simp] theorem run_append (s : σ) (es fs : List ε) :
    run step s (es ++ fs) = run step (run step s es) fs := List.foldl_append

/-- Every step of the run from `s` meets the guard `G` in the state before it. -/
def Meets (G : σ → ε → Prop) : σ → List ε → Prop
  | _, [] => True
  | s, e :: es => G s e ∧ Meets G (step s e) es

instance Meets.decidable (G : σ → ε → Prop) [∀ s e, Decidable (G s e)] :
    ∀ s es, Decidable (Meets step G s es)
  | _, [] => inferInstanceAs (Decidable True)
  | s, e :: es => @instDecidableAnd _ _ _ (Meets.decidable G (step s e) es)

variable {step}

theorem Meets.append {G : σ → ε → Prop} {s : σ} {es fs : List ε} :
    Meets step G s (es ++ fs) ↔ Meets step G s es ∧ Meets step G (run step s es) fs := by
  induction es generalizing s with
  | nil => simp [Meets]
  | cons e es ih => simp [Meets, ih, and_assoc]

theorem Meets.mono {G H : σ → ε → Prop} (weaker : ∀ s e, G s e → H s e) {s : σ} {es : List ε}
    (h : Meets step G s es) : Meets step H s es := by
  induction es generalizing s with
  | nil => trivial
  | cons e es ih => exact ⟨weaker s e h.1, ih h.2⟩

/-- Guards that agree under an invariant that they keep are met by the same runs. -/
theorem Meets.congr {I : σ → Prop} {G H : σ → ε → Prop}
    (keeps : ∀ s e, I s → H s e → I (step s e)) (agree : ∀ s e, I s → (G s e ↔ H s e)) {s : σ}
    (hs : I s) (es : List ε) : Meets step G s es ↔ Meets step H s es := by
  induction es generalizing s with
  | nil => exact Iff.rfl
  | cons e es ih =>
    rw [Meets, Meets, agree s e hs]
    exact and_congr_right fun h => ih (keeps s e hs h)

/-- An invariant kept by every guarded step is kept by every guarded run. -/
theorem Meets.invariant {I : σ → Prop} {G : σ → ε → Prop}
    (keeps : ∀ s e, I s → G s e → I (step s e)) {s : σ} {es : List ε}
    (h : Meets step G s es) (hs : I s) : I (run step s es) := by
  induction es generalizing s with
  | nil => exact hs
  | cons e es ih => exact ih h.2 (keeps s e hs h.1)

/-- A guard that an invariant implies is met by every run of events that keep the invariant. -/
theorem Meets.of_invariant {I : σ → Prop} {G : σ → ε → Prop} {es : List ε}
    (keeps : ∀ s, ∀ e ∈ es, I s → I (step s e)) (holds : ∀ s, ∀ e ∈ es, I s → G s e) {s : σ}
    (hs : I s) : Meets step G s es := by
  induction es generalizing s with
  | nil => trivial
  | cons e es ih =>
    have he : e ∈ e :: es := List.mem_cons_self
    have htail : ∀ f ∈ es, f ∈ e :: es := fun f => List.mem_cons_of_mem e
    refine ⟨holds s e he hs, ih (fun t f hf => keeps t f (htail f hf))
      (fun t f hf => holds t f (htail f hf)) (keeps s e he hs)⟩

theorem run_invariant {I : σ → Prop} (keeps : ∀ s e, I s → I (step s e)) {s : σ}
    (hs : I s) (es : List ε) : I (run step s es) := by
  induction es generalizing s with
  | nil => exact hs
  | cons e es ih => exact ih (keeps s e hs)

/-- The exact guard rule. Under the invariant `I`, `Q` cannot be regained once lost, and one
step keeps it if and only if it meets the guard. -/
theorem run_iff_meets {I Q : σ → Prop} {G : σ → ε → Prop}
    (keeps : ∀ s e, I s → I (step s e))
    (exact' : ∀ s e, I s → (Q (step s e) ↔ Q s ∧ G s e)) {s : σ} (es : List ε)
    (hs : I s) (hq : Q s) : Q (run step s es) ↔ Meets step G s es := by
  have back : ∀ (fs : List ε) (t : σ), I t → Q (run step t fs) → Q t := by
    intro fs
    induction fs with
    | nil => exact fun _ _ h => h
    | cons f fs ih => exact fun t ht h => ((exact' t f ht).mp (ih _ (keeps t f ht) h)).1
  induction es generalizing s with
  | nil => simpa [Meets] using hq
  | cons e es ih =>
    constructor
    · intro h
      have hstep : Q (step s e) := back es _ (keeps s e hs) h
      exact ⟨((exact' s e hs).mp hstep).2, (ih (keeps s e hs) hstep).mp h⟩
    · rintro ⟨hg, hrest⟩
      exact (ih (keeps s e hs) ((exact' s e hs).mpr ⟨hq, hg⟩)).mpr hrest

/-- The exact guard rule for all states of a run. The invariant `I` holds as long as the guard
is met, and the first step that does not meet it leaves `Q`. -/
theorem forall_prefix_iff_meets {I Q : σ → Prop} {G : σ → ε → Prop}
    (holds : ∀ s, I s → Q s)
    (keeps : ∀ s e, I s → G s e → I (step s e))
    (breaks : ∀ s e, I s → Q (step s e) → G s e) {s : σ} (es : List ε) (hs : I s) :
    (∀ fs, fs <+: es → Q (run step s fs)) ↔ Meets step G s es := by
  induction es generalizing s with
  | nil =>
    simp only [List.prefix_nil, forall_eq, run_nil, Meets, iff_true]
    exact holds s hs
  | cons e es ih =>
    constructor
    · intro h
      have hg : G s e := breaks s e hs (h [e] (by simp))
      refine ⟨hg, (ih (keeps s e hs hg)).mp fun fs hfs => ?_⟩
      exact h (e :: fs) (by simpa using hfs)
    · rintro ⟨hg, hrest⟩ fs hfs
      cases fs with
      | nil => exact holds s hs
      | cons f fs =>
        obtain ⟨rfl, htail⟩ := List.cons_prefix_cons.mp hfs
        exact (ih (keeps s f hs hg)).mpr hrest fs htail

end LitexDtls.Library
