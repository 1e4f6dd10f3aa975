import Mathlib.Data.Set.Insert

/-!
# Keys that are used in one place

Keys are handed out to places, and a place uses its key with one number after the other.
`used` is the history of these uses, `given` the keys that were handed out, `reads i k` says
that place `i` can use key `k`, and `knows i S` that it has kept what it has to about the set
`S` of the numbers used with its key.

As long as each key is held in one place, and each place has one key, what a place knows is
about all uses of its key, wherever they were.
-/
namespace LitexDtls.Library

variable {ι κ ν : Type*}

/-- The numbers that were used with a key. -/
def usedWith (used : List (κ × ν)) (k : κ) : Set ν := {n | (k, n) ∈ used}

@[simp] theorem mem_usedWith {used : List (κ × ν)} {k : κ} {n : ν} :
    n ∈ usedWith used k ↔ (k, n) ∈ used := Iff.rfl

theorem usedWith_cons_self (used : List (κ × ν)) (k : κ) (n : ν) :
    usedWith ((k, n) :: used) k = insert n (usedWith used k) := by
  ext m
  simp

theorem usedWith_cons_of_ne {used : List (κ × ν)} {k k' : κ} {n : ν} (h : k' ≠ k) :
    usedWith ((k, n) :: used) k' = usedWith used k' := by
  ext m
  simp [h]

@[grind] structure KeyUse (reads : ι → κ → Prop) (knows : ι → Set ν → Prop) (used : List (κ × ν))
    (given : List κ) : Prop where
  one_place : ∀ {i j k}, reads i k → reads j k → i = j
  one_key : ∀ {i k k'}, reads i k → reads i k' → k = k'
  knows : ∀ {i k}, reads i k → knows i (usedWith used k)
  reads_given : ∀ {i k}, reads i k → k ∈ given
  used_given : ∀ {k n}, (k, n) ∈ used → k ∈ given

namespace KeyUse
variable {reads reads' : ι → κ → Prop} {knows knows' : ι → Set ν → Prop} {used : List (κ × ν)}
  {given : List κ} {i : ι} {k : κ} {n : ν}

theorem empty (h : ∀ i k, ¬ reads i k) (given : List κ) : KeyUse reads knows [] given where
  one_place hi := absurd hi (h _ _)
  one_key hk := absurd hk (h _ _)
  knows hi := absurd hi (h _ _)
  reads_given hi := absurd hi (h _ _)
  used_given hn := absurd hn List.not_mem_nil

/-- Places may lose their keys, and keys may be handed out again to the place that has them. -/
theorem mono {given' : List κ} (h : KeyUse reads knows used given)
    (hreads : ∀ i k, reads' i k → reads i k ∧ ∀ S, knows i S → knows' i S)
    (hgiven : given ⊆ given') : KeyUse reads' knows' used given' where
  one_place hi hj := h.one_place (hreads _ _ hi).1 (hreads _ _ hj).1
  one_key hk hk' := h.one_key (hreads _ _ hk).1 (hreads _ _ hk').1
  knows hi := (hreads _ _ hi).2 _ (h.knows (hreads _ _ hi).1)
  reads_given hi := hgiven (h.reads_given (hreads _ _ hi).1)
  used_given hn := hgiven (h.used_given hn)

/-- What was handed out only matters for keys that are held or were used. -/
theorem restrict {p : κ → Bool} (h : KeyUse reads knows used given)
    (hreads : ∀ i k, reads i k → p k = true) (hused : ∀ k n, (k, n) ∈ used → p k = true) :
    KeyUse reads knows used (given.filter p) where
  one_place := h.one_place
  one_key := h.one_key
  knows := h.knows
  reads_given hi := List.mem_filter.mpr ⟨h.reads_given hi, hreads _ _ hi⟩
  used_given hn := List.mem_filter.mpr ⟨h.used_given hn, hused _ _ hn⟩

/-- A key that was never handed out has not been used. -/
theorem usedWith_of_not_mem (h : KeyUse reads knows used given) (hk : k ∉ given) :
    usedWith used k = ∅ := by
  ext n
  simpa using fun hn => hk (h.used_given hn)

/-- A new key goes to place `i`, which has no other from then on. -/
theorem give (h : KeyUse reads knows used given) (hk : k ∉ given) (hi : knows' i ∅)
    (hreads : ∀ j k', reads' j k' → j = i ∧ k' = k ∨
      j ≠ i ∧ reads j k' ∧ ∀ S, knows j S → knows' j S) :
    KeyUse reads' knows' used (k :: given) where
  one_place := by
    intro a b l ha hb
    rcases hreads a l ha with ⟨rfl, rfl⟩ | ⟨-, ha', -⟩ <;>
      rcases hreads b _ hb with ⟨rfl, hl⟩ | ⟨-, hb', -⟩
    · rfl
    · exact absurd (h.reads_given hb') hk
    · exact absurd (h.reads_given ha') (hl ▸ hk)
    · exact h.one_place ha' hb'
  one_key := by
    intro a l l' hl hl'
    rcases hreads a l hl with ⟨rfl, rfl⟩ | ⟨hne, ha', -⟩ <;>
      rcases hreads _ l' hl' with ⟨ha, hl''⟩ | ⟨hne', hb', -⟩
    · exact hl''.symm
    · exact absurd rfl hne'
    · exact absurd ha hne
    · exact h.one_key ha' hb'
  knows := by
    intro a l ha
    rcases hreads a l ha with ⟨rfl, rfl⟩ | ⟨-, ha', hknows⟩
    · rwa [h.usedWith_of_not_mem hk]
    · exact hknows _ (h.knows ha')
  reads_given := by
    intro a l ha
    rcases hreads a l ha with ⟨-, rfl⟩ | ⟨-, ha', -⟩
    · exact List.mem_cons_self
    · exact List.mem_cons_of_mem _ (h.reads_given ha')
  used_given hn := List.mem_cons_of_mem _ (h.used_given hn)

/-- Place `i` uses its key with the number `n`. -/
theorem use (h : KeyUse reads knows used given) (hi : reads i k)
    (hn : knows i (usedWith used k) → knows' i (insert n (usedWith used k)))
    (hother : ∀ j ≠ i, ∀ S, knows j S → knows' j S) (hreads : ∀ j k', reads' j k' → reads j k') :
    KeyUse reads' knows' ((k, n) :: used) given where
  one_place ha hb := h.one_place (hreads _ _ ha) (hreads _ _ hb)
  one_key ha hb := h.one_key (hreads _ _ ha) (hreads _ _ hb)
  knows := by
    intro j l hj
    have hj' := hreads _ _ hj
    by_cases hji : j = i
    · subst hji
      obtain rfl := h.one_key hj' hi
      rw [usedWith_cons_self]
      exact hn (h.knows hj')
    · have hne : l ≠ k := fun hlk => hji (h.one_place hj' (hlk ▸ hi))
      rw [usedWith_cons_of_ne hne]
      exact hother j hji _ (h.knows hj')
  reads_given hj := h.reads_given (hreads _ _ hj)
  used_given hm := by
    rcases List.mem_cons.mp hm with heq | hm
    · rw [Prod.mk.injEq] at heq
      exact heq.1 ▸ h.reads_given hi
    · exact h.used_given hm

end KeyUse
end LitexDtls.Library
