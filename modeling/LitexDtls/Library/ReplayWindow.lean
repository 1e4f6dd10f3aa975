import Mathlib.Data.Set.Insert

/-!
# Sliding windows over sequence numbers

A window knows for each of the `w` numbers below `next` whether it has been seen: bit `k` is
for the number `next - 1 - k`. It admits a number that is not below `next`, or that is one of
the `w` and not seen.

`Covers` is what keeps a number from being admitted twice: every number that has been seen is
below `next`, and marked if it is one of the `w`. `Exact` says that nothing else is marked, and
that `next` is right behind the highest number seen.
-/
namespace LitexDtls.Library

structure ReplayWindow (w : Nat) where
  next : Nat
  bit : Nat → Bool

namespace ReplayWindow
variable {w : Nat} {win : ReplayWindow w} {seen : Set Nat} {s : Nat}

/-- The number may be accepted. -/
@[grind] def Admits (win : ReplayWindow w) (s : Nat) : Prop :=
  win.next ≤ s ∨ win.next - s ≤ w ∧ win.bit (win.next - 1 - s) = false

@[grind] structure Covers (seen : Set Nat) (win : ReplayWindow w) : Prop where
  below : ∀ s ∈ seen, s < win.next
  marked : ∀ s ∈ seen, win.next - s ≤ w → win.bit (win.next - 1 - s) = true

@[grind] structure Exact (seen : Set Nat) (win : ReplayWindow w) : Prop extends Covers seen win where
  only : ∀ s < win.next, win.next - s ≤ w → win.bit (win.next - 1 - s) = true → s ∈ seen
  top : win.next = 0 ∨ win.next - 1 ∈ seen

theorem exact_empty (bit : Nat → Bool) : Exact ∅ (⟨0, bit⟩ : ReplayWindow w) := by
  refine ⟨⟨?_, ?_⟩, ?_, .inl rfl⟩ <;> simp

/-- What has been seen is not admitted again. -/
theorem Covers.not_mem (h : Covers seen win) (hs : win.Admits s) : s ∉ seen := by
  intro hseen
  have hlt := h.below s hseen
  rcases hs with hle | ⟨hin, hbit⟩
  · omega
  · have := h.marked s hseen hin
    grind

/-- The number `s` is marked. -/
def mark (win : ReplayWindow w) (s : Nat) : ReplayWindow w :=
  ⟨win.next, fun k => decide (k = win.next - 1 - s) || win.bit k⟩

theorem Covers.mark (h : Covers seen win) (hs : s < win.next) :
    Covers (insert s seen) (win.mark s) := by
  constructor
  · rintro t (rfl | ht)
    · exact hs
    · exact h.below t ht
  · rintro t (rfl | ht) hin
    · simp [ReplayWindow.mark]
    · have := h.marked t ht hin
      simp [ReplayWindow.mark, this]

theorem Exact.mark (h : Exact seen win) (hs : s < win.next) :
    Exact (insert s seen) (win.mark s) := by
  refine ⟨h.toCovers.mark hs, ?_, h.top.imp id (.inr ·)⟩
  intro t ht hin hbit
  simp only [ReplayWindow.mark, Bool.or_eq_true, decide_eq_true_eq] at ht hin hbit
  rcases hbit with heq | hbit
  · exact .inl (by omega)
  · exact .inr (h.only t ht hin hbit)

/-! ## Advancing to a number that is not below `next` -/

/-- A window that ends right behind `s`, keeps the marks of the numbers that are still in it
and has one for `s`. -/
theorem Covers.advance (h : Covers seen win) (hs : win.next ≤ s) {bit : Nat → Bool}
    (hzero : bit 0 = true)
    (hkeep : ∀ k < w, s + 1 - win.next ≤ k → win.bit (k - (s + 1 - win.next)) = true →
      bit k = true) :
    Covers (insert s seen) (⟨s + 1, bit⟩ : ReplayWindow w) := by
  constructor
  · rintro t (rfl | ht)
    · simp
    · have := h.below t ht
      dsimp only
      omega
  · rintro t (rfl | ht) hin
    · simpa using hzero
    · have hlt := h.below t ht
      dsimp only at hin ⊢
      refine hkeep _ (by omega) (by omega) ?_
      have hk : s + 1 - 1 - t - (s + 1 - win.next) = win.next - 1 - t := by omega
      rw [hk]
      exact h.marked t ht (by omega)

theorem Exact.advance (h : Exact seen win) (hs : win.next ≤ s) {bit : Nat → Bool}
    (hbit : ∀ k < w, bit k = true ↔
      k = 0 ∨ s + 1 - win.next ≤ k ∧ win.bit (k - (s + 1 - win.next)) = true) (hw : 0 < w) :
    Exact (insert s seen) (⟨s + 1, bit⟩ : ReplayWindow w) := by
  refine ⟨h.toCovers.advance hs ((hbit 0 hw).mpr (.inl rfl))
    fun k hk hle hold => (hbit k hk).mpr (.inr ⟨hle, hold⟩), ?_, .inr (.inl (by simp))⟩
  intro t ht hin hmark
  dsimp only at ht hin hmark
  rcases (hbit _ (by omega)).mp hmark with hzero | ⟨hle, hold⟩
  · exact .inl (by omega)
  · have hk : s + 1 - 1 - t - (s + 1 - win.next) = win.next - 1 - t := by omega
    rw [hk] at hold
    exact .inr (h.only t (by omega) (by omega) hold)

end ReplayWindow
end LitexDtls.Library
