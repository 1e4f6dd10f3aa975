import Mathlib.Data.Finset.Card
import Mathlib.Order.Interval.Finset.Nat

/-!
# Separated spans

A span is a contiguous piece of an index range. A list of spans is separated when it is
ordered and neighbouring spans neither overlap nor touch, so that it is the normal form of the
set of indices that it covers: the length of the list in all counts the covered indices, and a
list that covers everything is a single span.
-/
namespace LitexDtls.Library

structure Span where
  start : Nat
  len : Nat
  deriving DecidableEq, Repr

namespace Span

@[grind] def stop (s : Span) : Nat := s.start + s.len

/-- The index `x` lies in the span. -/
@[grind] def Mem (s : Span) (x : Nat) : Prop := s.start ≤ x ∧ x < s.stop

instance (s : Span) (x : Nat) : Decidable (s.Mem x) := inferInstanceAs (Decidable (_ ∧ _))

/-- The index `x` lies in one of the spans. -/
def Covers (l : List Span) (x : Nat) : Prop := ∃ s ∈ l, s.Mem x

instance (l : List Span) (x : Nat) : Decidable (Covers l x) :=
  inferInstanceAs (Decidable (∃ s ∈ l, s.Mem x))

/-- Ordered, and with at least one index between neighbours. -/
def Separated (l : List Span) : Prop := l.Pairwise fun s t => s.stop < t.start

/-- Every span ends by `n`. -/
def Inside (l : List Span) (n : Nat) : Prop := ∀ s ∈ l, s.stop ≤ n

/-- The length of all spans together. -/
def total : List Span → Nat
  | [] => 0
  | s :: l => s.len + total l

@[simp] theorem total_nil : total [] = 0 := rfl
@[simp] theorem total_cons (s : Span) (l : List Span) : total (s :: l) = s.len + total l := rfl
@[simp] theorem total_append (l m : List Span) : total (l ++ m) = total l + total m := by
  induction l with
  | nil => simp
  | cons s l ih => rw [List.cons_append, total_cons, total_cons, ih, Nat.add_assoc]

@[simp] theorem covers_nil (x : Nat) : ¬ Covers [] x := by simp [Covers]
@[simp] theorem covers_cons (s : Span) (l : List Span) (x : Nat) :
    Covers (s :: l) x ↔ s.Mem x ∨ Covers l x := by simp [Covers]
@[simp] theorem covers_append (l m : List Span) (x : Nat) :
    Covers (l ++ m) x ↔ Covers l x ∨ Covers m x := by
  simp only [Covers, List.mem_append, or_and_right, exists_or]

/-- A span that lies between two separated lists, apart from both. -/
theorem Separated.insert {l m : List Span} {s : Span} (h : Separated (l ++ m))
    (hl : ∀ t ∈ l, t.stop < s.start) (hm : ∀ t ∈ m, s.stop < t.start) :
    Separated (l ++ s :: m) := by
  obtain ⟨hl', hm', hlm⟩ := List.pairwise_append.mp h
  refine List.pairwise_append.mpr ⟨hl', List.pairwise_cons.mpr ⟨hm, hm'⟩, ?_⟩
  rintro t ht u hu
  rcases List.mem_cons.mp hu with rfl | hu
  · exact hl t ht
  · exact hlm t ht u hu

/-- Spans in the middle of a separated list replaced by one that reaches neither side. -/
theorem Separated.merge {l m k : List Span} {s : Span} (h : Separated (l ++ (m ++ k)))
    (hl : ∀ t ∈ l, t.stop < s.start) (hk : ∀ t ∈ k, s.stop < t.start) :
    Separated (l ++ s :: k) := by
  have hsub : (l ++ k).Sublist (l ++ (m ++ k)) :=
    (List.Sublist.refl l).append (List.sublist_append_right m k)
  exact Separated.insert (List.Pairwise.sublist hsub h) hl hk

/-- The covered indices below `n` are as many as the spans are long. -/
theorem total_eq_card {l : List Span} (h : Separated l) {n : Nat} (hn : Inside l n) :
    total l = ((Finset.range n).filter (Covers l)).card := by
  induction l with
  | nil => simp
  | cons s l ih =>
    obtain ⟨hs, hl⟩ := List.pairwise_cons.mp h
    have hstop : s.stop ≤ n := hn s List.mem_cons_self
    have hsplit : (Finset.range n).filter (Covers (s :: l)) =
        Finset.Ico s.start s.stop ∪ (Finset.range n).filter (Covers l) := by
      ext x
      simp only [Finset.mem_filter, Finset.mem_range, covers_cons, Finset.mem_union,
        Finset.mem_Ico, Mem]
      grind
    have hdisj : Disjoint (Finset.Ico s.start s.stop) ((Finset.range n).filter (Covers l)) := by
      rw [Finset.disjoint_left]
      intro x hx hx'
      obtain ⟨t, ht, hmem⟩ := (Finset.mem_filter.mp hx').2
      have hafter := hs t ht
      rw [Finset.mem_Ico] at hx
      grind
    rw [hsplit, Finset.card_union_of_disjoint hdisj, Nat.card_Ico, total_cons,
      ih hl fun t ht => hn t (List.mem_cons_of_mem s ht)]
    simp [stop]

/-- The spans are as long as the range exactly when they cover it. -/
theorem total_eq_iff {l : List Span} (h : Separated l) {n : Nat} (hn : Inside l n) :
    total l = n ↔ ∀ x < n, Covers l x := by
  rw [total_eq_card h hn]
  constructor
  · intro hcard x hx
    have hall : (Finset.range n).filter (Covers l) = Finset.range n :=
      Finset.eq_of_subset_of_card_le (Finset.filter_subset _ _) (by simp [hcard])
    have hmem : x ∈ (Finset.range n).filter (Covers l) := by simpa [hall] using hx
    exact (Finset.mem_filter.mp hmem).2
  · intro hall
    rw [Finset.filter_true_of_mem fun x hx => hall x (Finset.mem_range.mp hx), Finset.card_range]

/-- A separated list that is as long as the range is one span. -/
theorem eq_whole {l : List Span} (h : Separated l) {n : Nat} (hn : Inside l n)
    (hne : l ≠ []) (ht : total l = n) : l = [⟨0, n⟩] := by
  have hall := (total_eq_iff h hn).mp ht
  cases l with
  | nil => exact absurd rfl hne
  | cons s rest =>
    obtain ⟨hs, _⟩ := List.pairwise_cons.mp h
    have hstop : s.stop ≤ n := hn s List.mem_cons_self
    have hrest : rest = [] := by
      -- the index at which the first span stops would be covered by nothing
      by_contra hmore
      obtain ⟨t, ht'⟩ := List.exists_mem_of_ne_nil rest hmore
      have hgap := hs t ht'
      have hend : t.stop ≤ n := hn t (List.mem_cons_of_mem s ht')
      obtain ⟨u, hu, hmem⟩ := hall s.stop (by grind)
      rcases List.mem_cons.mp hu with rfl | hu
      · grind
      · have := hs u hu
        grind
    subst hrest
    obtain ⟨start, len⟩ := s
    simp only [total_cons, total_nil, Nat.add_zero] at ht
    subst ht
    have hzero : start = 0 := by grind
    rw [hzero]

end Span

end LitexDtls.Library
