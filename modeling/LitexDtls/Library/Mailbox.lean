import Mathlib.Data.List.Basic

/-!
# One-place mailboxes

A mailbox holds at most one letter; a letter put into a full mailbox replaces the one that
nobody has taken yet. The histories `puts` and `takes` say what went in and what came out.

`Mailbox.Intact` is the absence of loss, duplication and reordering. A mailbox that is not
intact stays so, and a letter put into an intact mailbox keeps it intact exactly when the
mailbox was empty.
-/
namespace LitexDtls.Library

structure Mailbox (α : Type*) where
  cell : Option α
  puts : List α
  takes : List α

namespace Mailbox

variable {α : Type*}

def empty : Mailbox α := ⟨none, [], []⟩

def put (x : α) (m : Mailbox α) : Mailbox α := ⟨some x, m.puts ++ [x], m.takes⟩

def take (m : Mailbox α) : Mailbox α := ⟨none, m.puts, m.takes ++ m.cell.toList⟩

/-- What came out, followed by what is still inside, is what went in. -/
def Intact (m : Mailbox α) : Prop := m.takes ++ m.cell.toList = m.puts

/-- Nothing comes out that did not go in: no letter is counted twice. -/
def Bounded (m : Mailbox α) : Prop := m.takes.length + m.cell.toList.length ≤ m.puts.length

theorem empty_bounded : (empty : Mailbox α).Bounded := Nat.le_refl 0

theorem Bounded.put {m : Mailbox α} (h : m.Bounded) (x : α) : (m.put x).Bounded := by
  unfold Bounded at *
  simp [Mailbox.put]
  omega

theorem Bounded.take {m : Mailbox α} (h : m.Bounded) : m.take.Bounded := by
  simpa [Bounded, Mailbox.take] using h

theorem take_of_none {m : Mailbox α} (h : m.cell = none) : m.take = m := by
  obtain ⟨cell, puts, takes⟩ := m
  cases h
  simp [take]

theorem take_intact (m : Mailbox α) : m.take.Intact ↔ m.Intact := by
  simp [Intact, take]

/-- Replacing a letter that nobody has taken is the only way to lose one. -/
theorem put_intact {m : Mailbox α} (h : m.Bounded) (x : α) :
    (m.put x).Intact ↔ m.Intact ∧ m.cell = none := by
  have puts_of : (m.put x).Intact ↔ m.takes = m.puts := by simp [Intact, put]
  rw [puts_of]
  constructor
  · intro heq
    have hcell : m.cell = none := by
      cases hc : m.cell with
      | none => rfl
      | some y =>
        simp only [Bounded, hc, heq, Option.toList_some, List.length_singleton] at h
        omega
    exact ⟨by simpa [Intact, hcell] using heq, hcell⟩
  · rintro ⟨hi, hc⟩
    simpa [Intact, hc] using hi

theorem intact_of_cell_none {m : Mailbox α} (h : m.cell = none) :
    m.Intact ↔ m.takes = m.puts := by
  simp [Intact, h]

end Mailbox

end LitexDtls.Library
