import Mathlib.Data.List.Basic

/-!
# Strings that end in a zero byte

A C string is the list of its bytes before the terminating zero, none of which is zero, and
`strlen` and `strncmp` are the functions of the C library. `strncmp` finds no difference exactly
when two strings have the same first `n` bytes, so that a bound of `strlen t` asks for a prefix
and not for equality.
-/
namespace LitexDtls.Library

structure CString where
  bytes : List UInt8
  terminated : 0 ∉ bytes
  deriving DecidableEq

namespace CString

@[ext] theorem ext {s t : CString} (h : s.bytes = t.bytes) : s = t := by
  cases s
  cases t
  cases h
  rfl

def strlen (s : CString) : Nat := s.bytes.length

/-- Compare the bytes from the front, at most `n` of them and none behind a terminator, which
is what `headD` reads at the end of a list. -/
def compareBytes : Nat → List UInt8 → List UInt8 → Int
  | 0, _, _ => 0
  | n + 1, s, t =>
    let a := s.headD 0
    let b := t.headD 0
    if a ≠ b then a.toNat - b.toNat
    else if a = 0 then 0
    else compareBytes n s.tail t.tail

def strncmp (s t : CString) (n : Nat) : Int := compareBytes n s.bytes t.bytes

theorem compareBytes_eq_zero_iff (n : Nat) (s t : List UInt8) (hs : 0 ∉ s) (ht : 0 ∉ t) :
    compareBytes n s t = 0 ↔ s.take n = t.take n := by
  fun_induction compareBytes n s t with
  | case1 => simp
  | case2 n s t a b hne =>
    have hdiff : a.toNat ≠ b.toNat := fun h => hne (UInt8.toNat_inj.mp h)
    have htake : s.take (n + 1) ≠ t.take (n + 1) := by
      intro h
      apply hne
      cases s <;> cases t <;> grind
    grind
  | case3 n s t a b heq hzero =>
    cases s <;> cases t <;> grind
  | case4 n s t a b heq hzero ih =>
    cases s <;> cases t <;> grind

theorem strncmp_eq_zero_iff (s t : CString) (n : Nat) :
    strncmp s t n = 0 ↔ s.bytes.take n = t.bytes.take n :=
  compareBytes_eq_zero_iff n s.bytes t.bytes s.terminated t.terminated

/-- Bounded by the length of one string, the comparison asks whether that string is a prefix. -/
theorem strncmp_strlen_eq_zero_iff (s t : CString) :
    strncmp s t t.strlen = 0 ↔ t.bytes <+: s.bytes := by
  rw [strncmp_eq_zero_iff, strlen, List.take_length, List.prefix_iff_eq_take]
  exact eq_comm

end CString

end LitexDtls.Library
