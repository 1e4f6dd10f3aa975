import Mathlib.Data.List.Basic

/-!
# Reading a fragment of C

A reader for C text that consists of comments, preprocessor lines, byte arrays
`static const unsigned char NAME[] = { … };` and constants
`static const unsigned int NAME = …;`. The lexer is a machine that reads one character at a
time. `Lexes l ts` says that it reads `l` as the tokens `ts` and is between tokens again
afterwards, so that texts which lex can be put one after the other.

An `unsigned int` has 32 bits and a literal that does not fit is reduced modulo `2 ^ 32`; a
literal with a leading zero is octal and is not read.
-/
namespace LitexDtls.Library

inductive Token where
  | word (w : List Char)
  | punct (c : Char)
  deriving DecidableEq, Repr

/-- State of the lexer. -/
inductive LexMode where
  | between
  | word (w : List Char)
  | slash
  | comment
  | star
  | line
  deriving DecidableEq, Repr

def isWordChar (c : Char) : Bool := c.isAlphanum || c == '_'

/-- A character between two tokens. -/
def lexBetween (c : Char) : List Token × LexMode :=
  if isWordChar c then ([], .word [c])
  else if c = '/' then ([], .slash)
  else if c = '#' then ([], .line)
  else if c.isWhitespace then ([], .between)
  else ([.punct c], .between)

def lexStep : LexMode → Char → List Token × LexMode
  | .between, c => lexBetween c
  | .word w, c =>
    if isWordChar c then ([], .word (w ++ [c]))
    else (.word w :: (lexBetween c).1, (lexBetween c).2)
  | .slash, c =>
    if c = '*' then ([], .comment)
    else if c = '/' then ([], .line)
    else (.punct '/' :: (lexBetween c).1, (lexBetween c).2)
  | .comment, c => ([], if c = '*' then .star else .comment)
  | .star, c => ([], if c = '/' then .between else if c = '*' then .star else .comment)
  | .line, c => ([], if c = '\n' then .between else .line)

def lexRun : LexMode → List Char → List Token × LexMode
  | m, [] => ([], m)
  | m, c :: l => ((lexStep m c).1 ++ (lexRun (lexStep m c).2 l).1, (lexRun (lexStep m c).2 l).2)

def lex (l : List Char) : List Token :=
  (lexRun .between l).1 ++
    match (lexRun .between l).2 with
    | .word w => [.word w]
    | .slash => [.punct '/']
    | _ => []

/-- The text `l` has the tokens `ts` and ends between two tokens. -/
def Lexes (l : List Char) (ts : List Token) : Prop := lexRun .between l = (ts, .between)

instance (l : List Char) (ts : List Token) : Decidable (Lexes l ts) :=
  inferInstanceAs (Decidable (_ = _))

theorem lexRun_append (m : LexMode) (l l' : List Char) :
    lexRun m (l ++ l') =
      ((lexRun m l).1 ++ (lexRun (lexRun m l).2 l').1, (lexRun (lexRun m l).2 l').2) := by
  induction l generalizing m with
  | nil => rfl
  | cons c l ih => simp [lexRun, ih]

theorem Lexes.append {l l' : List Char} {ts ts' : List Token} (h : Lexes l ts)
    (h' : Lexes l' ts') : Lexes (l ++ l') (ts ++ ts') := by
  unfold Lexes at *
  simp [lexRun_append, h, h']

theorem Lexes.lex_eq {l : List Char} {ts : List Token} (h : Lexes l ts) : lex l = ts := by
  unfold Lexes at h
  simp [lex, h]

/-- A word of the language: a name, a keyword or a number. -/
def IsWord (w : List Char) : Prop := w ≠ [] ∧ ∀ c ∈ w, isWordChar c = true

instance (w : List Char) : Decidable (IsWord w) :=
  haveI : Decidable (∀ c ∈ w, isWordChar c = true) := List.decidableBAll _ _
  inferInstanceAs (Decidable (_ ∧ _))

theorem lexRun_word (w v : List Char) (hv : ∀ c ∈ v, isWordChar c = true) :
    lexRun (.word w) v = ([], .word (w ++ v)) := by
  induction v generalizing w with
  | nil => simp [lexRun]
  | cons c v ih =>
    have hc := hv c List.mem_cons_self
    simp [lexRun, lexStep, hc, ih (w ++ [c]) fun d hd => hv d (List.mem_cons_of_mem c hd)]

/-- A word ends where a character follows that is not part of a word. -/
theorem Lexes.word {w : List Char} (hw : IsWord w) {c : Char} {l : List Char}
    {ts : List Token} (hc : isWordChar c = false) (h : Lexes (c :: l) ts) :
    Lexes (w ++ c :: l) (.word w :: ts) := by
  obtain ⟨d, v, rfl⟩ := List.exists_cons_of_ne_nil hw.1
  have hd := hw.2 d List.mem_cons_self
  have hrun : lexRun .between (d :: v) = ([], .word (d :: v)) := by
    have hv := lexRun_word [d] v fun c hc => hw.2 c (List.mem_cons_of_mem d hc)
    simp [lexRun, lexStep, lexBetween, hd, hv]
  unfold Lexes at *
  rw [lexRun_append, hrun]
  simp only [lexRun, lexStep, hc] at h ⊢
  simp_all

/-! ## Literals -/

/-- Value of a hexadecimal digit. -/
def hexDigit (c : Char) : Option Nat :=
  if c.isDigit then some (c.toNat - '0'.toNat)
  else if 'a' ≤ c ∧ c ≤ 'f' then some (c.toNat - 'a'.toNat + 10)
  else if 'A' ≤ c ∧ c ≤ 'F' then some (c.toNat - 'A'.toNat + 10)
  else none

def hexLiteral : Nat → List Char → Option Nat
  | v, [] => some v
  | v, c :: l => (hexDigit c).bind fun d => hexLiteral (16 * v + d) l

/-- Value of an integer literal. -/
def literal : List Char → Option Nat
  | '0' :: 'x' :: c :: l => hexLiteral 0 (c :: l)
  | '0' :: _ :: _ => none
  | l => if l ≠ [] ∧ l.all Char.isDigit then some (Nat.ofDigitChars 10 l 0) else none

theorem hexDigit_digitChar : ∀ d < 16, hexDigit (Nat.digitChar d) = some d := by decide

theorem isWordChar_digitChar : ∀ d < 16, isWordChar (Nat.digitChar d) = true := by decide

/-- A decimal number starts with a zero only if it is zero. -/
theorem head_toDigits {n : Nat} (h : n ≠ 0) : (Nat.toDigits 10 n).head? ≠ some '0' := by
  induction n using Nat.strongRecOn with
  | ind n ih =>
    by_cases hn : n < 10
    · simpa [Nat.toDigits_of_lt_base hn] using h
    · have head := ih (n / 10) (by omega) (by omega)
      rw [Nat.toDigits_of_base_le (by omega) (by omega), List.head?_append]
      cases hd : (Nat.toDigits 10 (n / 10)).head? with
      | none => simp at hd
      | some c => simpa [hd] using head

theorem literal_toDigits (n : Nat) : literal (Nat.toDigits 10 n) = some n := by
  by_cases hn : n = 0
  · subst hn
    decide
  · have head := head_toDigits hn
    have digits : ∀ c ∈ Nat.toDigits 10 n, c.isDigit = true :=
      fun c hc => Nat.isDigit_of_mem_toDigits (by omega) (by omega) hc
    have value := Nat.ofDigitChars_toDigits (n := n) (b := 10) (by omega) (by omega)
    have hne : Nat.toDigits 10 n ≠ [] := Nat.toDigits_ne_nil
    generalize Nat.toDigits 10 n = l at *
    unfold literal
    split
    · simp at head
    · simp at head
    · rw [if_pos ⟨hne, List.all_eq_true.mpr digits⟩, value]

theorem isWord_toDigits (n : Nat) : IsWord (Nat.toDigits 10 n) := by
  refine ⟨Nat.toDigits_ne_nil, fun c hc => ?_⟩
  have digit := Nat.isDigit_of_mem_toDigits (by omega) (by omega) hc
  simp [isWordChar, Char.isAlphanum, digit]

/-! ## Declarations -/

inductive Decl where
  | array (name : List Char) (bytes : List UInt8)
  | const (name : List Char) (value : UInt32)
  deriving DecidableEq, Repr

/-- The elements of an array up to the closing brace; a last comma is allowed. -/
def parseElems : List Token → Option (List UInt8)
  | [.punct '}'] => some []
  | [.word w, .punct '}'] => (literal w).map fun v => [UInt8.ofNat v]
  | .word w :: .punct ',' :: ts =>
    (literal w).bind fun v => (parseElems ts).map fun bytes => UInt8.ofNat v :: bytes
  | _ => none

/-- What follows the name in a declaration of type `unsigned t`. -/
def parseRest (t name : List Char) : List Token → Option Decl
  | .punct '[' :: .punct ']' :: .punct '=' :: .punct '{' :: ts =>
    if t = "char".toList then (parseElems ts).map (.array name) else none
  | [.punct '=', .word v] =>
    if t = "int".toList then (literal v).map fun n => .const name (UInt32.ofNat n) else none
  | _ => none

def parseDecl : List Token → Option Decl
  | .word s :: .word c :: .word u :: .word t :: .word name :: ts =>
    if s = "static".toList ∧ c = "const".toList ∧ u = "unsigned".toList then parseRest t name ts
    else none
  | _ => none

/-- The statements of a text, each up to its semicolon; `acc` is the current one. -/
def statements : List Token → List Token → Option (List (List Token))
  | acc, [] => if acc = [] then some [] else none
  | acc, t :: ts =>
    if t = .punct ';' then (statements [] ts).map (acc :: ·) else statements (acc ++ [t]) ts

/-- The declarations of a text. -/
def readC (text : List Char) : Option (List Decl) :=
  (statements [] (lex text)).bind fun stmts => stmts.mapM parseDecl

theorem statements_cons (acc stmt ts : List Token) (h : Token.punct ';' ∉ stmt) :
    statements acc (stmt ++ .punct ';' :: ts) =
      (statements [] ts).map ((acc ++ stmt) :: ·) := by
  induction stmt generalizing acc with
  | nil => simp [statements]
  | cons t stmt ih =>
    have ht : t ≠ .punct ';' := fun heq => h (heq ▸ List.mem_cons_self)
    have hrest : Token.punct ';' ∉ stmt := fun hmem => h (List.mem_cons_of_mem t hmem)
    rw [List.cons_append, statements, if_neg ht, ih _ hrest]
    simp

end LitexDtls.Library
