import LitexDtls.Library.CText
import Mathlib.Data.List.DropRight

/-!
# Certificates as C arrays

`file_to_c_array` and `main` of `certs_dilithium_to_header.py` and `certs_to_header.py`,
which differ in their file names, array names and banner. The three files are parameters.

The array text is written in lines of twelve bytes, each with a separator at its end, and
the last separator is taken off by `rstrip`. What is left of the lines is `body`, which
lexes to the literals with a comma between any two of them.
-/
namespace LitexDtls.Host
open Library

/-- `sep.join(parts)`. -/
def join (sep : List Char) : List (List Char) → List Char
  | [] => []
  | [p] => p
  | p :: ps => p ++ sep ++ join sep ps

/-- `text.rstrip(chars)`. -/
def rstrip (chars : List Char) (text : List Char) : List Char :=
  text.rdropWhile fun c => decide (c ∈ chars)

/-- `f'0x{b:02x}'`. -/
def hexByte (b : UInt8) : List Char :=
  ['0', 'x', Nat.digitChar (b.toNat / 16), Nat.digitChar (b.toNat % 16)]

/-- `', '.join(f'0x{b:02x}' for b in chunk)`. -/
def hexValues (chunk : List UInt8) : List Char := join ", ".toList (chunk.map hexByte)

/-- The text that the loop over the chunks of twelve bytes adds. -/
def chunkLines (data : List UInt8) : List Char :=
  match data with
  | [] => []
  | b :: rest =>
    "    ".toList ++ hexValues ((b :: rest).take 12) ++ ",\n".toList ++ chunkLines (rest.drop 11)
termination_by data.length
decreasing_by simp only [List.length_drop, List.length_cons]; omega

/-- `file_to_c_array`, on the contents of the file. -/
def fileToCArray (data : List UInt8) (varName : List Char) : List Char :=
  let cArray := "static const unsigned char ".toList ++ varName ++ "[] = \x7b\n".toList
  let cArray := cArray ++ chunkLines data
  let cArray := rstrip ",\n".toList cArray ++ "\n".toList
  let cArray := cArray ++ "\x7d;\n".toList
  cArray ++ "static const unsigned int ".toList ++ varName ++ "_len = ".toList ++
    Nat.toDigits 10 data.length ++ ";\n\n".toList

/-- What a script puts around and into the arrays: comments, preprocessor lines and names. -/
structure Script where
  banner : List Char
  caName : List Char
  clientCertName : List Char
  clientKeyName : List Char
  closing : List Char
  banner_lexes : Lexes banner []
  closing_lexes : Lexes closing []
  names : IsWord caName ∧ IsWord clientCertName ∧ IsWord clientKeyName

/-- The header text of `main`. -/
def Script.header (script : Script) (ca clientCert clientKey : List UInt8) : List Char :=
  script.banner ++ fileToCArray ca script.caName ++
    fileToCArray clientCert script.clientCertName ++
    fileToCArray clientKey script.clientKeyName ++ script.closing

def certsDilithiumToHeader : Script where
  banner := ("/* Auto-generated Dilithium certificate data for embedded DTLS client */\n" ++
    "/* Post-Quantum Cryptography (PQC) certificates */\n" ++
    "#ifndef CERTS_DILITHIUM_DATA_H\n" ++ "#define CERTS_DILITHIUM_DATA_H\n\n").toList
  caName := "ca_cert_dilithium_der".toList
  clientCertName := "client_cert_dilithium_der".toList
  clientKeyName := "client_key_dilithium_der".toList
  closing := "#endif /* CERTS_DILITHIUM_DATA_H */\n".toList
  banner_lexes := by decide +kernel
  closing_lexes := by decide +kernel
  names := by decide

def certsToHeader : Script where
  banner := ("/* Auto-generated certificate data for embedded DTLS client */\n" ++
    "#ifndef CERTS_DATA_H\n" ++ "#define CERTS_DATA_H\n\n").toList
  caName := "ca_cert_der".toList
  clientCertName := "client_cert_der".toList
  clientKeyName := "client_key_der".toList
  closing := "#endif /* CERTS_DATA_H */\n".toList
  banner_lexes := by decide +kernel
  closing_lexes := by decide +kernel
  names := by decide

/-! ## Literals of bytes -/

theorem isWord_hexByte (b : UInt8) : IsWord (hexByte b) := by
  have hb := b.toNat_lt
  refine ⟨by simp [hexByte], fun c hc => ?_⟩
  simp only [hexByte, List.mem_cons, List.not_mem_nil, or_false] at hc
  rcases hc with rfl | rfl | rfl | rfl
  · rfl
  · rfl
  · exact isWordChar_digitChar _ (by omega)
  · exact isWordChar_digitChar _ (by omega)

theorem literal_hexByte (b : UInt8) : literal (hexByte b) = some b.toNat := by
  have hb := b.toNat_lt
  have high := hexDigit_digitChar (b.toNat / 16) (by omega)
  have low := hexDigit_digitChar (b.toNat % 16) (by omega)
  simp only [hexByte, literal, hexLiteral, high, low, Option.bind_some]
  congr 1
  omega

/-! ## The lines of an array -/

/-- The tokens between the braces. -/
def elemTokens : List UInt8 → List Token
  | [] => []
  | [b] => [.word (hexByte b)]
  | b :: rest => .word (hexByte b) :: .punct ',' :: elemTokens rest

theorem elemTokens_cons (b : UInt8) {rest : List UInt8} (h : rest ≠ []) :
    elemTokens (b :: rest) = .word (hexByte b) :: .punct ',' :: elemTokens rest := by
  cases rest with
  | nil => exact absurd rfl h
  | cons c rest => rfl

theorem elemTokens_append {chunk rest : List UInt8} (hc : chunk ≠ []) (hr : rest ≠ []) :
    elemTokens (chunk ++ rest) = elemTokens chunk ++ .punct ',' :: elemTokens rest := by
  induction chunk with
  | nil => exact absurd rfl hc
  | cons b chunk ih =>
    rw [List.cons_append, elemTokens_cons b (by simp [hr])]
    by_cases h : chunk = []
    · simp [h, elemTokens]
    · rw [ih h, elemTokens_cons b h]
      rfl

/-- A chunk ends where a character follows that is not part of a word. -/
theorem lexes_hexValues {chunk : List UInt8} (h : chunk ≠ []) {c : Char} {l : List Char}
    {ts : List Token} (hc : isWordChar c = false) (hl : Lexes (c :: l) ts) :
    Lexes (hexValues chunk ++ c :: l) (elemTokens chunk ++ ts) := by
  induction chunk with
  | nil => exact absurd rfl h
  | cons b chunk ih =>
    cases chunk with
    | nil => exact Lexes.word (isWord_hexByte b) hc hl
    | cons d rest =>
      have sep : Lexes ", ".toList [.punct ','] := by decide
      have tail := sep.append (ih (by simp))
      have text : hexValues (b :: d :: rest) ++ c :: l =
          hexByte b ++ ',' :: (' ' :: (hexValues (d :: rest) ++ c :: l)) := by
        simp [hexValues, join]
      rw [text]
      exact Lexes.word (isWord_hexByte b) (by decide) tail

theorem hexValues_last {chunk : List UInt8} (h : chunk ≠ []) :
    ∃ x d, hexValues chunk = x ++ [d] ∧ isWordChar d = true := by
  induction chunk with
  | nil => exact absurd rfl h
  | cons b chunk ih =>
    cases chunk with
    | nil =>
      have hb := b.toNat_lt
      exact ⟨['0', 'x', Nat.digitChar (b.toNat / 16)], Nat.digitChar (b.toNat % 16), rfl,
        isWordChar_digitChar _ (by omega)⟩
    | cons d rest =>
      obtain ⟨x, e, hx, he⟩ := ih (by simp)
      have text : hexValues (b :: d :: rest) = hexByte b ++ ", ".toList ++ hexValues (d :: rest) :=
        rfl
      exact ⟨hexByte b ++ ", ".toList ++ x, e, by rw [text, hx, ← List.append_assoc], he⟩

/-- The lines without the last separator. -/
def body (data : List UInt8) : List Char :=
  match data with
  | [] => []
  | b :: rest =>
    "    ".toList ++ hexValues ((b :: rest).take 12) ++
      if rest.drop 11 = [] then [] else ",\n".toList ++ body (rest.drop 11)
termination_by data.length
decreasing_by simp only [List.length_drop, List.length_cons]; omega

theorem chunkLines_eq {data : List UInt8} (h : data ≠ []) :
    chunkLines data = body data ++ ",\n".toList := by
  fun_induction body data with
  | case1 => exact absurd rfl h
  | case2 b rest ih =>
    rw [chunkLines]
    split_ifs with htail
    · rw [htail, chunkLines]
      simp
    · rw [ih htail]
      simp

theorem body_last {data : List UInt8} (h : data ≠ []) :
    ∃ x d, body data = x ++ [d] ∧ isWordChar d = true := by
  fun_induction body data with
  | case1 => exact absurd rfl h
  | case2 b rest ih =>
    split_ifs with htail
    · obtain ⟨x, d, hx, hd⟩ := hexValues_last (show (b :: rest).take 12 ≠ [] by simp)
      exact ⟨"    ".toList ++ x, d, by rw [hx]; simp, hd⟩
    · obtain ⟨x, d, hx, hd⟩ := ih htail
      exact ⟨_, d, by rw [hx, ← List.append_assoc, ← List.append_assoc], hd⟩

/-- The lines lex to the literals, separated by commas. -/
theorem lexes_body {data : List UInt8} (h : data ≠ []) :
    Lexes (body data ++ "\n".toList) (elemTokens data) := by
  have indent : Lexes "    ".toList [] := by decide
  fun_induction body data with
  | case1 => exact absurd rfl h
  | case2 b rest ih =>
    have hchunk : (b :: rest).take 12 ≠ [] := by simp
    split_ifs with htail
    · have hall : (b :: rest).take 12 = b :: rest := by
        have hlen := List.drop_eq_nil_iff.mp htail
        exact List.take_of_length_le (by simp; omega)
      have newline : Lexes ['\n'] [] := by decide
      have values := indent.append (lexes_hexValues hchunk (by decide) newline)
      rw [hall] at values ⊢
      simpa using values
    · have sep : Lexes [',', '\n'] [.punct ','] := by decide
      have rest_lexes := sep.append (ih htail)
      have values := indent.append (lexes_hexValues hchunk (by decide) rest_lexes)
      have split : b :: rest = (b :: rest).take 12 ++ rest.drop 11 :=
        (List.take_append_drop 12 (b :: rest)).symm
      rw [split, elemTokens_append hchunk htail, ← split]
      simpa using values

/-! ## One array -/

/-- `rstrip` takes off a separator behind a character that it keeps. -/
theorem rstrip_sep (x : List Char) {d : Char} (hd : isWordChar d = true ∨ d = '{')
    {sep : List Char} (hsep : ∀ c ∈ sep, c ∈ ",\n".toList) :
    rstrip ",\n".toList (x ++ [d] ++ sep) = x ++ [d] := by
  have keep : d ∉ ",\n".toList := by
    rintro hmem
    simp at hmem
    rcases hd with hd | rfl
    · rcases hmem with rfl | rfl <;> exact absurd hd (by decide)
    · revert hmem
      decide
  unfold rstrip
  induction sep using List.reverseRecOn with
  | nil => rw [List.append_nil, List.rdropWhile_concat_neg _ _ _ (by simpa using keep)]
  | append_singleton sep c ih =>
    rw [← List.append_assoc, List.rdropWhile_concat_pos]
    · exact ih fun e he => hsep e (List.mem_append_left _ he)
    · simpa using hsep c (by simp)

/-- The text between the opening brace and the closing one, as `file_to_c_array` leaves it. -/
theorem lexes_stripped (data : List UInt8) {front : List Char} {ts : List Token}
    (h : Lexes (front ++ "\x7b\n".toList) ts) :
    Lexes (rstrip ",\n".toList (front ++ "\x7b\n".toList ++ chunkLines data) ++ "\n".toList)
      (ts ++ elemTokens data) := by
  by_cases hd : data = []
  · subst hd
    have newline : ∀ c ∈ ['\n'], c ∈ ",\n".toList := by simp
    have strip := rstrip_sep front (d := '{') (.inr rfl) newline
    have text : front ++ "\x7b\n".toList ++ chunkLines [] = front ++ ['{'] ++ ['\n'] := by
      simp [chunkLines]
    rw [text, strip]
    simpa [elemTokens] using h
  · obtain ⟨x, d, hx, hword⟩ := body_last hd
    have strip := rstrip_sep (front ++ "\x7b\n".toList ++ x) (.inl hword)
      fun c (hc : c ∈ ",\n".toList) => hc
    have text : front ++ "\x7b\n".toList ++ chunkLines data =
        front ++ "\x7b\n".toList ++ x ++ [d] ++ ",\n".toList := by
      rw [chunkLines_eq hd, hx]
      simp
    have all := h.append (lexes_body hd)
    rw [text, strip]
    rw [hx] at all
    simpa using all

/-- The name of the length constant. -/
def lenName (varName : List Char) : List Char := varName ++ "_len".toList

def arrayStatement (data : List UInt8) (varName : List Char) : List Token :=
  [.word "static".toList, .word "const".toList, .word "unsigned".toList, .word "char".toList,
    .word varName, .punct '[', .punct ']', .punct '=', .punct '{'] ++
    elemTokens data ++ [.punct '}']

def lengthStatement (data : List UInt8) (varName : List Char) : List Token :=
  [.word "static".toList, .word "const".toList, .word "unsigned".toList, .word "int".toList,
    .word (lenName varName), .punct '=', .word (Nat.toDigits 10 data.length)]

def fileTokens (data : List UInt8) (varName : List Char) : List Token :=
  arrayStatement data varName ++ .punct ';' ::
    (lengthStatement data varName ++ .punct ';' :: [])

theorem isWord_lenName {varName : List Char} (h : IsWord varName) : IsWord (lenName varName) := by
  refine ⟨by simp [lenName, h.1], fun c hc => ?_⟩
  rcases List.mem_append.mp hc with hc | hc
  · exact h.2 c hc
  · have suffix : IsWord "_len".toList := by decide
    exact suffix.2 c hc

theorem lexes_fileToCArray (data : List UInt8) {varName : List Char} (h : IsWord varName) :
    Lexes (fileToCArray data varName) (fileTokens data varName) := by
  have opening : Lexes "static const unsigned char ".toList
      [.word "static".toList, .word "const".toList, .word "unsigned".toList,
        .word "char".toList] := by decide
  have bracket : Lexes ('[' :: "] = \x7b\n".toList)
      [.punct '[', .punct ']', .punct '=', .punct '{'] := by decide
  have front : Lexes ("static const unsigned char ".toList ++ varName ++ "[] = ".toList ++
      "\x7b\n".toList) (["static", "const", "unsigned", "char"].map (fun w => .word w.toList) ++
        [.word varName, .punct '[', .punct ']', .punct '=', .punct '{']) := by
    simpa using opening.append (Lexes.word h (by decide) bracket)
  have lines := lexes_stripped data front
  have closing : Lexes "\x7d;\nstatic const unsigned int ".toList
      [.punct '}', .punct ';', .word "static".toList, .word "const".toList,
        .word "unsigned".toList, .word "int".toList] := by decide
  have semicolon : Lexes (';' :: "\n\n".toList) [.punct ';'] := by decide
  have equals : Lexes (' ' :: "= ".toList) [.punct '='] := by decide
  have number := equals.append (Lexes.word (isWord_toDigits data.length) (by decide) semicolon)
  have constant := closing.append (Lexes.word (isWord_lenName h) (by decide) number)
  have all := lines.append constant
  simpa [fileToCArray, fileTokens, arrayStatement, lengthStatement, lenName] using all

theorem parseElems_elemTokens (data : List UInt8) :
    parseElems (elemTokens data ++ [.punct '}']) = some data := by
  induction data with
  | nil => rfl
  | cons b rest ih =>
    by_cases h : rest = []
    · simp [h, elemTokens, parseElems, literal_hexByte]
    · rw [elemTokens_cons b h]
      simp [parseElems, literal_hexByte, ih]

theorem parse_arrayStatement (data : List UInt8) (varName : List Char) :
    parseDecl (arrayStatement data varName) = some (.array varName data) := by
  simp [parseDecl, arrayStatement, parseRest, parseElems_elemTokens]

theorem parse_lengthStatement (data : List UInt8) (varName : List Char) :
    parseDecl (lengthStatement data varName) =
      some (.const (lenName varName) (UInt32.ofNat data.length)) := by
  simp [parseDecl, lengthStatement, parseRest, literal_toDigits]

theorem no_semicolon (data : List UInt8) : Token.punct ';' ∉ elemTokens data := by
  induction data with
  | nil => simp [elemTokens]
  | cons b rest ih =>
    by_cases h : rest = []
    · simp [h, elemTokens]
    · rw [elemTokens_cons b h]
      simpa using ih

theorem statements_fileTokens (data : List UInt8) (varName : List Char) (ts : List Token) :
    statements [] (fileTokens data varName ++ ts) =
      (statements [] ts).map fun stmts =>
        arrayStatement data varName :: lengthStatement data varName :: stmts := by
  have array : Token.punct ';' ∉ arrayStatement data varName := by
    simpa [arrayStatement] using no_semicolon data
  have length : Token.punct ';' ∉ lengthStatement data varName := by simp [lengthStatement]
  rw [fileTokens, List.append_assoc, List.cons_append, List.append_assoc,
    statements_cons [] _ _ array, List.cons_append, statements_cons [] _ _ length]
  simp [Function.comp_def]

/-! ## The header -/

/-- The header reads back as the three arrays and their lengths, in the order of the files. The
length constants have the 32 bits of an `unsigned int`. -/
theorem readC_header (script : Script) (ca clientCert clientKey : List UInt8) :
    readC (script.header ca clientCert clientKey) = some
      [.array script.caName ca,
        .const (lenName script.caName) (UInt32.ofNat ca.length),
        .array script.clientCertName clientCert,
        .const (lenName script.clientCertName) (UInt32.ofNat clientCert.length),
        .array script.clientKeyName clientKey,
        .const (lenName script.clientKeyName) (UInt32.ofNat clientKey.length)] := by
  obtain ⟨hca, hcert, hkey⟩ := script.names
  have text := (((script.banner_lexes.append (lexes_fileToCArray ca hca)).append
    (lexes_fileToCArray clientCert hcert)).append
      (lexes_fileToCArray clientKey hkey)).append script.closing_lexes
  rw [readC, Script.header, text.lex_eq, List.nil_append, List.append_assoc, List.append_assoc,
    statements_fileTokens, statements_fileTokens, statements_fileTokens]
  simp [statements, parse_arrayStatement, parse_lengthStatement]

/-- Reading the header back as C gives exactly the three byte strings, in order, and their
lengths as far as an `unsigned int` holds them. -/
theorem header_round_trip (script : Script) (ca clientCert clientKey : List UInt8) :
    ∃ caLen clientCertLen clientKeyLen : UInt32,
      readC (script.header ca clientCert clientKey) = some
        [.array script.caName ca, .const (lenName script.caName) caLen,
          .array script.clientCertName clientCert,
          .const (lenName script.clientCertName) clientCertLen,
          .array script.clientKeyName clientKey,
          .const (lenName script.clientKeyName) clientKeyLen] ∧
      caLen.toNat = ca.length % UInt32.size ∧
      clientCertLen.toNat = clientCert.length % UInt32.size ∧
      clientKeyLen.toNat = clientKey.length % UInt32.size :=
  ⟨_, _, _, readC_header script ca clientCert clientKey, UInt32.toNat_ofNat', UInt32.toNat_ofNat',
    UInt32.toNat_ofNat'⟩

/-- A file of `2 ^ 32` bytes reads back with the length 0. -/
theorem header_length_wraps :
    ¬ ∀ (script : Script) (ca clientCert clientKey : List UInt8),
      ∃ caLen clientCertLen clientKeyLen : UInt32,
        readC (script.header ca clientCert clientKey) = some
          [.array script.caName ca, .const (lenName script.caName) caLen,
            .array script.clientCertName clientCert,
            .const (lenName script.clientCertName) clientCertLen,
            .array script.clientKeyName clientKey,
            .const (lenName script.clientKeyName) clientKeyLen] ∧
        caLen.toNat = ca.length ∧ clientCertLen.toNat = clientCert.length ∧
        clientKeyLen.toNat = clientKey.length := by
  intro h
  obtain ⟨caLen, _, _, hread, hlen, _⟩ :=
    h certsDilithiumToHeader (List.replicate UInt32.size 0) [] []
  rw [List.length_replicate] at hlen
  have hlt := caLen.toNat_lt
  rw [hlen] at hlt
  exact absurd hlt (Nat.lt_irrefl _)

end LitexDtls.Host
