import Mathlib.Tactic.SplitIfs
import SchemaLedger.Json.Record

/-! Strings are read back from the text that they are printed as, whatever characters they have. -/

namespace SchemaLedger.Json

/-- Each of the sixteen digits is read back as its own value. -/
theorem hexValue?_hexDigit : ∀ n < 16, hexValue? (hexDigit n) = some n := by decide

/-- The four digits of a control character are read back as its code. -/
theorem hexQuad?_control {code : Nat} (small : code < 0x20) :
    hexQuad? '0' '0' (hexDigit (code / 16)) (hexDigit (code % 16)) = some code := by
  have zero : hexValue? '0' = some 0 := by decide
  -- The code of a control character has two digits, of which the first is small.
  have high := hexValue?_hexDigit (code / 16) (by omega)
  have low := hexValue?_hexDigit (code % 16) (by omega)
  simp [hexQuad?, zero, high, low]
  omega

section Body

variable {c e : Char} {text : List Char}

/-- What is read behind a character is put behind it. -/
def prepended (c : Char) : Except ReadError (List Char × List Char) →
    Except ReadError (List Char × List Char) :=
  Except.map fun (body, rest) => (c :: body, rest)

/-- A character that needs no escape stands for itself. -/
theorem stringBody_plain (noQuote : c ≠ '"') (noEscape : c ≠ '\\') (large : ¬ c.toNat < 0x20) :
    stringBody (c :: text) = prepended c (stringBody text) := by
  -- None of the three tests that treat a character otherwise applies.
  rw [stringBody.eq_def]
  simp only [noQuote, noEscape, large, if_false]
  rfl

/-- A short escape stands for one character. -/
theorem stringBody_short {meant : Char} (known : shortEscape? e = some meant) :
    stringBody ('\\' :: e :: text) = prepended meant (stringBody text) := by
  -- A short escape is not mistaken for the start of a numbered one.
  have other : e ≠ 'u' := by
    rintro rfl
    cases known
  rw [stringBody.eq_def]
  simp [other, known]
  rfl

/-- A numbered escape stands for the character of its code, unless it is half of a pair. -/
theorem stringBody_numbered {a b d : Char} {code : Nat} (known : hexQuad? a b d e = some code)
    (whole : code < 0xD800) :
    stringBody ('\\' :: 'u' :: a :: b :: d :: e :: text) =
      prepended (Char.ofNat code) (stringBody text) := by
  -- Below the surrogates a number stands for a character by itself.
  have noHalf : ¬ (0xDC00 ≤ code ∧ code ≤ 0xDFFF) := by omega
  rw [stringBody.eq_def]
  simp [known, noHalf, whole]
  rfl

/-- A character is read back from what it appears as, in front of what is read behind it. -/
theorem stringBody_escapedChar (c : Char) (text : List Char) :
    stringBody (escapedChar c ++ text) = prepended c (stringBody text) := by
  unfold escapedChar
  -- The cases are those of the printer: quotes, named escapes, numbered ones, all others.
  split_ifs with quoted backspace tab newline feed carriage control
  · rcases quoted with rfl | rfl <;> exact stringBody_short rfl
  iterate 5
    · subst c
      exact stringBody_short rfl
  · refine (stringBody_numbered (hexQuad?_control control) (by omega)).trans ?_
    rw [Char.ofNat_toNat]
    rfl
  · obtain ⟨noQuote, noEscape⟩ := not_or.mp quoted
    exact stringBody_plain noQuote noEscape control

end Body

/-- The characters of a string are read back up to the quote that closes it. -/
theorem stringBody_escaped (chars rest : List Char) :
    stringBody (chars.flatMap escapedChar ++ '"' :: rest) = .ok (chars, rest) := by
  -- The quote that closes the string is the first that is not escaped.
  induction chars with
  | nil =>
    rw [List.flatMap_nil, List.nil_append, stringBody.eq_def]
    rfl
  | cons c chars ih =>
    rw [List.flatMap_cons, List.append_assoc, stringBody_escapedChar, ih]
    rfl

/-- A string is read back where a value written as a string is asked for. -/
theorem readTextAs_stringText (expected value : String) (rest : List Char) :
    readTextAs expected (stringText value ++ rest) = .ok (value, rest) := by
  -- The opening quote says that a text comes, and the closing one ends it.
  simp [readTextAs, stringText, skipSpaces, isSpace, stringBody_escaped, bind, Except.bind, pure,
    Except.pure]

/-- A string is read back where a string is asked for. -/
theorem readText_stringText (value : String) (rest : List Char) :
    readText (stringText value ++ rest) = .ok (value, rest) :=
  -- What kind of text was expected matters in errors only.
  readTextAs_stringText _ value rest

end SchemaLedger.Json
