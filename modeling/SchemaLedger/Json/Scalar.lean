import SchemaLedger.Json.Fault

/-! Strings, numbers and words are read from the front of a text, which leaves the rest of it. -/

namespace SchemaLedger.Json

/-- A reader takes a value off the front of a text. -/
abbrev Reader (α : Type) := List Char → Except ReadError (α × List Char)

/-- Malformed text noticed before the next character. -/
def malformedAt {α : Type} (cause : Malformed) (rest : List Char) : Except ReadError α :=
  .error ⟨.malformed cause, byteLength rest⟩

/-- Malformed text noticed one byte further on, unless the text has ended. -/
def malformedAhead {α : Type} (cause : Malformed) (rest : List Char) : Except ReadError α :=
  .error ⟨.malformed cause, byteLength rest - 1⟩

/-- The blanks that may stand between the parts of JSON text. -/
def isSpace (c : Char) : Bool := c = ' ' || c = '\n' || c = '\t' || c = '\r'

/-- The text from its first character other than a blank. -/
def skipSpaces (text : List Char) : List Char := text.dropWhile isSpace

/-- The value of a hexadecimal digit of either case. -/
def hexValue? (c : Char) : Option Nat :=
  if c.isDigit then some (c.toNat - '0'.toNat)
  else if 'a' ≤ c ∧ c ≤ 'f' then some (c.toNat - 'a'.toNat + 10)
  else if 'A' ≤ c ∧ c ≤ 'F' then some (c.toNat - 'A'.toNat + 10)
  else none

/-- The value of four hexadecimal digits. -/
def hexQuad? (a b c d : Char) : Option Nat := do
  let a ← hexValue? a
  let b ← hexValue? b
  let c ← hexValue? c
  let d ← hexValue? d
  return ((a * 16 + b) * 16 + c) * 16 + d

/-- The character that a short escape stands for. -/
def shortEscape? (c : Char) : Option Char :=
  match c with
  | '"' => some '"'
  | '\\' => some '\\'
  | '/' => some '/'
  | 'b' => some '\x08'
  | 'f' => some '\x0c'
  | 'n' => some '\n'
  | 'r' => some '\r'
  | 't' => some '\t'
  | _ => none

/-- The fault of an escape with less than four digits left, which counts bytes. -/
def cutEscape {α : Type} (rest : List Char) : Except ReadError α :=
  if byteLength rest < 4 then .error ⟨.malformed .endInString, 0⟩
  else .error ⟨.malformed .badEscape, byteLength rest - 4⟩

/-- The content of a string and the text behind its closing quote. -/
def stringBody : List Char → Except ReadError (List Char × List Char)
  | [] => malformedAt .endInString []
  | c :: rest =>
    if c = '"' then .ok ([], rest)
    else if c = '\\' then
      match rest with
      | [] => malformedAt .endInString []
      | e :: rest =>
        if e = 'u' then
          match rest with
          | h₁ :: h₂ :: h₃ :: h₄ :: after =>
            match hexQuad? h₁ h₂ h₃ h₄ with
            | none => cutEscape rest
            | some high =>
              -- The second half of a pair cannot come first.
              if 0xDC00 ≤ high ∧ high ≤ 0xDFFF then malformedAt .loneSurrogate after
              else if high < 0xD800 ∨ 0xDBFF < high then do
                let (body, rest) ← stringBody after
                return (Char.ofNat high :: body, rest)
              else
                -- The first half of a pair must be followed by an escape of the second half.
                match after with
                | [] => malformedAt .endInString []
                | '\\' :: [] => malformedAt .endInString []
                | '\\' :: 'u' :: l₁ :: l₂ :: l₃ :: l₄ :: last =>
                  match hexQuad? l₁ l₂ l₃ l₄ with
                  | none => cutEscape (l₁ :: l₂ :: l₃ :: l₄ :: last)
                  | some low =>
                    if 0xDC00 ≤ low ∧ low ≤ 0xDFFF then do
                      let (body, rest) ← stringBody last
                      let code := (high - 0xD800) * 0x400 + (low - 0xDC00) + 0x10000
                      return (Char.ofNat code :: body, rest)
                    else malformedAt .loneSurrogate last
                | '\\' :: 'u' :: few => cutEscape few
                | '\\' :: other => malformedAhead .brokenPair other
                | other => malformedAhead .brokenPair other
          | few => cutEscape few
        else
          match shortEscape? e with
          | none => malformedAhead .badEscape (e :: rest)
          | some meant => do
            let (body, rest) ← stringBody rest
            return (meant :: body, rest)
    else if c.toNat < 0x20 then malformedAt .controlCharacter rest
    else do
      let (body, rest) ← stringBody rest
      return (c :: body, rest)

/-- The text behind the closing quote of a string whose content does not matter. -/
def skipString : List Char → Except ReadError (List Char)
  | [] => malformedAt .endInString []
  | c :: rest =>
    if c = '"' then .ok rest
    else if c = '\\' then
      match rest with
      | [] => malformedAt .endInString []
      | e :: rest =>
        if e = 'u' then
          match rest with
          | h₁ :: h₂ :: h₃ :: h₄ :: after =>
            -- Halves of pairs are not checked where nobody asks for the characters.
            if (hexQuad? h₁ h₂ h₃ h₄).isSome then skipString after else cutEscape rest
          | few => cutEscape few
        else if (shortEscape? e).isSome then skipString rest
        else malformedAhead .badEscape (e :: rest)
    -- Unlike in a string that is read, the control character itself is left unread.
    else if c.toNat < 0x20 then malformedAt .controlCharacter (c :: rest)
    else skipString rest

/-- The parts of a number's text: digits before and behind the point, and an exponent. -/
structure NumberText where
  negative : Bool
  whole : List Char
  fraction : Option (List Char)
  exponent : Option (Bool × List Char)
  deriving DecidableEq, Repr

/-- The digits at the front of a text. -/
def takeDigits (text : List Char) : List Char × List Char := text.span Char.isDigit

/-- The digits of the whole part, where a leading zero stands alone. -/
def wholeDigits (cut : Malformed) (text : List Char) : Except ReadError (List Char × List Char) :=
  match text with
  | [] => malformedAt cut []
  | '0' :: rest =>
    if rest.head?.any Char.isDigit then malformedAhead .badNumber rest else .ok (['0'], rest)
  | c :: _ => if c.isDigit then .ok (takeDigits text) else
      .error ⟨.malformed .badNumber, byteLength text - 1⟩

/-- The digits behind a decimal point, of which there must be one. -/
def fractionDigits (cut : Malformed) (text : List Char) :
    Except ReadError (Option (List Char) × List Char) :=
  match text with
  | '.' :: rest =>
    let (digits, after) := takeDigits rest
    -- A text that ends at the point is cut short, and any other lacks a digit there.
    if digits.isEmpty then malformedAhead (if rest.isEmpty then cut else .badNumber) rest
    else .ok (some digits, after)
  | _ => .ok (none, text)

/-- The sign and digits of an exponent, of which there must be one. -/
def exponentDigits (cut : Malformed) (text : List Char) :
    Except ReadError (Option (Bool × List Char) × List Char) :=
  match text with
  | [] => .ok (none, text)
  | c :: rest =>
    if c = 'e' ∨ c = 'E' then
      let (negative, rest) := match rest with
        | '+' :: rest => (false, rest)
        | '-' :: rest => (true, rest)
        | _ => (false, rest)
      let (digits, after) := takeDigits rest
      if digits.isEmpty then malformedAhead (if rest.isEmpty then cut else .badNumber) rest
      else .ok (some (negative, digits), after)
    else .ok (none, text)

/-- The parts of a number behind its sign, and what to call a text that ends within them. -/
def numberText (cut : Malformed) (negative : Bool) (text : List Char) :
    Except ReadError (NumberText × List Char) := do
  let (whole, text) ← wholeDigits cut text
  let (fraction, text) ← fractionDigits cut text
  let (exponent, text) ← exponentDigits cut text
  return (⟨negative, whole, fraction, exponent⟩, text)

/-- The text behind a number whose value does not matter. -/
def skipNumber (negative : Bool) (text : List Char) : Except ReadError (List Char) :=
  (numberText .badNumber negative text).map (·.2)

/-- The value of the digits that keep it below a bound, and the digits that are left over. -/
def fittingDigits (bound value : Nat) : List Char → Nat × List Char
  | [] => (value, [])
  | c :: rest =>
    let next := value * 10 + (c.toNat - '0'.toNat)
    -- The first digit that does not fit ends the value, even if a later one would.
    if next < bound then fittingDigits bound next rest else (value, c :: rest)

/-- Exponents stay below this bound, which is that of integers of 32 bits. -/
def exponentBound : Nat := 2147483648

/-- A floating point number scaled by a power of ten, if the result is finite. -/
def scaled? (value : Binary64) (exponent : Int) : Nat → Option Binary64
  | 0 => none
  | fuel + 1 =>
    let power := fun n => Binary64.nearest false (Nat.pow 10 n) 1
    if exponent.natAbs ≤ 308 then
      if 0 ≤ exponent then
        let product := value.mul (power exponent.toNat)
        if product.isFinite then some product else none
      else some (value.div (power exponent.natAbs))
    else if value.magnitude = 0 then some value
    -- Powers of ten beyond the largest one are applied in steps.
    else if 0 ≤ exponent then none
    else scaled? (value.div (power 308)) (exponent + 308) fuel

/-- The number that a text stands for, unless it is too large. -/
def NumberText.value? (text : NumberText) : Option Number :=
  let (whole, spare) := fittingDigits UInt64.size 0 text.whole
  if text.fraction.isNone && text.exponent.isNone && spare.isEmpty then
    if !text.negative then some (.integer whole)
    else if 1 ≤ whole ∧ Int64.minValue.toInt ≤ -(whole : Int) then some (.integer (-whole))
    else some (.float (Binary64.nearest true whole 1))
  else
    let fraction := text.fraction.getD []
    let (digits, dropped) := fittingDigits UInt64.size whole fraction
    let shift : Int := spare.length - (fraction.length - dropped.length : Nat)
    let (down, power) := match text.exponent with
      | some (down, power) => (down, digitsValue power)
      | none => (false, 0)
    let zero := Binary64.ofMagnitude text.negative 0
    if exponentBound ≤ power then if digits = 0 ∨ down then some (.float zero) else none
    else
      let exponent := if down then shift - power else shift + power
      -- Three divisions bring any number of 64 bits down to zero.
      (scaled? (Binary64.nearest text.negative digits 1) exponent 4).map .float

/-- The digits of an exponent behind the one that makes it too large. -/
def NumberText.unreadExponent (text : NumberText) : List Char :=
  (text.exponent.map fun (_, digits) => (fittingDigits exponentBound 0 digits).2.drop 1).getD []

/-- A number behind its sign. -/
def readNumber (negative : Bool) (text : List Char) : Except ReadError (Number × List Char) := do
  let (parts, rest) ← numberText .endInValue negative text
  match parts.value? with
  | some value => return (value, rest)
  -- An exponent that is too large is noticed before its last digit.
  | none => malformedAt .numberTooLarge (parts.unreadExponent ++ rest)

/-- The rest of a word whose first letter has been seen. -/
def word : List Char → List Char → Except ReadError (List Char)
  | [], text => .ok text
  | _ :: _, [] => malformedAt .endInValue []
  | expected :: letters, c :: rest =>
    if c = expected then word letters rest else malformedAhead .unknownWord (c :: rest)

end SchemaLedger.Json
