/-! Texts are scanned for a pattern, and for characters with the Unicode property White_Space. -/

namespace SchemaLedger

/-- The text before the first occurrence of a pattern, and the text from that occurrence on. -/
def splitAtFirst? (pattern : List Char) : List Char → Option (List Char × List Char)
  | [] => if pattern.isEmpty then some ([], []) else none
  | c :: rest =>
    if pattern.isPrefixOf (c :: rest) then some ([], c :: rest)
    else (splitAtFirst? pattern rest).map fun (before, occurrence) => (c :: before, occurrence)

/-- The number of characters before the first occurrence of a pattern. -/
def firstIndex? (pattern text : List Char) : Option Nat :=
  (splitAtFirst? pattern text).map (·.1.length)

/-- The characters that count as space between other characters. -/
def isBlank (c : Char) : Bool :=
  let code := c.toNat
  (0x09 ≤ code && code ≤ 0x0d) || code == 0x20 || code == 0x85 || code == 0xa0 ||
    code == 0x1680 || (0x2000 ≤ code && code ≤ 0x200a) || code == 0x2028 || code == 0x2029 ||
    code == 0x202f || code == 0x205f || code == 0x3000

/-- A text without the blanks at its front. -/
def trimFront (text : List Char) : List Char := text.dropWhile isBlank

/-- A text without the blanks at its end. -/
def trimEnd (text : String) : String :=
  String.ofList (text.toList.reverse.dropWhile isBlank).reverse

end SchemaLedger
