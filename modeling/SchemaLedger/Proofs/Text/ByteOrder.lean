/-! Texts compare by their characters as they compare by their bytes. -/

namespace SchemaLedger

/-- The bytes of a text. -/
def utf8Bytes (text : String) : List UInt8 := text.toByteArray.data.toList

/-- A number in bytes: its last digits to base 64, behind what is left of it upon an offset. -/
def codeBytes (offset : Nat) : Nat → Nat → List UInt8
  | 0, value => [UInt8.ofNat (value + offset)]
  | trailing + 1, value =>
    codeBytes offset trailing (value / 64) ++ [UInt8.ofNat (value % 64 + 128)]

/-- What is left of a number when its last digits to base 64 are taken off. -/
def leadingPart : Nat → Nat → Nat
  | 0, value => value
  | trailing + 1, value => leadingPart trailing (value / 64)

/-- The offset of the first byte of a character, and how many bytes follow it. -/
def codeShape (value : Nat) : Nat × Nat :=
  if value ≤ 0x7f then (0, 0)
  else if value ≤ 0x7ff then (0xc0, 1)
  else if value ≤ 0xffff then (0xe0, 2)
  else (0xf0, 3)

/-- The first byte of a character as a number. -/
def firstByte (value : Nat) : Nat :=
  leadingPart (codeShape value).2 value + (codeShape value).1

section Bytes

variable {left right : Nat}

/-- Bytes compare as the numbers that they stand for. -/
theorem compare_ofNat (leftFits : left < 256) (rightFits : right < 256) :
    compare (UInt8.ofNat left) (UInt8.ofNat right) = compare left right := by
  -- Numbers that fit into a byte are compared as numbers.
  have same : UInt8.ofNat left = UInt8.ofNat right ↔ left = right := by
    rw [← UInt8.toNat_inj, UInt8.toNat_ofNat_of_lt' leftFits, UInt8.toNat_ofNat_of_lt' rightFits]
  have less : UInt8.ofNat left < UInt8.ofNat right ↔ left < right := by
    rw [UInt8.lt_iff_toNat_lt, UInt8.toNat_ofNat_of_lt' leftFits,
      UInt8.toNat_ofNat_of_lt' rightFits]
  simp only [compare, compareOfLessAndEq, same, less]

/-- Bytes that begin with different ones compare as those. -/
theorem compare_cons_of_lt (fits : right < 256) (before : left < right)
    (first second : List UInt8) :
    compare (UInt8.ofNat left :: first) (UInt8.ofNat right :: second) = .lt := by
  -- The first bytes decide, whatever comes behind them.
  rw [List.compare_cons_cons, compare_ofNat (by omega) fits, Nat.compare_eq_lt.mpr before]
  rfl

/-- What two lists of bytes begin with in common does not count when they are compared. -/
theorem compare_append_same (front first second : List UInt8) :
    compare (front ++ first) (front ++ second) = compare first second := by
  -- The common bytes compare equal one by one.
  induction front with
  | nil => rfl
  | cons byte rest ih =>
    have same : compare byte byte = .eq := Std.ReflOrd.compare_self
    rw [List.cons_append, List.cons_append, List.compare_cons_cons, same, ih]
    rfl

/-- The bytes of a number begin with its leading part. -/
theorem codeBytes_eq_cons (offset trailing value : Nat) :
    ∃ rest, codeBytes offset trailing value =
      UInt8.ofNat (leadingPart trailing value + offset) :: rest := by
  -- By induction on the trailing bytes: each takes six bits off the end.
  induction trailing generalizing value with
  | zero => exact ⟨[], rfl⟩
  | succ trailing ih =>
    obtain ⟨rest, same⟩ := ih (value / 64)
    refine ⟨rest ++ [UInt8.ofNat (value % 64 + 128)], ?_⟩
    rw [codeBytes, same, leadingPart]
    rfl

/-- Numbers compare as their bytes, if there are as many of them upon the same offset. -/
theorem compare_codeBytes {offset trailing : Nat}
    (fits : leadingPart trailing right + offset < 256) (before : left < right)
    (first second : List UInt8) :
    compare (codeBytes offset trailing left ++ first)
      (codeBytes offset trailing right ++ second) = .lt := by
  -- The induction takes off the last digit of both numbers, which counts only if the rest is equal.
  induction trailing generalizing left right first second with
  | zero =>
    simp only [leadingPart] at fits
    exact compare_cons_of_lt fits (by omega) first second
  | succ trailing ih =>
    rw [codeBytes, codeBytes, List.append_assoc, List.append_assoc]
    have quotients : left / 64 ≤ right / 64 := Nat.div_le_div_right (by omega)
    rcases Nat.lt_or_eq_of_le quotients with less | same
    · exact ih fits less _ _
    · rw [same, compare_append_same]
      exact compare_cons_of_lt (by omega) (by omega) first second

/-- The number of a character is below this bound. -/
theorem toNat_lt_bound (c : Char) : c.toNat < 0x110000 := by
  -- A character is valid, so that it is no code point beyond the last.
  have valid := c.valid
  simp only [UInt32.isValidChar, Nat.isValidChar] at valid
  show c.val.toNat < 0x110000
  omega

/-- The bytes of a character are those of its number, in the shape for numbers of its size. -/
theorem utf8EncodeChar_eq (c : Char) :
    String.utf8EncodeChar c = codeBytes (codeShape c.toNat).1 (codeShape c.toNat).2 c.toNat := by
  -- No code point needs more than the four bytes of the last shape.
  have bounded := toNat_lt_bound c
  have number : c.val.toNat = c.toNat := rfl
  simp only [String.utf8EncodeChar, codeShape, number]
  -- In each shape the first byte has enough bits for what is left of the number.
  split
  · rfl
  split
  · rw [Nat.mod_eq_of_lt (by omega : c.toNat / 64 < 32)]
    rfl
  split
  · rw [Nat.mod_eq_of_lt (by omega : c.toNat / 4096 < 16)]
    simp only [codeBytes, List.nil_append, List.cons_append, Nat.div_div_eq_div_mul, Nat.reduceMul]
  · rw [Nat.mod_eq_of_lt (by omega : c.toNat / 262144 < 8)]
    simp only [codeBytes, List.nil_append, List.cons_append, Nat.div_div_eq_div_mul, Nat.reduceMul]

/-- A greater number has the same shape as a smaller one, or else a greater first byte. -/
theorem codeShape_eq_or_lt (before : left < right) (bounded : right < 0x110000) :
    codeShape left = codeShape right ∨ firstByte left < firstByte right := by
  simp only [firstByte, codeShape]
  -- Each shape has the numbers behind those of the one before, and its first bytes behind theirs.
  repeat' split
  all_goals first
    | exact .inl rfl
    | exact .inr (by simp only [leadingPart]; omega)

/-- The first byte of a character is one. -/
theorem firstByte_lt (bounded : right < 0x110000) : firstByte right < 256 := by
  -- Each of the four lengths has a leading part small enough for its marker.
  simp only [firstByte, codeShape]
  repeat' split
  all_goals simp only [leadingPart]
  all_goals omega

end Bytes

variable {c d : Char}

/-- A character that is less than another one has lesser bytes, whatever stands behind them. -/
theorem compare_utf8EncodeChar_of_lt (before : c < d) (first second : List UInt8) :
    compare (String.utf8EncodeChar c ++ first) (String.utf8EncodeChar d ++ second) = .lt := by
  have bounded := toNat_lt_bound d
  have less : c.toNat < d.toNat := before
  have fits := firstByte_lt bounded
  rw [utf8EncodeChar_eq, utf8EncodeChar_eq]
  rcases codeShape_eq_or_lt less bounded with same | ahead
  · rw [same]
    -- Of two encodings of one length the numbers decide.
    exact compare_codeBytes fits less first second
  · -- The first bytes differ already.
    obtain ⟨rest, begins⟩ := codeBytes_eq_cons (codeShape c.toNat).1 (codeShape c.toNat).2 c.toNat
    obtain ⟨others, beginsToo⟩ :=
      codeBytes_eq_cons (codeShape d.toNat).1 (codeShape d.toNat).2 d.toNat
    rw [begins, beginsToo]
    exact compare_cons_of_lt fits ahead _ _

/-- Bytes of characters compare as the characters, and then as what stands behind them. -/
theorem compare_utf8EncodeChar (c d : Char) (first second : List UInt8) :
    compare (String.utf8EncodeChar c ++ first) (String.utf8EncodeChar d ++ second) =
      (compare c d).then (compare first second) := by
  -- The characters decide if they differ, and otherwise what comes behind them.
  cases order : compare c d with
  | lt => exact compare_utf8EncodeChar_of_lt (compareOfLessAndEq_eq_lt.mp order) first second
  | eq =>
    rw [Std.LawfulEqOrd.eq_of_compare order, compare_append_same]
    rfl
  | gt =>
    -- The case is the one above, turned round.
    have turned : compare d c = .lt := by
      rw [Std.OrientedOrd.eq_swap, order]
      rfl
    rw [Std.OrientedOrd.eq_swap,
      compare_utf8EncodeChar_of_lt (compareOfLessAndEq_eq_lt.mp turned) second first]
    rfl

/-- The bytes of a character come behind no bytes at all. -/
theorem compare_nil_utf8EncodeChar (d : Char) (rest : List UInt8) :
    compare [] (String.utf8EncodeChar d ++ rest) = .lt := by
  -- No character is encoded as nothing.
  obtain ⟨others, begins⟩ :=
    codeBytes_eq_cons (codeShape d.toNat).1 (codeShape d.toNat).2 d.toNat
  rw [utf8EncodeChar_eq, begins]
  rfl

/-- Lists of characters compare as their bytes. -/
theorem compare_flatMap_utf8EncodeChar (left right : List Char) :
    compare (left.flatMap String.utf8EncodeChar) (right.flatMap String.utf8EncodeChar) =
      compare left right := by
  -- Both lists are walked together, since each character takes its own bytes off the front.
  induction left generalizing right with
  | nil =>
    cases right with
    | nil => rfl
    | cons d right => exact compare_nil_utf8EncodeChar d _
  | cons c left ih =>
    cases right with
    | nil =>
      -- Turned round, it is the case in which the left list is empty.
      rw [Std.OrientedOrd.eq_swap, Std.OrientedOrd.eq_swap (a := c :: left)]
      exact congrArg Ordering.swap (compare_nil_utf8EncodeChar c _)
    | cons d right =>
      rw [List.flatMap_cons, List.flatMap_cons, compare_utf8EncodeChar, ih, List.compare_cons_cons]

/-- For lists of characters there is one comparison, whether by `<` or entry by entry. -/
theorem compareOfLessAndEq_eq_compare (left right : List Char) :
    compareOfLessAndEq left right = compare left right := by
  -- By induction on the left list; the first characters may agree, be less or be greater.
  induction left generalizing right with
  | nil => cases right <;> rfl
  | cons c left ih =>
    cases right with
    | nil => rfl
    | cons d right =>
      have first : compare c d = compareOfLessAndEq c d := rfl
      rw [List.compare_cons_cons, ← ih, first]
      simp only [compareOfLessAndEq, List.cons_lt_cons_iff, List.cons.injEq]
      by_cases same : c = d
      · -- Equal characters leave the decision to the rest.
        subst same
        simp only [Char.lt_irrefl, true_and, false_or, if_false, if_true]
        rfl
      · by_cases less : c < d <;> simp [same, less]

/-- Texts compare as the lists of their characters. -/
theorem compare_toList (left right : String) :
    compare left right = compare left.toList right.toList := by
  -- Texts are compared as the lists of their characters.
  rw [← compareOfLessAndEq_eq_compare]
  simp only [compare, String.compare, compareOfLessAndEq, String.toList_inj]
  rfl

/-- The bytes of a text are those of its characters. -/
theorem utf8Bytes_eq (text : String) :
    utf8Bytes text = text.toList.flatMap String.utf8EncodeChar := by
  -- A text is encoded character by character.
  obtain ⟨chars, rfl⟩ : ∃ chars, text = String.ofList chars := ⟨text.toList, by simp⟩
  simp [utf8Bytes, String.toByteArray_ofList, List.utf8Encode, List.data_toByteArray]

/-- Texts compare as their bytes. -/
theorem compare_utf8Bytes (left right : String) :
    compare (utf8Bytes left) (utf8Bytes right) = compare left right := by
  -- Both sides are brought down to the lists of characters.
  rw [utf8Bytes_eq, utf8Bytes_eq, compare_flatMap_utf8EncodeChar, compare_toList]

end SchemaLedger
