import Mathlib.Data.List.TakeWhile
import Mathlib.Data.Nat.Digits.Defs
import SchemaLedger.Proofs.Decimal.Digits
import SchemaLedger.Proofs.Migration.Ties
import SchemaLedger.Proofs.Text.ByteOrder

/-! Names are put in order by the number that they start with, and then by the bytes of the rest. -/

namespace SchemaLedger

/-- A name taken apart behind the digits that it starts with, however many there are. -/
structure TakenApart (name : String) (digits : List Char) (rest : String) : Prop where
  whole : name = String.ofList digits ++ rest
  digits : ∀ c ∈ digits, c.isDigit = true
  /-- No further digit follows. -/
  ends : ∀ c, rest.toList.head? = some c → c.isDigit = false

/-- The number that digits are written for, to base ten. -/
def decimalValue (digits : List Char) : Nat :=
  Nat.ofDigits 10 (digits.reverse.map fun c => c.toNat - '0'.toNat)

/-- A name is numbered if it starts with the digits of a number that fits into 64 bits. -/
def Numbered (name : String) : Prop :=
  ∃ digits rest, TakenApart name digits rest ∧ digits ≠ [] ∧ decimalValue digits < UInt64.size

/-- One name may stand before another one. -/
def MayStandBefore (left right : String) : Prop :=
  ∃ order, compareNames left right = .ok order ∧ order.isLE = true

section Parts

variable {name : String} {digits : List Char} {rest : String} {key : OrderKey}

/-- Reading digits from the left gives the number that they are written for. -/
theorem digitsValue_eq_decimalValue (digits : List Char) :
    digitsValue digits = decimalValue digits := by
  -- The library counts from the last digit on, so that the digits are turned around.
  rw [digitsValue, decimalValue, Nat.ofDigits_eq_foldr, List.map_reverse, List.foldr_reverse,
    List.foldl_map]
  congr 1
  funext value c
  simp only [Nat.cast_id]
  omega

/-- There is one way to take a name apart. -/
theorem takenApart_iff :
    TakenApart name digits rest ↔
      digits = name.toList.takeWhile Char.isDigit ∧
        rest = String.ofList (name.toList.dropWhile Char.isDigit) := by
  constructor
  · rintro ⟨rfl, allDigits, ends⟩
    -- The run of digits can neither end earlier nor go on into the rest.
    obtain ⟨none, all⟩ := digits_stop ends
    rw [String.toList_append, String.toList_ofList, List.takeWhile_append_of_pos allDigits,
      List.dropWhile_append_of_pos allDigits, none, all]
    simp
  · rintro ⟨rfl, rfl⟩
    refine ⟨?_, fun c member => List.mem_takeWhile_imp member, fun c first => ?_⟩
    · rw [← String.ofList_append, List.takeWhile_append_dropWhile, String.ofList_toList]
    · -- What is dropped are the digits, so that the rest starts with something else.
      rw [String.toList_ofList] at first
      have stopped := List.head?_dropWhile_not Char.isDigit name.toList
      rw [first] at stopped
      simpa using stopped

/-- Whether a name has a key is settled by the digits that it is taken apart into. -/
theorem ofName_of_takenApart (apart : TakenApart name digits rest) :
    OrderKey.ofName name =
      if digits = [] ∨ UInt64.size ≤ decimalValue digits then .error (.nameFormat name)
      else .ok ⟨decimalValue digits, rest⟩ := by
  -- There is one way to take a name apart, and that is how it is read.
  obtain ⟨rfl, rfl⟩ := takenApart_iff.mp apart
  simp only [OrderKey.ofName, OrderKey.bound, List.isEmpty_iff, digitsValue_eq_decimalValue]

/-- The key of a numbered name is made of the two parts into which it is taken apart. -/
theorem ofName_of_numbered (numbered : Numbered name) (apart : TakenApart name digits rest) :
    OrderKey.ofName name = .ok ⟨decimalValue digits, rest⟩ := by
  obtain ⟨leading, others, same, nonempty, fits⟩ := numbered
  -- There is no other way to take the name apart.
  obtain ⟨rfl, rfl⟩ := takenApart_iff.mp same
  obtain ⟨rfl, rfl⟩ := takenApart_iff.mp apart
  rw [ofName_of_takenApart apart, if_neg]
  rw [not_or]
  exact ⟨nonempty, Nat.not_le.mpr fits⟩

/-- A name has a key if and only if it is numbered. -/
theorem numbered_iff : Numbered name ↔ ∃ key, OrderKey.ofName name = .ok key := by
  -- The name is read by taking it apart, and fails only for want of digits or for their size.
  constructor
  · intro numbered
    obtain ⟨digits, rest, apart, -⟩ := id numbered
    exact ⟨_, ofName_of_numbered numbered apart⟩
  · rintro ⟨key, parsed⟩
    have apart : TakenApart name _ _ := takenApart_iff.mpr ⟨rfl, rfl⟩
    rw [ofName_of_takenApart apart] at parsed
    split at parsed
    · cases parsed
    · -- What has been read has digits, and a number that fits.
      rename_i sound
      simp only [not_or, Nat.not_le] at sound
      exact ⟨_, _, apart, sound⟩

/-- A name that is not numbered is reported as malformed, and no numbered one is. -/
theorem ofName_eq_error {error : MigrationError} :
    OrderKey.ofName name = .error error ↔ ¬Numbered name ∧ error = .nameFormat name := by
  -- The only error there is names the migration.
  have apart : TakenApart name _ _ := takenApart_iff.mpr ⟨rfl, rfl⟩
  rw [numbered_iff, ofName_of_takenApart apart]
  split
  · simp [eq_comm]
  · simp

end Parts

section Order

variable {left right third name : String} {order orderToo : Ordering} {error : MigrationError}

/-- Names that can be compared have keys, and compare as those. -/
theorem compareNames_eq_ok :
    compareNames left right = .ok order ↔
      ∃ leftKey rightKey, OrderKey.ofName left = .ok leftKey ∧
        OrderKey.ofName right = .ok rightKey ∧ order = leftKey.compare rightKey := by
  -- The names are read from the left, and the first that fails ends the comparison.
  constructor
  · intro compared
    rw [compareNames] at compared
    -- Neither name can have failed, as there would be no order then.
    cases parsed : OrderKey.ofName left with
    | error error => simp [parsed, bind, Except.bind] at compared
    | ok leftKey =>
      cases parsedToo : OrderKey.ofName right with
      | error error => simp [parsed, parsedToo, bind, Except.bind] at compared
      | ok rightKey =>
        simp only [parsed, parsedToo, bind, Except.bind, pure, Except.pure,
          Except.ok.injEq] at compared
        exact ⟨leftKey, rightKey, rfl, rfl, compared.symm⟩
  · rintro ⟨leftKey, rightKey, parsed, parsedToo, rfl⟩
    exact compareNames_of_keys parsed parsedToo

/-- Of two names the first one that is not numbered is reported. -/
theorem compareNames_eq_error :
    compareNames left right = .error error ↔
      (¬Numbered left ∧ error = .nameFormat left) ∨
        (Numbered left ∧ ¬Numbered right ∧ error = .nameFormat right) := by
  -- An error on the left is reported before the right name is looked at.
  rw [← ofName_eq_error, ← ofName_eq_error, numbered_iff, compareNames]
  cases parsed : OrderKey.ofName left with
  | error other => simp [bind, Except.bind]
  | ok leftKey =>
    cases parsedToo : OrderKey.ofName right with
    | error other => simp [bind, Except.bind]
    | ok rightKey => simp [bind, Except.bind, pure, Except.pure]

/-- Exchanging two names turns their comparison around. -/
theorem compareNames_swap (compared : compareNames left right = .ok order) :
    compareNames right left = .ok order.swap := by
  -- Both names have keys, whose comparison turns round.
  obtain ⟨leftKey, rightKey, parsed, parsedToo, rfl⟩ := compareNames_eq_ok.mp compared
  rw [compareNames_of_keys parsedToo parsed, OrderKey.compare_swap]

/-- Of three names the first may stand before the last if each may stand before the next. -/
theorem MayStandBefore.trans (before : MayStandBefore left right)
    (after : MayStandBefore right third) : MayStandBefore left third := by
  obtain ⟨order, compared, less⟩ := before
  obtain ⟨orderToo, comparedToo, lessToo⟩ := after
  obtain ⟨leftKey, rightKey, parsed, parsedRight, rfl⟩ := compareNames_eq_ok.mp compared
  obtain ⟨again, thirdKey, parsedAgain, parsedThird, rfl⟩ := compareNames_eq_ok.mp comparedToo
  -- The name in the middle has the same key both times.
  obtain rfl : rightKey = again := Except.ok.inj (parsedRight.symm.trans parsedAgain)
  exact ⟨_, compareNames_of_keys parsed parsedThird, Std.TransCmp.isLE_trans less lessToo⟩

/-- Of two names either may stand before the other. -/
theorem MayStandBefore.total (leftNumbered : Numbered left) (rightNumbered : Numbered right) :
    MayStandBefore left right ∨ MayStandBefore right left := by
  -- Where the first one comes last, the comparison is turned around.
  obtain ⟨leftKey, parsed⟩ := numbered_iff.mp leftNumbered
  obtain ⟨rightKey, parsedToo⟩ := numbered_iff.mp rightNumbered
  have compared := compareNames_of_keys parsed parsedToo
  cases order : leftKey.compare rightKey with
  | gt =>
    rw [order] at compared
    exact .inr ⟨_, compareNames_swap compared, rfl⟩
  | lt | eq =>
    rw [order] at compared
    exact .inl ⟨_, compared, rfl⟩

/-- Names that may stand before each other compare equal. -/
theorem MayStandBefore.antisymm (before : MayStandBefore left right)
    (after : MayStandBefore right left) : compareNames left right = .ok .eq := by
  -- Neither is less than the other, so that only equality is left.
  obtain ⟨order, compared, less⟩ := before
  obtain ⟨orderToo, comparedToo, lessToo⟩ := after
  rw [compareNames_swap compared, Except.ok.injEq] at comparedToo
  subst comparedToo
  cases order with
  | eq => exact compared
  | lt => cases lessToo
  | gt => cases less

/--
Names compare by number and then by the bytes of the rest, whatever zeros lead the number.

All numbered names can be compared, and no others, and the comparison is a total preorder on them.
-/
theorem compareNames_total_preorder :
    (∀ left right, (∃ order, compareNames left right = .ok order) ↔
      Numbered left ∧ Numbered right) ∧
    (∀ left right leftDigits leftRest rightDigits rightRest, Numbered left → Numbered right →
      TakenApart left leftDigits leftRest → TakenApart right rightDigits rightRest →
      compareNames left right =
        .ok ((compare (decimalValue leftDigits) (decimalValue rightDigits)).then
          (compare (utf8Bytes leftRest) (utf8Bytes rightRest)))) ∧
    (∀ name, Numbered name → compareNames name name = .ok .eq) ∧
    (∀ left right third, MayStandBefore left right → MayStandBefore right third →
      MayStandBefore left third) ∧
    (∀ left right, Numbered left → Numbered right →
      MayStandBefore left right ∨ MayStandBefore right left) ∧
    (∀ left right, MayStandBefore left right → MayStandBefore right left →
      compareNames left right = .ok .eq) ∧
    (∀ left right order, compareNames left right = .ok order →
      compareNames right left = .ok order.swap) ∧
    (∀ left right error, compareNames left right = .error error ↔
      (¬Numbered left ∧ error = .nameFormat left) ∨
        (Numbered left ∧ ¬Numbered right ∧ error = .nameFormat right)) := by
  refine ⟨fun left right => ?_, ?_, fun name numbered => ?_, fun _ _ _ => MayStandBefore.trans,
    fun _ _ => MayStandBefore.total, fun _ _ => MayStandBefore.antisymm,
    fun _ _ _ => compareNames_swap, fun _ _ _ => compareNames_eq_error⟩
  · -- Names are compared exactly if both have a key.
    rw [numbered_iff, numbered_iff]
    constructor
    · rintro ⟨order, compared⟩
      obtain ⟨leftKey, rightKey, parsed, parsedToo, -⟩ := compareNames_eq_ok.mp compared
      exact ⟨⟨leftKey, parsed⟩, ⟨rightKey, parsedToo⟩⟩
    · rintro ⟨⟨leftKey, parsed⟩, ⟨rightKey, parsedToo⟩⟩
      exact ⟨_, compareNames_of_keys parsed parsedToo⟩
  · intro left right leftDigits leftRest rightDigits rightRest numbered numberedToo apart apartToo
    have parsed := ofName_of_numbered numbered apart
    have parsedToo := ofName_of_numbered numberedToo apartToo
    -- The rest is compared by code points, which agrees with comparing bytes.
    rw [compareNames_of_keys parsed parsedToo, OrderKey.compare, compare_utf8Bytes]
  · obtain ⟨key, parsed⟩ := numbered_iff.mp numbered
    rw [compareNames_of_keys parsed parsed, OrderKey.compare_self]

/-- Leading zeros do not count, the rest counts by its bytes, and one number is just too large. -/
theorem compareNames_total_preorder_sample :
    Numbered "007_ä" ∧ Numbered "7_z" ∧ ¬Numbered "18446744073709551616_z" ∧
    compareNames "007_ä" "7_z" = .ok .gt ∧ compareNames "7_z" "007_ä" = .ok .lt ∧
    MayStandBefore "7_z" "007_ä" ∧
    compareNames "7_z" "18446744073709551616_z" =
      .error (.nameFormat "18446744073709551616_z") := by
  obtain ⟨-, compared, -, -, total, -, swapped, refused⟩ := compareNames_total_preorder
  have umlaut : TakenApart "007_ä" ['0', '0', '7'] "_ä" :=
    takenApart_iff.mpr ⟨by decide +kernel, by decide +kernel⟩
  have letter : TakenApart "7_z" ['7'] "_z" :=
    takenApart_iff.mpr ⟨by decide +kernel, by decide +kernel⟩
  have first : Numbered "007_ä" := ⟨_, _, umlaut, by decide, by decide +kernel⟩
  have second : Numbered "7_z" := ⟨_, _, letter, by decide, by decide +kernel⟩
  -- The number is one too large for 64 bits.
  have malformed : OrderKey.ofName "18446744073709551616_z" =
      .error (.nameFormat "18446744073709551616_z") := by decide +kernel
  have third := (ofName_eq_error.mp malformed).1
  -- Leading zeros do not count, so that the rest decides between the two.
  have greater : compareNames "007_ä" "7_z" = .ok .gt :=
    (compared _ _ _ _ _ _ first second umlaut letter).trans (by decide +kernel)
  have less : compareNames "7_z" "007_ä" = .ok .lt := swapped _ _ _ greater
  refine ⟨first, second, third, greater, less, ?_, (refused _ _ _).mpr (.inr ⟨second, third, rfl⟩)⟩
  -- Only one of the two names may stand before the other.
  rcases total _ _ first second with ⟨order, again, before⟩ | before
  · rw [greater, Except.ok.injEq] at again
    subst again
    cases before
  · exact before

end Order

end SchemaLedger
