import SchemaLedger.Text.LetterCase

/-! A capital is no small letter, digit or separator, and its small form consists of small letters,
unless it is a capital for which there is none. -/

namespace SchemaLedger

namespace CodeRun

/-- All code points of a run. -/
def members (run : CodeRun) : List Nat :=
  (List.range ((run.last - run.first) / run.stride + 1)).map (run.first + · * run.stride)

/-- The runs that reach into the code points between two bounds. -/
def meeting (runs : List CodeRun) (least greatest : Nat) : List CodeRun :=
  runs.filter fun run => Nat.ble least run.last && Nat.ble run.first greatest

variable {run : CodeRun} {code : Nat}

/-- A run contains a code point between its ends, a number of strides from the first. -/
theorem contains_iff : run.contains code = true ↔
    run.first ≤ code ∧ code ≤ run.last ∧ (code - run.first) % run.stride = 0 := by
  -- The test is the conjunction of the three conditions.
  simp [contains, and_assoc]

/-- Whatever a run contains is one of its members. -/
theorem mem_members (contained : run.contains code = true) : code ∈ run.members := by
  -- The code point is as many steps above the first one as the quotient says.
  obtain ⟨least, greatest, step⟩ := contains_iff.mp contained
  have steps : (code - run.first) / run.stride * run.stride = code - run.first :=
    Nat.div_mul_cancel (Nat.dvd_of_mod_eq_zero step)
  have few : (code - run.first) / run.stride ≤ (run.last - run.first) / run.stride :=
    Nat.div_le_div_right (by omega)
  exact List.mem_map.mpr ⟨_, List.mem_range.mpr (Nat.lt_succ_of_le few), by omega⟩

/-- Only runs that reach into the bounds around a code point can contain it. -/
theorem any_meeting {runs : List CodeRun} {least greatest : Nat} (above : least ≤ code)
    (below : code ≤ greatest) :
    (meeting runs least greatest).any (·.contains code) = runs.any (·.contains code) := by
  -- A run that holds the code point reaches into any range around it, and is not left out.
  have reaches : ∀ run : CodeRun, run.contains code = true →
      (Nat.ble least run.last && Nat.ble run.first greatest) = true := by
    intro run contained
    obtain ⟨first, last, -⟩ := contains_iff.mp contained
    simp only [Bool.and_eq_true, Nat.ble_eq]
    exact ⟨Nat.le_trans above last, Nat.le_trans first below⟩
  rw [meeting, List.any_filter]
  refine congrArg runs.any (funext fun run => ?_)
  cases contained : run.contains code with
  | false => simp
  | true => simp [reaches run contained]

end CodeRun

namespace LetterCase

open CodeRun

/-- The code points of a run, moved by the distance to their lowercase forms. -/
def UpperRun.moved (run : UpperRun) (code : Nat) : Nat := (code + run.rise).toNat

/-- Moving keeps the order of code points. -/
theorem UpperRun.moved_mono (run : UpperRun) {first second : Nat} (before : first ≤ second) :
    run.moved first ≤ run.moved second := by
  -- All members are moved by the same distance.
  simp only [moved]
  omega

/-- The small letters around the lowercase forms of a run. -/
def UpperRun.smallLetters (run : UpperRun) : List CodeRun :=
  meeting lowerRuns (run.moved run.codes.first) (run.moved run.codes.last)

/-- In the tables, no capital is a small letter. -/
theorem upperRuns_apart : ∀ run ∈ upperRuns, ∀ code ∈ run.codes.members,
    (meeting lowerRuns run.codes.first run.codes.last).any (·.contains code) = false := by
  -- The tables are walked through once, and each run is compared with those it meets only.
  decide +kernel

/-- In the tables, the lowercase form of a capital is a small letter, or the capital itself. -/
theorem upperRuns_moved : ∀ run ∈ upperRuns, run.rise = 0 ∨ ∀ code ∈ run.codes.members,
    run.smallLetters.any (·.contains (run.moved code)) = true := by
  -- As before, a moved run is looked for among the runs that it meets only.
  decide +kernel

variable {c : Char}

/-- A capital is the dotted one or belongs to some run of capitals. -/
theorem isUpper_iff : isUpper c = true ↔
    c = dottedCapital ∨ ∃ run ∈ upperRuns, run.codes.contains c.toNat = true := by
  -- The dotted capital stands beside the table, because its spelling is longer.
  simp [isUpper]

/-- No capital is a small letter. -/
theorem isLower_of_isUpper (upper : isUpper c = true) : isLower c = false := by
  -- A capital is a member of its run, for which the tables have been compared.
  rcases isUpper_iff.mp upper with rfl | ⟨run, member, contained⟩
  · decide +kernel
  · obtain ⟨above, below, -⟩ := contains_iff.mp contained
    have apart := upperRuns_apart run member c.toNat (mem_members contained)
    rwa [any_meeting above below] at apart

/-- Capitals lie behind the digits and most separators. -/
theorem isUpper_of_lt (before : c.toNat < 65) : isUpper c = false := by
  -- The first capital of all is the A.
  have least : ∀ run ∈ upperRuns, 65 ≤ run.codes.first := by decide +kernel
  refine Bool.eq_false_iff.mpr fun upper => ?_
  rcases isUpper_iff.mp upper with rfl | ⟨run, member, contained⟩
  · exact absurd before (by decide)
  · have := least run member
    have := (contains_iff.mp contained).1
    omega

/-- Small letters lie behind the digits and all separators. -/
theorem isLower_of_lt (before : c.toNat < 97) : isLower c = false := by
  -- The first small letter of all is the a.
  have least : ∀ run ∈ lowerRuns, 97 ≤ run.first := by decide +kernel
  refine Bool.eq_false_iff.mpr fun lower => ?_
  obtain ⟨run, member, contained⟩ := List.any_eq_true.mp lower
  have := least run member
  have := (contains_iff.mp contained).1
  omega

/-- Every code point in the table of small letters is that of a character. -/
theorem isValidChar_of_lowerRuns {code : Nat}
    (small : lowerRuns.any (·.contains code) = true) : code.isValidChar := by
  -- No run of small letters reaches into the surrogates or beyond the last code point.
  have valid : ∀ run ∈ lowerRuns,
      run.last < 0xd800 ∨ 0xdfff < run.first ∧ run.last < 0x110000 := by decide +kernel
  obtain ⟨run, member, contained⟩ := List.any_eq_true.mp small
  obtain ⟨above, below, -⟩ := contains_iff.mp contained
  have range := valid run member
  simp only [Nat.isValidChar]
  omega

/-- The lowercase form of a character is the character itself, or one small letter, or that of the
dotted capital. -/
theorem lower_cases (c : Char) :
    c = dottedCapital ∨ lower c = [c] ∨ ∃ small, lower c = [small] ∧ isLower small = true := by
  by_cases dotted : c = dottedCapital
  · exact .inl dotted
  refine .inr ?_
  rw [lower, if_neg dotted]
  -- The first run with the code point moves it, unless that run only looks uppercase.
  cases found : upperRuns.find? (·.codes.contains c.toNat) with
  | none => exact .inl rfl
  | some run =>
    have contained : run.codes.contains c.toNat = true := by simpa using List.find?_some found
    rcases upperRuns_moved run (List.mem_of_find?_eq_some found) with stays | moves
    · exact .inl (by simp [stays])
    · -- The moved code point is a small letter, and therefore a character.
      obtain ⟨above, below, -⟩ := contains_iff.mp contained
      have small := moves c.toNat (mem_members contained)
      rw [UpperRun.smallLetters, any_meeting (run.moved_mono above) (run.moved_mono below)] at small
      have code : (Char.ofNat (run.moved c.toNat)).toNat = run.moved c.toNat := by
        rw [Char.ofNat, dif_pos (isValidChar_of_lowerRuns small)]
        rfl
      exact .inr ⟨Char.ofNat (run.moved c.toNat), rfl, by rwa [isLower, code]⟩

end LetterCase

end SchemaLedger
