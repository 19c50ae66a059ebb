/-! The lines of a text that are not empty, which joining texts by line breaks only appends. -/

namespace SchemaLedger

/-- The lines of a text that are not empty. -/
def filledLines (text : String) : List String :=
  ((text.toList.splitOn '\n').filter (· ≠ [])).map String.ofList

/-- A text whose empty lines have been deleted. -/
def withoutEmptyLines (text : String) : String := "\n".intercalate (filledLines text)

/-- Nothing is left of an empty text. -/
@[simp] theorem filledLines_empty : filledLines "" = [] := by
  simp [filledLines, List.splitOn]

/-- A line break separates the lines before it from those behind it. -/
theorem filledLines_append (first second : String) :
    filledLines (first ++ "\n" ++ second) = filledLines first ++ filledLines second := by
  -- The line end in between cuts the text, and belongs to no line.
  have joined : (first ++ "\n" ++ second).toList = first.toList ++ '\n' :: second.toList := by
    simp
  rw [filledLines, joined, List.splitOn_append_cons_self, List.filter_append, List.map_append]
  rfl

/-- The filled lines of texts on separate lines are those of each text in turn. -/
theorem filledLines_intercalate (texts : List String) :
    filledLines ("\n".intercalate texts) = texts.flatMap filledLines := by
  induction texts with
  | nil => simp
  | cons text rest ih =>
    -- The last text is followed by no line break.
    cases rest with
    | nil => simp
    | cons next others =>
      rw [String.intercalate_cons_cons, filledLines_append, ih]
      rfl

end SchemaLedger
