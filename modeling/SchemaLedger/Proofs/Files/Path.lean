import Mathlib.Data.List.TakeWhile
import SchemaLedger.Files.Route

/-! A name below a directory comes last on the way that its path describes. -/

namespace SchemaLedger

namespace Path

variable {directory name stem extension : String}

/-- Pieces are what a list is split into. -/
theorem pieces_eq_splitOn {α : Type} [DecidableEq α] (separator : α) (items : List α) :
    pieces separator items = items.splitOn separator := by
  induction items with
  | nil => rfl
  | cons item rest ih =>
    rw [pieces, ih, List.splitOn_cons_eq_if_modifyHead]
    -- An item that does not separate joins the first of the pieces behind it.
    by_cases same : item = separator
    · simp [same]
    · have nonempty := List.splitOn_ne_nil separator rest
      cases split : rest.splitOn separator with
      | nil => exact absurd split nonempty
      | cons piece others => simp [same]

/-- A path below a directory ends with a slash and the name, whether or not the directory does. -/
theorem join_toList (named : directory ≠ "") (plain : '/' ∉ name.toList) :
    ∃ front, (join directory name).toList = front ++ '/' :: name.toList ∧
      (directory.toList = front ++ ['/'] ∨ directory.toList = front ∧ front ≠ []) := by
  have relative : isAbsolute name = false := by
    cases chars : name.toList with
    | nil => simp [isAbsolute, chars]
    | cons c rest =>
      rw [chars] at plain
      simpa [isAbsolute, chars] using fun same : c = '/' => plain (same ▸ List.mem_cons_self)
  have filled : directory.toList ≠ [] := by simpa using named
  by_cases slash : directory.toList.getLast? = some '/'
  · -- The slash is not doubled.
    obtain ⟨front, ends⟩ := List.getLast?_eq_some_iff.mp slash
    exact ⟨front, by simp [join, named, relative, ends], .inl ends⟩
  · exact ⟨directory.toList, by simp [join, named, relative, slash], .inr ⟨rfl, filled⟩⟩

/-- Different relative names have different paths below a directory. -/
theorem join_injective {other : String} (relative : isAbsolute name = false)
    (relativeToo : isAbsolute other = false) (same : join directory name = join directory other) :
    name = other := by
  -- Which way a name is joined depends on the directory alone, unless the name is absolute.
  simp only [join, relative, relativeToo, Bool.false_eq_true, or_false] at same
  split at same
  · exact same
  split at same
  · exact (String.append_right_inj _).mp same
  · exact (String.append_right_inj _).mp same

/-- The name is the last of the components of a path below a directory. -/
theorem fileName?_join (plain : '/' ∉ name.toList) (real : name ∉ ["", ".", ".."]) :
    fileName? (join directory name) = some name := by
  simp only [List.mem_cons, List.not_mem_nil, or_false, not_or] at real
  have last : ∃ before, components (join directory name) = before ++ [name] := by
    -- The name is the last component, as it is none of those that are left out.
    have own : (([name.toList].map String.ofList).filter fun name => name != "" && name != ".") =
        [name] := by
      simp [real]
    by_cases named : directory = ""
    · -- Without a directory the path is the name.
      refine ⟨[], ?_⟩
      simpa [components, join, named, pieces_eq_splitOn, List.splitOn_eq_singleton plain] using own
    · -- The directory ends with a separator in front of the name.
      obtain ⟨front, joined, -⟩ := join_toList named plain
      refine ⟨components (String.ofList front), ?_⟩
      simp only [components, joined, pieces_eq_splitOn, List.splitOn_append_cons_self,
        List.splitOn_eq_singleton plain, List.map_append, List.filter_append, own,
        String.toList_ofList]
  obtain ⟨before, ends⟩ := last
  simp [fileName?, ends, real]

/-- A name is split at its last dot, behind which there is no other. -/
theorem splitAtLastDot?_eq_some : splitAtLastDot? name = some (stem, extension) ↔
    name = stem ++ "." ++ extension ∧ '.' ∉ extension.toList := by
  constructor
  · intro split
    -- Told backwards, the name is split at its first dot.
    have whole := List.takeWhile_append_dropWhile (p := (· != '.')) (l := name.toList.reverse)
    simp only [splitAtLastDot?] at split
    cases behind : name.toList.reverse.dropWhile (· != '.') with
    | nil => simp [behind] at split
    | cons dot before =>
      have isDot : dot = '.' := by
        have kept := List.head_dropWhile_not (· != '.') (l := name.toList.reverse)
          (by simp [behind])
        simpa [behind] using kept
      simp only [behind, Option.some.injEq, Prod.mk.injEq] at split
      obtain ⟨rfl, rfl⟩ := split
      -- What comes before the first dot has none itself.
      have plain : '.' ∉ name.toList.reverse.takeWhile (· != '.') := fun member => by
        simpa using List.mem_takeWhile_imp member
      rw [behind, isDot] at whole
      generalize name.toList.reverse.takeWhile (· != '.') = after at whole plain
      refine ⟨?_, by simpa using plain⟩
      rw [← String.toList_inj, ← List.reverse_inj, ← whole]
      simp
  · rintro ⟨rfl, plain⟩
    -- Told backwards, the extension ends at the first dot.
    have others : ∀ c ∈ extension.toList.reverse, (c != '.') = true := by
      intro c member
      simpa using fun same : c = '.' => plain (same ▸ List.mem_reverse.mp member)
    have reversed : (stem ++ "." ++ extension).toList.reverse =
        extension.toList.reverse ++ '.' :: stem.toList.reverse := by simp
    simp only [splitAtLastDot?, reversed, List.dropWhile_append_of_pos others,
      List.takeWhile_append_of_pos others]
    simp

/-- The stem of a file is found below any directory, if the file has an extension. -/
theorem stem?_join (plain : '/' ∉ (stem ++ "." ++ extension).toList)
    (started : stem ≠ "") (ended : extension ≠ "") (last : '.' ∉ extension.toList) :
    stem? (join directory (stem ++ "." ++ extension)) = some stem := by
  have split : splitAtLastDot? (stem ++ "." ++ extension) = some (stem, extension) :=
    splitAtLastDot?_eq_some.mpr ⟨rfl, last⟩
  -- Names of at most two characters are too short for what stands around the dot.
  have long : 3 ≤ (stem ++ "." ++ extension).toList.length := by
    have before := List.length_pos_iff.mpr (mt String.toList_eq_nil_iff.mp started)
    have behind := List.length_pos_iff.mpr (mt String.toList_eq_nil_iff.mp ended)
    simp only [String.toList_append, List.length_append]
    have dot : ".".toList.length = 1 := rfl
    omega
  -- So the name is not one of those that are no file names.
  have real : stem ++ "." ++ extension ∉ ["", ".", ".."] := by
    intro member
    simp only [List.mem_cons, List.not_mem_nil, or_false] at member
    rcases member with same | same | same <;> rw [same] at long <;> revert long <;> decide
  simp [stem?, fileName?_join plain real, splitName, split, started]

end Path

namespace Route

variable {directory name : String}

/-- A way of several pieces starts at the root if the first one is empty. -/
theorem ofPieces_fromRoot {pieces : List RawText} (several : 2 ≤ pieces.length) :
    (ofPieces pieces).fromRoot = decide (pieces.head? = some (.text "")) := by
  -- The first of several pieces is empty if the path begins with the separator.
  match pieces with
  | [] | [_] => simp at several
  | first :: second :: more =>
    by_cases empty : first = .text ""
    · subst empty
      rfl
    · simp [ofPieces, empty]

/-- The pieces of a path as they are looked up. -/
def texts (path : List Char) : List RawText :=
  (path.splitOn '/').map fun piece => .text (String.ofList piece)

/-- There is always a first piece. -/
theorem texts_eq_cons (path : List Char) : ∃ first others, texts path = first :: others :=
  -- Splitting gives one piece at least.
  List.exists_cons_of_ne_nil (by simp [texts])

/-- A slash separates the pieces before it from those behind it. -/
theorem texts_append (before behind : List Char) :
    texts (before ++ '/' :: behind) = texts before ++ texts behind := by
  -- The separator in between cuts the path.
  simp [texts, List.splitOn_append_cons_self]

/-- A path without a slash is a piece. -/
theorem texts_plain {path : List Char} (plain : '/' ∉ path) :
    texts path = [.text (String.ofList path)] := by
  -- Without a separator the path is one piece.
  simp [texts, List.splitOn_eq_singleton plain]

/-- The way along a path goes through its pieces. -/
theorem ofText_eq (path : String) : ofText path = ofPieces (texts path.toList) := by
  -- Paths are cut at each separator.
  simp [ofText, texts, Path.pieces_eq_splitOn]

/-- A path with a slash starts at the root if the part before does so with nothing. -/
theorem fromRoot_append (before behind : List Char) :
    (ofPieces (texts (before ++ '/' :: behind))).fromRoot =
      decide ((texts before).head? = some (.text "")) := by
  -- The first piece is that of the part before the separator.
  obtain ⟨first, others, starts⟩ := texts_eq_cons before
  obtain ⟨second, more, follows⟩ := texts_eq_cons behind
  rw [texts_append, starts, follows, ofPieces_fromRoot (by simp; omega)]
  rfl

/-- A path that is not empty starts at the root if its first piece is empty. -/
theorem fromRoot_texts {path : List Char} (filled : path ≠ []) :
    (ofPieces (texts path)).fromRoot = decide ((texts path).head? = some (.text "")) := by
  by_cases slash : '/' ∈ path
  · -- The first piece is the one before the first slash, whatever is behind that.
    obtain ⟨before, behind, rfl⟩ := List.append_of_mem slash
    obtain ⟨first, others, starts⟩ := texts_eq_cons before
    rw [fromRoot_append, texts_append, starts]
    rfl
  · simp [texts_plain slash, ofPieces, filled]

/-- The way to a name below a directory is the way to the directory, and then the name. -/
theorem ofText_join (named : directory ≠ "") (plain : '/' ∉ name.toList) (real : name ≠ "") :
    ofText (Path.join directory name) =
      ⟨(ofText directory).fromRoot, (ofText directory).names ++ [.text name], false⟩ := by
  obtain ⟨front, joined, ends⟩ := Path.join_toList named plain
  -- The directory is what stands before the separator, with or without its own.
  have root : (ofText directory).fromRoot = decide ((texts front).head? = some (.text "")) := by
    rcases ends with slash | ⟨same, filled⟩
    · rw [ofText_eq, slash, fromRoot_append]
    · rw [ofText_eq, same, fromRoot_texts filled]
  have names : (ofText directory).names = (texts front).filter (· ≠ .text "") := by
    rcases ends with slash | ⟨same, -⟩
    · -- The last piece of the directory is empty, and makes way for the name.
      simp [ofText_eq, slash, texts_append, texts_plain, ofPieces]
    · simp only [ofText_eq, same, ofPieces]
  rw [ofText_eq, joined, root, names, ← fromRoot_append front name.toList, texts_append,
    texts_plain plain, String.ofList_toList]
  simp [ofPieces, real]

end Route

end SchemaLedger
