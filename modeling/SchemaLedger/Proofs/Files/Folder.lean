import SchemaLedger.Proofs.Files.Path
import SchemaLedger.Proofs.Files.Tree

/-! Writing into a directory of files changes one file, and leaves a directory of files. -/

namespace SchemaLedger.FileTree

variable {tree : FileTree} {location : Location}

/-- A path leads to a directory at some location that holds nothing but files. -/
structure FlatAt (tree : FileTree) (directory : String) (location : Location) : Prop where
  found : (Route.ofPath directory >>= tree.directory) = .ok location
  files : ∀ entry ∈ tree.children location, ∃ content, entry.2 = .file content

/-- A name can be that of a file in a directory, and its path is accepted. -/
structure Fits (directory name : String) : Prop where
  plain : '/' ∉ name.toList
  filled : name ≠ ""
  proper : Proper (.text name)
  accepted : Route.ofPath (Path.join directory name) = .ok (Route.ofText (Path.join directory name))

namespace FlatAt

variable {directory name text : String} {content : RawText} {left : FileTree}

/-- The path of a directory is the way that its text describes. -/
theorem leads (flat : FlatAt tree directory location) : directory ≠ "" ∧
    Route.ofPath directory = .ok (Route.ofText directory) ∧
    (∃ fewer, Leads tree maxLinks (start (Route.ofText directory))
      (Route.ofText directory).names fewer location) ∧ (tree.node? location).isSome := by
  -- The path has been accepted, or the directory could not have been found.
  have found := flat.found
  cases accepted : Route.ofPath directory with
  | error refusal => simp [accepted, bind, Except.bind] at found
  | ok route =>
    obtain ⟨named, rfl⟩ := of_ofPath accepted
    simp only [accepted, bind, Except.bind] at found
    exact ⟨named, rfl, directory_eq_ok.mp found⟩

/-- Where a path can lead below a location is neither the root nor the working directory. -/
theorem outside (location : Location) (name : String) :
    location ++ [.text name] ≠ [] ∧ location ++ [.text name] ≠ workingDirectory := by
  -- Neither the root nor the working directory ends in this name.
  cases location <;> simp [workingDirectory]

/-- Below the directory there are files, if there is anything. -/
theorem node?_file (flat : FlatAt tree directory location) {node : FileNode}
    (there : tree.node? (location ++ [.text name]) = some node) : ∃ content, node = .file content :=
  -- What is there is a child of the folder, and these are all files.
  flat.files _ (mem_children.mpr (mem_nodes_of_node? (outside location name) there))

/-- The way to a name in the directory is the way to the directory, and then the name. -/
theorem walk_join (flat : FlatAt tree directory location) (plain : '/' ∉ name.toList)
    (real : name ≠ "") : ∃ fewer, ∀ toCreate,
      tree.walk toCreate maxLinks (start (Route.ofText (Path.join directory name)))
        (Route.ofText (Path.join directory name)).names
        (Route.ofText (Path.join directory name)).toDirectory =
      tree.walk toCreate fewer location [.text name] false := by
  obtain ⟨named, -, ⟨fewer, leads⟩, -⟩ := flat.leads
  -- So many links may still be followed as those on the way have left.
  refine ⟨fewer, fun toCreate => ?_⟩
  rw [Route.ofText_join named plain real]
  exact leads.walk_append toCreate (.text name) [] false

/-- The way on which a file is written ends in the directory, if the name is proper. -/
theorem walk_create (flat : FlatAt tree directory location) (proper : Proper (.text name))
    (links : Nat) :
    tree.walk true links location [.text name] false = .ok (location ++ [.text name]) ∧
      tree.node? (location ++ [.text name]) ≠ some .directory := by
  cases before : tree.node? (location ++ [.text name]) with
  | none =>
    refine ⟨?_, nofun⟩
    rw [proper.walk_missing (by simp) before, if_pos ⟨rfl, rfl⟩]
  | some node =>
    -- What is overwritten is a file, as everything in the directory is.
    obtain ⟨content, rfl⟩ := flat.node?_file before
    exact ⟨proper.walk_file before, nofun⟩

/-- A text is written into the directory where its name fits, and is set in its place. -/
theorem writeText_eq_ok (flat : FlatAt tree directory location) (plain : '/' ∉ name.toList)
    (real : name ∉ ["", ".", ".."]) :
    tree.writeText (Path.join directory name) text = .ok left ↔
      Fits directory name ∧ left = tree.set (location ++ [.text name]) (.file (.text text)) := by
  simp only [List.mem_cons, List.not_mem_nil, or_false, not_or] at real
  have leaving : RawText.text name ≠ Route.here := by simp [Route.here, real]
  have descending : RawText.text name ≠ Route.above := by simp [Route.above, real]
  obtain ⟨fewer, walked⟩ := flat.walk_join plain real.1
  constructor
  · intro wrote
    -- What was written has been accepted, and the walk to it has ended.
    cases accepted : Route.ofPath (Path.join directory name) with
    | error refusal => simp [writeText, accepted, bind, Except.bind] at wrote
    | ok route =>
      obtain ⟨-, rfl⟩ := of_ofPath accepted
      simp only [writeText, accepted, write, walked, bind, Except.bind] at wrote
      by_cases long : Route.maxNameBytes < (RawText.text name).byteSize
      · -- Such a name is refused before anything is looked up.
        rw [walk, if_neg leaving, if_neg descending, if_neg (by simp), if_pos long] at wrote
        cases wrote
      have proper : Proper (.text name) := ⟨leaving, descending, long⟩
      obtain ⟨reached, free⟩ := flat.walk_create proper fewer
      simp only [reached, if_neg free, pure, Except.pure, Except.ok.injEq] at wrote
      exact ⟨⟨plain, real.1, proper, accepted⟩, wrote.symm⟩
  · rintro ⟨fits, rfl⟩
    obtain ⟨reached, free⟩ := flat.walk_create fits.proper fewer
    simp [writeText, fits.accepted, write, walked, reached, free, bind, Except.bind, pure,
      Except.pure]

/-- A directory of files remains one when a file is set in it. -/
theorem set (flat : FlatAt tree directory location) (name : String) (content : RawText) :
    FlatAt (tree.set (location ++ [.text name]) (.file content)) directory location := by
  obtain ⟨-, accepted, ⟨fewer, leads⟩, there⟩ := flat.leads
  -- Whatever is no file is somewhere else.
  have same : ∀ place node, tree.node? place = some node → (∀ content, node ≠ .file content) →
      (tree.set (location ++ [.text name]) (.file content)).node? place = some node := by
    intro place node found noFile
    rwa [node?_set_of_ne]
    rintro rfl
    obtain ⟨content, rfl⟩ := flat.node?_file found
    exact noFile content rfl
  constructor
  · -- The way to the folder passes no files, so that it is still there.
    rw [accepted]
    refine directory_eq_ok.mpr ⟨⟨fewer, leads.kept same⟩, ?_⟩
    rwa [node?_set_of_ne (by simp)]
  · intro entry member
    rcases mem_children_set.mp member with rfl | ⟨before, -⟩
    · exact ⟨content, rfl⟩
    · exact flat.files entry before

/-- A file in the directory is read below the path of the directory. -/
theorem read_eq (flat : FlatAt tree directory location) (fits : Fits directory name)
    (there : tree.node? (location ++ [.text name]) = some (.file content)) :
    tree.view.read (Path.join directory name) = .ok content := by
  -- The walk to the folder is followed by one step, to the file.
  obtain ⟨fewer, walked⟩ := flat.walk_join fits.plain fits.filled
  have reached : tree.walk false fewer location [.text name] false =
      .ok (location ++ [.text name]) := fits.proper.walk_file there
  simp [view, fits.accepted, read, lookUp, walked, reached, there, bind, Except.bind, pure,
    Except.pure]

/-- The files of the directory are listed. -/
theorem list_eq (flat : FlatAt tree directory location) : tree.view.list directory =
    .ok ((tree.children location).map fun entry => ⟨entry.1, true⟩) := by
  have found := flat.found
  obtain ⟨-, accepted, -⟩ := flat.leads
  simp only [accepted, bind, Except.bind] at found
  simp only [view, accepted, list, found, bind, Except.bind, pure, Except.pure, Except.ok.injEq]
  -- Every name in the listing is marked as that of a file.
  refine List.map_congr_left fun entry member => ?_
  obtain ⟨content, same⟩ := flat.files entry member
  rw [same]

end FlatAt

end SchemaLedger.FileTree
