import SchemaLedger.Proofs.Load.Build
import SchemaLedger.Proofs.Load.Directory

/-! Of all artifacts for a stem the one in the last build directory that has any is trusted, and it
is the one that loading finds. -/

namespace SchemaLedger

open MigrationFile

/-- A directory lists a file under a name. -/
def FileView.HasFile (view : FileView) (directory name : String) : Prop :=
  ∃ listing, view.list directory = .ok listing ∧ ⟨.text name, true⟩ ∈ listing

/-- An artifact is trusted if it is in the last build directory that has one for its stem. -/
inductive FileView.Trusts (view : FileView) (stem : String) :
    List MigrationDirectory → String → Prop
  | here {directory : String} {later : List MigrationDirectory}
    (has : view.HasFile directory (artifactName stem))
    (last : ∀ other ∈ later, other.kind = .build → ¬ view.HasFile other.path (artifactName stem)) :
    view.Trusts stem (⟨.build, directory⟩ :: later) (Path.join directory (artifactName stem))
  | later {directory : MigrationDirectory} {rest : List MigrationDirectory} {path : String}
    (trusted : view.Trusts stem rest path) : view.Trusts stem (directory :: rest) path

namespace FileEntry

variable {view : FileView} {directory stem extension : String} {entries : List FileEntry}

/-- A name with an extension is shown if its stem is, and has a stem then. -/
theorem shown_dotted : (stem ++ "." ++ extension).toList.head? ≠ some '.' ↔
    stem ≠ "" ∧ stem.toList.head? ≠ some '.' := by
  -- An empty stem leaves the dot of the extension in front.
  by_cases named : stem = ""
  · simp [named]
  · rw [head?_dotted named]
    exact ⟨fun shown => ⟨named, shown⟩, fun both => both.2⟩

/-- An entry with an extension comes from the visible file that its stem and extension name. -/
theorem file_of_mem (listed : list view directory = .ok entries) {entry : FileEntry}
    (member : entry ∈ entries) (dotted : entry.extension ≠ "") :
    view.HasFile directory (entry.stem ++ "." ++ entry.extension) ∧
      (entry.stem ++ "." ++ entry.extension).toList.head? ≠ some '.' ∧
      entry.path = Path.join directory (entry.stem ++ "." ++ entry.extension) := by
  -- An entry with an extension is the file whose name it was made of.
  obtain ⟨listing, found, visible⟩ := mem_list listed
  obtain ⟨name, inside, shown, rfl⟩ := (visible entry).mp member
  rw [← name_of_ofName dotted]
  exact ⟨⟨listing, found, inside⟩, shown, path_of_ofName⟩

/-- The artifacts for a stem in a directory all come from the one file that has their name. -/
theorem path_of_artifact (listed : list view directory = .ok entries) {entry : FileEntry}
    (member : entry ∈ entries) (artifact : Found.IsArtifact entry stem) :
    view.HasFile directory (artifactName stem) ∧
      entry.path = Path.join directory (artifactName stem) := by
  -- An artifact is an entry with a stem and the extension of artifacts.
  obtain ⟨extension, rfl⟩ := artifact
  have file := file_of_mem listed member (by rw [extension]; decide)
  rw [extension] at file
  exact ⟨file.1, file.2.2⟩

/-- The artifact for a stem is among the entries of the directory that lists it. -/
theorem artifact_of_hasFile (listed : list view directory = .ok entries)
    (shown : (artifactName stem).toList.head? ≠ some '.')
    (has : view.HasFile directory (artifactName stem)) :
    ∃ entry ∈ entries, Found.IsArtifact entry stem := by
  -- The file is shown, and has been made the entry with this stem.
  obtain ⟨listing, found, visible⟩ := mem_list listed
  obtain ⟨_, same, member⟩ := has
  cases found.symm.trans same
  refine ⟨ofName directory (artifactName stem), (visible _).mpr ⟨_, member, shown, rfl⟩, ?_⟩
  rw [artifactName, ofName_dotted (by decide)]
  exact ⟨rfl, rfl⟩

end FileEntry

namespace FileView.Trusts

variable {view : FileView} {stem path : String} {directory : MigrationDirectory}
  {directories : List MigrationDirectory}

/-- A source directory has no part in what is trusted. -/
theorem source_iff {name : String} :
    view.Trusts stem (⟨.source, name⟩ :: directories) path ↔ view.Trusts stem directories path :=
  -- Artifacts in directories of sources are not trusted.
  ⟨fun trusted => by cases trusted with | later trusted => exact trusted, .later⟩

/-- Either the artifact of a build directory is trusted or one of a later directory. -/
theorem build_iff {name : String} :
    view.Trusts stem (⟨.build, name⟩ :: directories) path ↔
      view.Trusts stem directories path ∨
        (path = Path.join name (artifactName stem) ∧ view.HasFile name (artifactName stem) ∧
          ∀ other ∈ directories, other.kind = .build →
            ¬ view.HasFile other.path (artifactName stem)) := by
  -- The directory is trusted itself only if no later one has the artifact.
  constructor
  · intro trusted
    cases trusted with
    | here has last => exact .inr ⟨rfl, has, last⟩
    | later trusted => exact .inl trusted
  · rintro (trusted | ⟨rfl, has, last⟩)
    · exact .later trusted
    · exact .here has last

/-- What is trusted is the artifact of one of the build directories. -/
theorem hasFile (trusted : view.Trusts stem directories path) : ∃ other ∈ directories,
    other.kind = .build ∧ view.HasFile other.path (artifactName stem) ∧
      path = Path.join other.path (artifactName stem) := by
  -- By induction on the way to the directory that is trusted.
  induction trusted with
  | here has last => exact ⟨_, List.mem_cons_self, rfl, has, rfl⟩
  | later _ ih =>
    obtain ⟨other, member, found⟩ := ih
    exact ⟨other, .tail _ member, found⟩

/-- Where some build directory has an artifact, one is trusted. -/
theorem of_hasFile (member : directory ∈ directories) (build : directory.kind = .build)
    (has : view.HasFile directory.path (artifactName stem)) :
    ∃ path, view.Trusts stem directories path := by
  -- By induction on the directories: the last one that has the artifact is trusted.
  induction directories generalizing directory with
  | nil => simp at member
  | cons first rest ih =>
    by_cases later : ∃ other ∈ rest, other.kind = .build ∧
        view.HasFile other.path (artifactName stem)
    · obtain ⟨other, inside, kind, found⟩ := later
      obtain ⟨path, trusted⟩ := ih inside kind found
      exact ⟨path, .later trusted⟩
    · -- No later directory has it, so that this one is the last.
      rcases List.mem_cons.mp member with rfl | behind
      · obtain ⟨kind, name⟩ := directory
        cases build
        exact ⟨_, .here has fun other inside kind found => later ⟨other, inside, kind, found⟩⟩
      · exact absurd ⟨directory, behind, build, has⟩ later

end FileView.Trusts

namespace Found

variable {found final : Found} {view : FileView} {directories : List MigrationDirectory}
  {events reported : List Event} {stem path : String}

/-- The artifact that is found for a stem is the trusted one, or one that was found before if no
build directory has any. -/
theorem get?_addAll_iff
    (searched : found.addAll view directories events = (.ok final, reported))
    (shown : (artifactName stem).toList.head? ≠ some '.') :
    final.artifacts.get? stem = some path ↔
      view.Trusts stem directories path ∨
        (found.artifacts.get? stem = some path ∧ ∀ directory ∈ directories,
          directory.kind = .build → ¬ view.HasFile directory.path (artifactName stem)) := by
  induction directories generalizing found events with
  | nil =>
    cases searched
    simp only [List.not_mem_nil, false_imp_iff, implies_true, and_true]
    exact ⟨.inr, fun either => either.resolve_left (fun trusted => by cases trusted)⟩
  | cons directory rest ih =>
    obtain ⟨entries, later, listed, onward⟩ := addAll_cons_ok searched
    rw [ih onward]
    obtain ⟨kind, name⟩ := directory
    cases kind with
    | source => simp [FileView.Trusts.source_iff, joined]
    | build =>
      rw [FileView.Trusts.build_iff, or_assoc]
      refine or_congr_right ?_
      simp only [List.forall_mem_cons, forall_const, joined]
      by_cases has : view.HasFile name (artifactName stem)
      · -- The artifact of this directory takes the place of any that was found before.
        have filed : (filed found.artifacts entries).get? stem =
            some (Path.join name (artifactName stem)) :=
          get?_filed _ (FileEntry.artifact_of_hasFile listed shown has) fun entry member artifact =>
            (FileEntry.path_of_artifact listed member artifact).2
        simp [filed, has, eq_comm]
      · -- A directory without the artifact leaves what was found before.
        have none : ∀ entry ∈ entries, ¬ IsArtifact entry stem := fun entry member artifact =>
          has (FileEntry.path_of_artifact listed member artifact).1
        simp [get?_filed_of_not _ none, has]

/-- Loading finds the trusted artifact for a stem, and no other. -/
theorem get?_eq_some_iff
    (searched : addAll view {} directories events = (.ok final, reported))
    (shown : (artifactName stem).toList.head? ≠ some '.') :
    final.artifacts.get? stem = some path ↔ view.Trusts stem directories path := by
  -- The search begins with no artifacts.
  have nothing : (({} : Found).artifacts.get? stem) = none := rfl
  simp [get?_addAll_iff searched shown, nothing]

/-- Sources are found directory by directory, in the order of each listing's paths. -/
theorem sources_addAll
    (searched : found.addAll view directories events = (.ok final, reported)) :
    ∃ groups, List.Forall₂
        (fun directory entries => FileEntry.list view directory.path = .ok entries)
      (directories.filter (·.kind = .source)) groups ∧
      final.sources = found.sources ++ groups.flatten := by
  -- By induction on the directories; those with artifacts add no group.
  induction directories generalizing found events with
  | nil =>
    cases searched
    exact ⟨[], .nil, by simp⟩
  | cons directory rest ih =>
    obtain ⟨entries, later, listed, onward⟩ := addAll_cons_ok searched
    obtain ⟨groups, each, sources⟩ := ih onward
    cases kind : directory.kind with
    | source =>
      -- The directory's own group comes before those of the others.
      refine ⟨entries :: groups, ?_, ?_⟩
      · rw [List.filter_cons_of_pos (by simp [kind])]
        exact .cons listed each
      · simp [sources, kind, joined]
    | build =>
      refine ⟨groups, ?_, ?_⟩
      · rwa [List.filter_cons_of_neg (by simp [kind])]
      · simp [sources, kind, joined]

end Found

end SchemaLedger
