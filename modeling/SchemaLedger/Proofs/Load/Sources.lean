import SchemaLedger.Proofs.Load.Reports
import SchemaLedger.Proofs.Load.Trust
import SchemaLedger.Proofs.Migration.Sections

/-! Every visible file of a source directory is loaded as one migration, in its place. -/

namespace SchemaLedger

open MigrationFile

/-- The visible files of a directory, in order of their paths. -/
structure FileView.Files (view : FileView) (directory : String) (entries : List FileEntry) :
    Prop where
  all : ∃ listing, view.list directory = .ok listing ∧
    entries.Perm (FileEntry.visible directory listing)
  ordered : entries.Pairwise (·.path ≤ ·.path)

/-- A directory lists names as the file system allows them, which separates names by slashes. -/
def FileView.Plain (view : FileView) (directory : String) : Prop :=
  ∀ name, view.HasFile directory name → '/' ∉ name.toList

/-- Where the texts of a migration come from. -/
inductive Yields (view : FileView) (registry : Registry) (directories : List MigrationDirectory)
    (entry : FileEntry) (migration : Migration) : Prop
  /-- They are the sections of a script. -/
  | script {text : String} (extension : entry.extension ∈ scriptExtensions)
    (content : view.read entry.path = .ok (.text text))
    (sections : Script.read entry.stem text = .ok migration)
  /-- They are what the registered definition compiles to. -/
  | registered {steps : List Step} (extension : entry.extension = sourceExtension)
    (defined : registry.definitions.get? entry.stem = some steps)
    (compiled : Registry.compileEntry entry.stem steps = .ok migration)
  /-- They are those of the trusted artifact. -/
  | built {path text : String} {artifact : Artifact} (extension : entry.extension = sourceExtension)
    (unknown : registry.definitions.get? entry.stem = none)
    (trusted : view.Trusts entry.stem directories path)
    (content : view.read path = .ok (.text text)) (decoded : Artifact.ofText text = .ok artifact)
    (migration_eq : migration = artifact.toMigration entry.stem)

namespace FileEntry

variable {view : FileView} {directory : String} {listing : List DirectoryEntry}
  {entries : List FileEntry} {entry : FileEntry}

/-- Listing a directory gives all its visible files, in order of their paths. -/
theorem files_of_list (listed : list view directory = .ok entries) :
    view.Files directory entries := by
  -- Sorting arranges the visible entries anew, by their paths.
  cases found : view.list directory with
  | error refusal => simp [list, found] at listed
  | ok listing =>
    cases all : ofListing directory listing with
    | error error => simp [list, found, all, Except.map] at listed
    | ok unsorted =>
      simp only [list, found, all, Except.map, Except.ok.injEq] at listed
      subst listed
      refine ⟨⟨listing, found, ?_⟩, ?_⟩
      · rw [← ofListing_eq all]
        exact List.mergeSort_perm _ _
      · have sorted : (unsorted.mergeSort fun left right => left.path ≤ right.path).Pairwise
            fun left right => decide (left.path ≤ right.path) = true := by
          -- Being at most is transitive and total, as sorting needs.
          refine List.pairwise_mergeSort (fun one two three first second => ?_)
            (fun one two => ?_) unsorted
          · simp only [decide_eq_true_eq] at first second ⊢
            exact String.le_trans first second
          · simpa using String.le_total one.path two.path
        exact sorted.imp fun before => by simpa using before

/-- The stem of a visible file with an extension is found again at the end of its path. -/
theorem stem?_path (plain : view.Plain directory) (listed : list view directory = .ok entries)
    (member : entry ∈ entries) (dotted : entry.extension ≠ "") :
    Path.stem? entry.path = some entry.stem := by
  obtain ⟨has, shown, path⟩ := file_of_mem listed member dotted
  -- The dot before the extension is the last of the name.
  have last : '.' ∉ entry.extension.toList := by
    obtain ⟨listing, -, visible⟩ := mem_list listed
    obtain ⟨name, -, -, rfl⟩ := (visible entry).mp member
    exact extension_of_ofName
  rw [path]
  exact Path.stem?_join (plain _ has) (shown_dotted.mp shown).1 dotted last

end FileEntry

section Reading

variable {view : FileView} {path : String} {migration : Migration}

/-- A file that is read is a text, and what it is read to is named after its path. -/
theorem opened_of_read {decode : String → String → Except MigrationError Migration}
    (read : (do let text ← view.readText path
                let name ← migrationName path
                decode text name) = .ok migration) :
    ∃ text name, view.read path = .ok (.text text) ∧ Path.stem? path = some name ∧
      decode text name = .ok migration := by
  -- Neither the reading nor the naming can have failed, as there would be no migration then.
  cases content : view.read path with
  | error refusal => simp [FileView.readText, content, bind, Except.bind] at read
  | ok raw =>
    cases raw with
    | binary bytes => simp [FileView.readText, content, bind, Except.bind] at read
    | text text =>
      cases stem : Path.stem? path with
      | none => simp [FileView.readText, content, migrationName, stem, bind, Except.bind] at read
      | some name =>
        simp only [FileView.readText, content, migrationName, stem, bind, Except.bind] at read
        exact ⟨text, name, rfl, rfl, read⟩

/-- A script that is read has sections, and the migration is named after its file. -/
theorem readScript_ok (read : readScript view path = .ok migration) : ∃ text name,
    view.read path = .ok (.text text) ∧ Path.stem? path = some name ∧
      Script.read name text = .ok migration := by
  obtain ⟨text, name, content, named, parsed⟩ := opened_of_read read
  -- A text without sections is an error of the file.
  cases sections : Script.read name text with
  | error flaw =>
    rw [sections] at parsed
    cases parsed
  | ok found =>
    rw [sections] at parsed
    cases parsed
    exact ⟨text, name, content, named, sections⟩

/-- An artifact that is read has texts, and the migration is named after its file. -/
theorem readArtifact_ok (read : readArtifact view path = .ok migration) : ∃ text name artifact,
    view.read path = .ok (.text text) ∧ Path.stem? path = some name ∧
      Artifact.ofText text = .ok artifact ∧ migration = artifact.toMigration name := by
  obtain ⟨text, name, content, named, parsed⟩ := opened_of_read read
  -- A text that is no artifact is an error of the file.
  cases decoded : Artifact.ofText text with
  | error fault =>
    rw [decoded] at parsed
    cases parsed
  | ok artifact =>
    rw [decoded] at parsed
    cases parsed
    exact ⟨text, name, artifact, content, named, decoded, rfl⟩

end Reading

namespace Yields

variable {view : FileView} {registry : Registry} {directories : List MigrationDirectory}
  {entry : FileEntry} {migration : Migration}

/-- Whatever a migration comes from, it has the stem of its file and has not been applied. -/
theorem named (yields : Yields view registry directories entry migration) :
    migration.name = entry.stem ∧ migration.appliedAt = none := by
  -- The name is that of the entry in each of the three ways, and no time is given.
  cases yields with
  | script _ _ sections => exact Script.read_ok sections
  | registered _ _ compiled =>
    obtain ⟨scripts, -, rfl⟩ := Registry.compileEntry_eq_ok.mp compiled
    exact ⟨rfl, rfl⟩
  | built _ _ _ _ _ migration_eq =>
    rw [migration_eq]
    exact ⟨rfl, rfl⟩

end Yields

section Resolving

open Loading

variable {view : FileView} {registry : Registry} {artifacts : Keyed String}
  {directories : List MigrationDirectory} {entry : FileEntry} {entries : List FileEntry}
  {migration : Migration} {migrations : List Migration} {needed : List String}
  {told reported : List Event} {fromArtifact : Bool}

/-- A source that is resolved yields its migration, if the artifacts are those that are trusted. -/
theorem resolveSource_ok
    (resolved : resolveSource view registry artifacts entry told =
      (.ok (migration, fromArtifact), reported))
    (stem : entry.extension ≠ "" → Path.stem? entry.path = some entry.stem)
    (trusted : entry.extension = sourceExtension → ∀ path, artifacts.get? entry.stem = some path →
      view.Trusts entry.stem directories path ∧ Path.stem? path = some entry.stem) :
    Yields view registry directories entry migration := by
  -- The cases are those of the source: a script, a definition and any other file.
  by_cases script : scriptExtensions.contains entry.extension = true
  · simp only [resolveSource, if_pos script] at resolved
    obtain ⟨found, later, read, done⟩ := bind_ok resolved
    cases done
    have extension : entry.extension ∈ scriptExtensions := by simpa using script
    have dotted : entry.extension ≠ "" := by
      intro bare
      rw [bare] at script
      exact absurd script (by decide)
    obtain ⟨text, name, content, named, sections⟩ := readScript_ok (lift_ok read)
    -- The migration has the name of the entry, as its path has the same stem.
    cases named.symm.trans (stem dotted)
    exact .script extension content sections
  by_cases source : entry.extension = sourceExtension
  · simp only [resolveSource, if_neg script, if_pos source] at resolved
    obtain ⟨compiled, later, compiles, onward⟩ := bind_ok resolved
    have outcome := lift_ok compiles
    cases registered : registry.definitions.get? entry.stem with
    | some steps =>
      cases scripts : Registry.compileEntry entry.stem steps with
      | error error => simp [Registry.compile?, registered, scripts, Except.map] at outcome
      | ok own =>
        simp only [Registry.compile?, registered, scripts, Except.map, Except.ok.injEq] at outcome
        subst outcome
        -- The definition is registered, so that no artifact is looked at.
        obtain ⟨_, _, _, done⟩ := bind_ok onward
        cases done
        exact .registered source registered scripts
    | none =>
      simp only [Registry.compile?, registered, Except.ok.injEq] at outcome
      subst outcome
      cases found : artifacts.get? entry.stem with
      | none =>
        simp only [found] at onward
        cases onward
      | some path =>
        simp only [found] at onward
        obtain ⟨_, _, _, reading⟩ := bind_ok onward
        obtain ⟨_, _, read, done⟩ := bind_ok reading
        cases done
        obtain ⟨text, name, artifact, content, named, decoded, same⟩ :=
          readArtifact_ok (lift_ok read)
        obtain ⟨trusts, stemmed⟩ := trusted source path found
        -- The artifact has the name of the definition, as its path has the same stem.
        cases named.symm.trans stemmed
        exact .built source registered trusts content decoded same
  · simp only [resolveSource, if_neg script, if_neg source] at resolved
    cases resolved

/-- Sources that are all resolved give a migration each, in the same order. -/
theorem resolveSources_ok
    (resolved : resolveSources view registry artifacts entries told =
      (.ok (migrations, needed), reported)) :
    List.Forall₂ (fun entry migration => ∃ told reported fromArtifact,
      resolveSource view registry artifacts entry told =
        (.ok (migration, fromArtifact), reported)) entries migrations := by
  -- By induction on the entries, each of which has its migration.
  induction entries generalizing told migrations needed with
  | nil =>
    cases resolved
    exact .nil
  | cons entry rest ih =>
    simp only [resolveSources] at resolved
    obtain ⟨⟨migration, fromArtifact⟩, later, first, onward⟩ := bind_ok resolved
    obtain ⟨⟨more, stems⟩, last, others, done⟩ := bind_ok onward
    cases done
    exact .cons ⟨_, _, _, first⟩ (ih others)

end Resolving

namespace Found

variable {final : Found} {view : FileView} {directories : List MigrationDirectory}
  {told reported : List Event} {entry : FileEntry}

/-- What is found for a source is the trusted artifact, and its path ends with the stem. -/
theorem trusts_of_get? (plain : ∀ directory ∈ directories, view.Plain directory.path)
    (searched : addAll view {} directories told = (.ok final, reported))
    (member : entry ∈ final.sources) (source : entry.extension = sourceExtension) {path : String}
    (found : final.artifacts.get? entry.stem = some path) :
    view.Trusts entry.stem directories path ∧ Path.stem? path = some entry.stem := by
  -- The source is a file that is shown, and so would its artifact be.
  rcases listed_of_addAll searched member with nowhere | ⟨_, _, _, entries, listed, inside⟩
  · cases nowhere
  obtain ⟨-, shown, -⟩ := FileEntry.file_of_mem listed inside (by rw [source]; decide)
  have stem := FileEntry.shown_dotted.mp shown
  have trusted := (get?_eq_some_iff searched (FileEntry.shown_dotted.mpr stem)).mp found
  obtain ⟨other, among, -, has, rfl⟩ := trusted.hasFile
  exact ⟨trusted, Path.stem?_join (plain other among _ has) stem.1 (by decide) (by decide)⟩

end Found

/-- Where loading succeeds, every visible file of the source directories has become one migration
of its stem, directory by directory and in order of the paths, with the texts that it yields. -/
theorem sources_become_migrations {view : FileView} {registry : Registry}
    {directories : List MigrationDirectory} {migrations : List Migration} {told : List Event}
    (plain : ∀ directory ∈ directories, view.Plain directory.path)
    (loaded : (loadMigrations view directories registry told).1 = .ok migrations) :
    ∃ groups, List.Forall₂ (fun directory entries => view.Files directory.path entries)
        (directories.filter (·.kind = .source)) groups ∧
      migrations.map (·.name) = groups.flatten.map (·.stem) ∧
      List.Forall₂ (fun entry migration => migration.appliedAt = none ∧
        Yields view registry directories entry migration) groups.flatten migrations := by
  rcases outcome : loadMigrations view directories registry told with ⟨result, reported⟩
  rw [outcome] at loaded
  subst loaded
  -- Loading is searching, resolving and reporting what was left over.
  obtain ⟨final, later, searched, onward⟩ := Loading.bind_ok outcome
  obtain ⟨⟨migrations, needed⟩, last, resolved, done⟩ := Loading.bind_ok onward
  obtain ⟨_, _, _, returned⟩ := Loading.bind_ok done
  cases returned
  obtain ⟨groups, each, sources⟩ := Found.sources_addAll searched
  have sources : final.sources = groups.flatten := by simpa using sources
  -- What is found for a source, in the sources or among the artifacts, is what it yields.
  have yields : ∀ entry ∈ final.sources, ∀ migration,
      (∃ told reported fromArtifact, resolveSource view registry final.artifacts entry told =
        (.ok (migration, fromArtifact), reported)) →
      Yields view registry directories entry migration := by
    rintro entry member migration ⟨_, _, _, found⟩
    rcases Found.listed_of_addAll searched member with nowhere | ⟨_, among, _, _, listed, inside⟩
    · cases nowhere
    exact resolveSource_ok found (FileEntry.stem?_path (plain _ among) listed inside)
      fun source path => Found.trusts_of_get? plain searched member source
  have all := (List.forall₂_and_left _ _).mpr ⟨fun _ member => member, resolveSources_ok resolved⟩
  have yielded := all.imp fun entry migration both => yields entry both.1 migration both.2
  rw [sources] at yielded
  refine ⟨groups, each.imp fun _ _ listed => FileEntry.files_of_list listed, ?_,
    yielded.imp fun _ _ found => ⟨found.named.2, found⟩⟩
  -- Names are read off what the sources yield.
  have names := yielded.imp fun _ _ found => found.named.1.symm
  exact (List.forall₂_eq_eq_eq ▸
    List.forall₂_map_left_iff.mpr (List.forall₂_map_right_iff.mpr names)).symm

/-- A compiled source, a script with two dots in its name and a registered source are loaded, and a
hidden file and a directory beside them are not. -/
theorem sources_become_migrations_sample :
    let view : FileView := {
      list := fun path =>
        if path = "/s" then
          .ok [⟨.text "2_b.x.sql", true⟩, ⟨.text "3_c.rs", true⟩, ⟨.text ".4_d.sql", true⟩,
            ⟨.text "5_e", false⟩, ⟨.text "1_a.rs", true⟩]
        else .ok [⟨.text "1_a.json", true⟩]
      read := fun path =>
        .ok (.text (if path = "/s/2_b.x.sql" then "-- up\n-- down\n" else "[\"d\",\"u\",\"v\"]")) }
    let registry := Registry.empty.register "3_c" [.describe "C"]
    let directories : List MigrationDirectory := [⟨.source, "/s"⟩, ⟨.build, "/b"⟩]
    let migrations : List Migration :=
      [{ name := "1_a", up := "u", down := "v", description := "d" },
        { name := "2_b.x", up := "-- up\n", down := "-- down\n", description := "<not specified>" },
        { name := "3_c", up := "", down := "", description := "C" }]
    (loadMigrations view directories registry []).1 = .ok migrations ∧
      ∃ groups, List.Forall₂ (fun directory entries => view.Files directory.path entries)
          (directories.filter (·.kind = .source)) groups ∧
        ["1_a", "2_b.x", "3_c"] = groups.flatten.map (·.stem) ∧
        List.Forall₂ (fun entry migration => migration.appliedAt = none ∧
          Yields view registry directories entry migration) groups.flatten migrations := by
  intro view registry directories migrations
  have plain : ∀ directory ∈ directories, view.Plain directory.path := by
    -- Of the names in the listing each has a plain path.
    rintro directory member name ⟨listing, found, inside⟩
    simp only [directories, List.mem_cons, List.not_mem_nil, or_false] at member
    rcases member with rfl | rfl
    · cases found
      simp only [List.mem_cons, DirectoryEntry.mk.injEq, RawText.text.injEq, and_true,
        Bool.true_eq_false, and_false, List.not_mem_nil, or_false, false_or] at inside
      rcases inside with rfl | rfl | rfl | rfl <;> decide
    · cases found
      simp only [List.mem_singleton, DirectoryEntry.mk.injEq, RawText.text.injEq, and_true]
        at inside
      subst inside
      decide
  have loaded : (loadMigrations view directories registry []).1 = .ok migrations := by
    -- The hidden file and the folder are left out.
    have listed : FileEntry.ofListing "/s" [⟨.text "2_b.x.sql", true⟩, ⟨.text "3_c.rs", true⟩,
          ⟨.text ".4_d.sql", true⟩, ⟨.text "5_e", false⟩, ⟨.text "1_a.rs", true⟩] =
        .ok [⟨"2_b.x", "sql", "/s/2_b.x.sql"⟩, ⟨"3_c", "rs", "/s/3_c.rs"⟩,
          ⟨"1_a", "rs", "/s/1_a.rs"⟩] := by decide +kernel
    -- The others are then sorted by their paths.
    have sources : FileEntry.list view "/s" = .ok [⟨"1_a", "rs", "/s/1_a.rs"⟩,
        ⟨"2_b.x", "sql", "/s/2_b.x.sql"⟩, ⟨"3_c", "rs", "/s/3_c.rs"⟩] := by
      simp [FileEntry.list, view, listed, Except.map, List.mergeSort,
        List.MergeSort.Internal.splitInTwo, List.splitAt, List.splitAt.go]
    have artifacts : FileEntry.list view "/b" = .ok [⟨"1_a", "json", "/b/1_a.json"⟩] := by
      decide +kernel
    simp only [loadMigrations, Found.addAll, directories, sources, artifacts]
    decide +kernel
  exact ⟨loaded, sources_become_migrations plain loaded⟩

end SchemaLedger
