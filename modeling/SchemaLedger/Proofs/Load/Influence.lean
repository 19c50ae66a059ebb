import Mathlib.Data.List.Forall2
import SchemaLedger.Proofs.Load.Sources

/-! Files of build directories have no influence on what is loaded, unless they are the artifacts
that sources are waiting for. -/

namespace SchemaLedger

open MigrationFile Loading

/-- The name of the file that stands for a registered definition. -/
def MigrationFile.sourceName (stem : String) : String := stem ++ "." ++ sourceExtension

/-- Two listings name the same, in the same order, but for files with names that are free. -/
inductive SameNames (free : String → Prop) : List DirectoryEntry → List DirectoryEntry → Prop
  | nil : SameNames free [] []
  | both {listing listingToo : List DirectoryEntry} (entry : DirectoryEntry)
    (rest : SameNames free listing listingToo) :
    SameNames free (entry :: listing) (entry :: listingToo)
  | onlyHere {listing listingToo : List DirectoryEntry} {name : String} (allowed : free name)
    (rest : SameNames free listing listingToo) :
    SameNames free (⟨.text name, true⟩ :: listing) listingToo
  | onlyThere {listing listingToo : List DirectoryEntry} {name : String} (allowed : free name)
    (rest : SameNames free listing listingToo) :
    SameNames free listing (⟨.text name, true⟩ :: listingToo)

/-- A listing may be arranged in any order, unless it has a name that is no text. -/
inductive Arranged : List DirectoryEntry → List DirectoryEntry → Prop
  | same (listing : List DirectoryEntry) : Arranged listing listing
  | anew {listing arranged : List DirectoryEntry} (textual : FileEntry.Textual listing)
    (permuted : listing.Perm arranged) : Arranged listing arranged

/-- Two views differ in a directory only in the presence and the content of files with names that
are free, and in the order in which texts are listed. -/
structure FileView.SameBut (one other : FileView) (free : String → Prop) (directory : String) :
    Prop where
  /-- Either the directory is refused for one reason, or it is listed. -/
  list : (∃ refusal, one.list directory = .error refusal ∧ other.list directory = .error refusal) ∨
    ∃ listing listingToo arranged arrangedToo, one.list directory = .ok listing ∧
      other.list directory = .ok listingToo ∧ Arranged listing arranged ∧
      Arranged listingToo arrangedToo ∧ SameNames free arranged arrangedToo
  read : ∀ name, one.HasFile directory name → ¬ free name →
    one.read (Path.join directory name) = other.read (Path.join directory name)

/-- An artifact is awaited if a source directory shows a source of its stem, for which nothing is
registered. -/
def Awaited (view : FileView) (directories : List MigrationDirectory) (registry : Registry)
    (stem : String) : Prop :=
  registry.definitions.get? stem = none ∧ (sourceName stem).toList.head? ≠ some '.' ∧
    ∃ directory ∈ directories, directory.kind = .source ∧
      view.HasFile directory.path (sourceName stem)

/-- A file in a build directory counts if it is an awaited artifact, and no later build directory
has another for its stem. -/
def Counts (view : FileView) (directories : List MigrationDirectory) (registry : Registry)
    (later : List MigrationDirectory) (name : String) : Prop :=
  ∃ stem, Awaited view directories registry stem ∧ name = artifactName stem ∧
    ∀ other ∈ later, other.kind = .build → ¬ view.HasFile other.path name

/-- Two views hold the same in every source directory, and the same in every build directory but
for files that do not count. -/
structure FileView.SameWhereCounted (one other : FileView) (registry : Registry)
    (directories : List MigrationDirectory) : Prop where
  sources : ∀ directory ∈ directories, directory.kind = .source →
    one.SameBut other (fun _ => False) directory.path
  builds : ∀ before directory later, directories = before ++ ⟨.build, directory⟩ :: later →
    one.SameBut other (fun name => ¬ Counts one directories registry later name) directory

section Listings

variable {free : String → Prop} {one other : FileView} {listing listingToo : List DirectoryEntry}
  {directory name : String}

/-- A file whose name is not free is in both listings, or in neither. -/
theorem SameNames.mem_iff (same : SameNames free listing listingToo) (kept : ¬ free name) :
    ⟨.text name, true⟩ ∈ listing ↔ ⟨.text name, true⟩ ∈ listingToo := by
  -- By induction on the two listings: a name in only one of them is free.
  induction same with
  | nil => simp
  | both entry _ ih => simp [ih]
  | onlyHere allowed _ ih | onlyThere allowed _ ih =>
    have apart : name ≠ _ := fun same => kept (same ▸ allowed)
    simp [apart, ih]

/-- Listings in which nothing is free are the same. -/
theorem SameNames.eq (same : SameNames (fun _ => False) listing listingToo) :
    listing = listingToo := by
  -- No name is free, so that all entries are in both.
  induction same with
  | nil => rfl
  | both entry _ ih => rw [ih]
  | onlyHere allowed | onlyThere allowed => exact absurd allowed id

/-- Both listings have entries, or both are refused for the first name that is no text. -/
theorem SameNames.alike (same : SameNames free listing listingToo) (directory : String) :
    Alike (fun _ _ => True) (FileEntry.ofListing directory listing)
      (FileEntry.ofListing directory listingToo) := by
  induction same with
  | nil => exact .value trivial
  | both entry _ ih =>
    -- A name that both have is refused in both or in neither.
    obtain ⟨raw, isFile⟩ := entry
    cases raw with
    | binary bytes => exact .error _
    | text name =>
      rw [FileEntry.ofListing_text, FileEntry.ofListing_text]
      exact ih.map fun _ _ _ => trivial
  -- A name that only one listing has is text, and so refused in neither.
  | onlyHere _ _ ih =>
    rw [FileEntry.ofListing_text]
    exact ih.map_left fun _ _ _ => trivial
  | onlyThere _ _ ih =>
    rw [FileEntry.ofListing_text]
    exact ih.map_right fun _ _ _ => trivial

/-- A listing has the same entries in whichever order. -/
theorem Arranged.mem_iff {arranged : List DirectoryEntry} {entry : DirectoryEntry}
    (reordered : Arranged listing arranged) : entry ∈ listing ↔ entry ∈ arranged := by
  -- Any arrangement has the same entries.
  cases reordered with
  | same => rfl
  | anew _ permuted => exact permuted.mem_iff

/-- The entries of a directory are put into order, so that their arrangement is without effect. -/
theorem Arranged.list_eq {arranged : List DirectoryEntry} (reordered : Arranged listing arranged)
    (listed : one.list directory = .ok listing) : FileEntry.list one directory =
      (FileEntry.ofListing directory arranged).map
        (·.mergeSort fun left right => left.path ≤ right.path) := by
  -- Sorting forgets the arrangement, where all names are text.
  rw [FileEntry.list, listed]
  cases reordered with
  | same => rfl
  | anew textual permuted => exact FileEntry.sorted_eq_of_perm permuted textual

namespace FileView.SameBut

/-- A directory has a file in both views or in neither, unless its name is free. -/
theorem hasFile_iff (same : one.SameBut other free directory) (kept : ¬ free name) :
    one.HasFile directory name ↔ other.HasFile directory name := by
  -- The name is not free, so that it is in both listings or in neither.
  rcases same.list with ⟨refusal, refused, refusedToo⟩ |
    ⟨_, _, _, _, listed, listedToo, here, there, names⟩
  · simp [HasFile, refused, refusedToo]
  · simp [HasFile, listed, listedToo, here.mem_iff, there.mem_iff, names.mem_iff kept]

/-- A directory is listed in both views, or refused for one reason. -/
theorem list_alike (same : one.SameBut other free directory) :
    Alike (fun _ _ => True) (FileEntry.list one directory) (FileEntry.list other directory) := by
  -- The names on which the two differ may change the entries, but not whether there is an error.
  rcases same.list with ⟨refusal, refused, refusedToo⟩ |
    ⟨_, _, _, _, listed, listedToo, here, there, names⟩
  · rw [FileEntry.list, FileEntry.list, refused, refusedToo]
    exact .error _
  · rw [here.list_eq listed, there.list_eq listedToo]
    exact (names.alike directory).map fun _ _ _ => trivial

/-- A directory in which nothing is free is listed with the same entries. -/
theorem list_eq (same : one.SameBut other (fun _ => False) directory) :
    FileEntry.list one directory = FileEntry.list other directory := by
  -- Nothing may differ but the arrangement, which sorting forgets.
  rcases same.list with ⟨refusal, refused, refusedToo⟩ |
    ⟨_, _, _, _, listed, listedToo, here, there, names⟩
  · rw [FileEntry.list, FileEntry.list, refused, refusedToo]
  · rw [here.list_eq listed, there.list_eq listedToo, names.eq]

end FileView.SameBut

end Listings

section Reading

variable {one other : FileView} {registry : Registry} {artifacts artifactsToo : Keyed String}
  {found foundToo : Found} {directories : List MigrationDirectory} {entry : FileEntry}
  {entries : List FileEntry}

/-- Directories are searched in both views, or the same is wrong with the first that is refused. -/
theorem Found.addAll_agree (alike : ∀ directory ∈ directories,
      Alike (fun _ _ => True) (FileEntry.list one directory.path)
        (FileEntry.list other directory.path)) :
    Agree (found.addAll one directories) (foundToo.addAll other directories) fun _ _ => True := by
  -- By induction on the directories, each of which is listed in both or in neither.
  induction directories generalizing found foundToo with
  | nil => exact agree_pure trivial
  | cons directory rest ih =>
    have onward : ∀ found foundToo : Found,
        Agree (found.addAll one rest) (foundToo.addAll other rest) fun _ _ => True :=
      fun _ _ => ih fun later member => alike later (.tail _ member)
    simp only [addAll]
    refine (agree_of_alike (alike directory List.mem_cons_self)).bind fun entries entriesToo _ => ?_
    cases directory.kind with
    | source => exact onward _ _
    | build =>
      -- Filing artifacts cannot fail, whatever they are.
      have added : Agree (found.addBuild entries) (foundToo.addBuild entriesToo)
          fun _ _ => True := by
        intro events others
        obtain ⟨_, here⟩ := addBuild_eq found entries events
        obtain ⟨_, there⟩ := addBuild_eq foundToo entriesToo others
        rw [here, there]
        exact .value trivial
      exact added.bind fun _ _ _ => onward _ _

/-- A source is resolved in the same way where the same is read for it. -/
theorem resolveSource_same
    (read : entry.extension ≠ "" → one.read entry.path = other.read entry.path)
    (artifact : entry.extension = sourceExtension → registry.definitions.get? entry.stem = none →
      artifacts.get? entry.stem = artifactsToo.get? entry.stem ∧
        ∀ path, artifacts.get? entry.stem = some path → one.read path = other.read path) :
    Agree (resolveSource one registry artifacts entry)
      (resolveSource other registry artifactsToo entry) (· = ·) := by
  -- The cases are those of the source: a script, a definition and any other file.
  by_cases script : scriptExtensions.contains entry.extension = true
  · -- An entry with a script's extension has one, so that its content is the same.
    have dotted : entry.extension ≠ "" := by
      intro bare
      rw [bare] at script
      exact absurd script (by decide)
    have same : readScript one entry.path = readScript other entry.path := by
      simp only [readScript, FileView.readText, read dotted]
    simp only [resolveSource, if_pos script, same]
    exact (agree_lift _).bind fun first second same => agree_pure (by rw [same])
  by_cases source : entry.extension = sourceExtension
  · simp only [resolveSource, if_neg script, if_pos source]
    cases registered : registry.definitions.get? entry.stem with
    | some steps =>
      -- A registered definition is compiled without looking at files.
      have known : registry.compile? entry.stem =
          (Registry.compileEntry entry.stem steps).map some := by
        simp [Registry.compile?, registered]
      rw [known]
      cases Registry.compileEntry entry.stem steps with
      | error error => exact fun _ _ => .error error
      | ok migration => exact fun _ _ => .value rfl
    | none =>
      -- An unregistered one is read from its artifact, if there is any.
      have unknown : registry.compile? entry.stem = .ok none := by
        simp [Registry.compile?, registered]
      obtain ⟨same, reads⟩ := artifact source registered
      rw [unknown, ← same]
      cases found : artifacts.get? entry.stem with
      | none => exact fun _ _ => .error _
      | some path =>
        have content : readArtifact one path = readArtifact other path := by
          simp only [readArtifact, FileView.readText, reads path found]
        refine (agree_lift _).bind fun first second equal => ?_
        subst equal
        cases first with
        | some migration => exact fun _ _ => .value rfl
        | none =>
          dsimp only
          rw [content]
          refine Agree.report ?_ _ _
          exact (agree_lift _).bind fun first second same => agree_pure (by rw [same])
  · simp only [resolveSource, if_neg script, if_neg source]
    exact fun _ _ => .error _

/-- Sources are resolved in the same way where each of them is. -/
theorem resolveSources_same (each : ∀ entry ∈ entries,
      Agree (resolveSource one registry artifacts entry)
        (resolveSource other registry artifactsToo entry) (· = ·)) :
    Agree (resolveSources one registry artifacts entries)
      (resolveSources other registry artifactsToo entries) (· = ·) := by
  -- By induction on the entries, which are resolved one by one.
  induction entries with
  | nil => exact agree_pure rfl
  | cons entry rest ih =>
    refine (each entry List.mem_cons_self).bind fun first second same => ?_
    refine (ih fun later member => each later (.tail _ member)).bind fun more others behind => ?_
    exact agree_pure (by rw [same, behind])

end Reading

namespace FileView.SameWhereCounted

variable {one other : FileView} {registry : Registry} {directories : List MigrationDirectory}
  {stem : String}

/-- Where no later build directory has an awaited artifact, a build directory has it in both views
or in neither, and with the same content. -/
theorem counted (same : one.SameWhereCounted other registry directories)
    (awaited : Awaited one directories registry stem) {before later : List MigrationDirectory}
    {directory : String} (split : directories = before ++ ⟨.build, directory⟩ :: later)
    (last : ∀ other ∈ later, other.kind = .build → ¬ one.HasFile other.path (artifactName stem)) :
    (one.HasFile directory (artifactName stem) ↔ other.HasFile directory (artifactName stem)) ∧
      (one.HasFile directory (artifactName stem) →
        one.read (Path.join directory (artifactName stem)) =
          other.read (Path.join directory (artifactName stem))) := by
  have here := same.builds before directory later split
  -- The directory is the last to have the artifact, so that this one counts.
  have counts : Counts one directories registry later (artifactName stem) :=
    ⟨stem, awaited, rfl, last⟩
  exact ⟨here.hasFile_iff (not_not.mpr counts), fun has => here.read _ has (not_not.mpr counts)⟩

/-- Where no build directory behind some others has an awaited artifact in the one view, none has
it in the other. -/
theorem none_counted (same : one.SameWhereCounted other registry directories)
    (awaited : Awaited one directories registry stem) {before rest : List MigrationDirectory}
    (split : directories = before ++ rest)
    (none : ∀ place ∈ rest, place.kind = .build → ¬ one.HasFile place.path (artifactName stem)) :
    ∀ place ∈ rest, place.kind = .build → ¬ other.HasFile place.path (artifactName stem) := by
  rintro ⟨kind, directory⟩ member build has
  obtain ⟨front, later, rfl⟩ := List.append_of_mem member
  cases build
  -- Nothing behind the directory has the artifact either, so that it would count there.
  have whole : directories = (before ++ front) ++ ⟨.build, directory⟩ :: later := by simp [split]
  have both := (same.counted awaited whole fun place behind =>
    none place (by simp [behind])).1
  exact none _ member rfl (both.mpr has)

/-- An awaited artifact that is trusted in the one view is so in the other, with the same
content. -/
theorem trusts (same : one.SameWhereCounted other registry directories)
    (awaited : Awaited one directories registry stem) {before rest : List MigrationDirectory}
    {path : String} (split : directories = before ++ rest) (trusted : one.Trusts stem rest path) :
    other.Trusts stem rest path ∧ one.read path = other.read path := by
  -- By induction on the way to the directory that is trusted.
  induction trusted generalizing before with
  | @here directory later has last =>
    have onward : directories = (before ++ [⟨.build, directory⟩]) ++ later := by simp [split]
    obtain ⟨both, content⟩ := same.counted awaited split last
    exact ⟨.here (both.mp has) (same.none_counted awaited onward last), content has⟩
  | @later directory later _ _ ih =>
    have onward : directories = (before ++ [directory]) ++ later := by simp [split]
    obtain ⟨trusted, content⟩ := ih onward
    exact ⟨.later trusted, content⟩

/-- For an awaited artifact the same is found in both views, and the same is read there. -/
theorem found (same : one.SameWhereCounted other registry directories)
    (awaited : Awaited one directories registry stem) {final finalToo : Found}
    {told toldToo reported reportedToo : List Event}
    (searched : Found.addAll one {} directories told = (.ok final, reported))
    (searchedToo : Found.addAll other {} directories toldToo = (.ok finalToo, reportedToo)) :
    final.artifacts.get? stem = finalToo.artifacts.get? stem ∧
      ∀ path, final.artifacts.get? stem = some path → one.read path = other.read path := by
  have shown : (artifactName stem).toList.head? ≠ some '.' :=
    FileEntry.shown_dotted.mpr (FileEntry.shown_dotted.mp awaited.2.1)
  have here : ∀ path, final.artifacts.get? stem = some path ↔ one.Trusts stem directories path :=
    fun _ => Found.get?_eq_some_iff searched shown
  have there : ∀ path, finalToo.artifacts.get? stem = some path ↔
      other.Trusts stem directories path := fun _ => Found.get?_eq_some_iff searchedToo shown
  have whole : directories = [] ++ directories := rfl
  cases found : final.artifacts.get? stem with
  | some path =>
    -- What is trusted in the one view is trusted in the other, and has the same content.
    obtain ⟨trusted, content⟩ := same.trusts awaited whole ((here path).mp found)
    refine ⟨((there path).mpr trusted).symm, ?_⟩
    rintro _ ⟨⟩
    exact content
  | none =>
    refine ⟨?_, nofun⟩
    -- If nothing is trusted in the one view, no build directory has anything to trust.
    have nowhere : ∀ place ∈ directories, place.kind = .build →
        ¬ one.HasFile place.path (artifactName stem) := by
      intro place member build has
      obtain ⟨path, trusted⟩ := FileView.Trusts.of_hasFile member build has
      rw [(here path).mpr trusted] at found
      cases found
    cases foundToo : finalToo.artifacts.get? stem with
    | none => rfl
    | some path =>
      obtain ⟨place, member, build, has, -⟩ := ((there path).mp foundToo).hasFile
      exact absurd has (same.none_counted awaited whole nowhere place member build)

/-- The same sources are found in both views. -/
theorem sources_eq (same : one.SameWhereCounted other registry directories)
    {final finalToo : Found} {told toldToo reported reportedToo : List Event}
    (searched : Found.addAll one {} directories told = (.ok final, reported))
    (searchedToo : Found.addAll other {} directories toldToo = (.ok finalToo, reportedToo)) :
    final.sources = finalToo.sources := by
  obtain ⟨groups, each, sources⟩ := Found.sources_addAll searched
  obtain ⟨groupsToo, eachToo, sourcesToo⟩ := Found.sources_addAll searchedToo
  -- Each source directory gives the same group in both views.
  have alsoHere : List.Forall₂ (fun directory entries =>
      FileEntry.list one directory.path = .ok entries)
      (directories.filter (·.kind = .source)) groupsToo := by
    have among := (List.forall₂_and_left _ _).mpr ⟨fun _ member => member, eachToo⟩
    refine among.imp fun directory entries both => ?_
    obtain ⟨member, kind⟩ := List.mem_filter.mp both.1
    rw [(same.sources directory member (by simpa using kind)).list_eq, both.2]
  -- A directory has one listing, so that the groups agree one by one.
  have equal := List.right_unique_forall₂' (fun _ _ _ first second =>
    Except.ok.inj (first.symm.trans second)) each alsoHere
  rw [sources, sourcesToo, equal]

end FileView.SameWhereCounted

/-- Loading has the same result in two views that hold the same wherever it counts. -/
theorem uncounted_without_influence {one other : FileView} {registry : Registry}
    {directories : List MigrationDirectory}
    (same : one.SameWhereCounted other registry directories) (told toldToo : List Event) :
    (loadMigrations one directories registry told).1 =
      (loadMigrations other directories registry toldToo).1 := by
  -- The two searches succeed together, since each directory can be listed in both or in neither.
  have alike : ∀ directory ∈ directories, Alike (fun _ _ => True)
      (FileEntry.list one directory.path) (FileEntry.list other directory.path) := by
    rintro ⟨kind, path⟩ member
    cases kind with
    | source => exact (same.sources _ member rfl).list_alike
    | build =>
      obtain ⟨before, later, split⟩ := List.append_of_mem member
      exact (same.builds before path later split).list_alike
  have search : Agree (Found.addAll one {} directories) (Found.addAll other {} directories)
      fun _ _ => True := Found.addAll_agree alike
  have searches := search told toldToo
  rcases searched : Found.addAll one {} directories told with ⟨outcome, reported⟩
  rcases searchedToo : Found.addAll other {} directories toldToo with ⟨outcomeToo, reportedToo⟩
  rw [searched, searchedToo] at searches
  cases searches with
  | error error => simp only [loadMigrations, bind_apply, searched, searchedToo]
  | @value final finalToo _ =>
    have sources := same.sources_eq searched searchedToo
    -- Whatever is read for a source is the same in both views.
    have each : ∀ entry ∈ final.sources, Agree (resolveSource one registry final.artifacts entry)
        (resolveSource other registry finalToo.artifacts entry) (· = ·) := by
      intro entry member
      rcases Found.listed_of_addAll searched member with
        nowhere | ⟨directory, among, kind, entries, listed, inside⟩
      · cases nowhere
      refine resolveSource_same (fun dotted => ?_) fun source unknown => ?_
      · -- Sources are read where nothing may differ.
        obtain ⟨has, -, path⟩ := FileEntry.file_of_mem listed inside dotted
        rw [path]
        exact (same.sources directory among kind).read _ has id
      · -- Artifacts are read only where they count.
        obtain ⟨has, shown, -⟩ := FileEntry.file_of_mem listed inside (by rw [source]; decide)
        rw [source] at has shown
        exact same.found ⟨unknown, shown, directory, among, kind, has⟩ searched searchedToo
    have agree := (resolveSources_same each).bind fun one other same =>
      agree_reported (congrArg Prod.fst same) (leftOver final.artifacts one.2)
        (leftOver finalToo.artifacts other.2) fun entry => .artifactSkipped entry.1 entry.2
    have result := (agree reported reportedToo).eq
    simp only [loadMigrations]
    rw [bind_apply, bind_apply, searched, searchedToo]
    dsimp only
    rw [← sources]
    exact result

/-- An artifact that no source is waiting for may be malformed, one that is replaced in a later
directory may be missing, and directories may be listed in another order. -/
theorem uncounted_without_influence_sample :
    let one : FileView := {
      list := fun path =>
        if path = "/s" then .ok [⟨.text "1_a.rs", true⟩, ⟨.text "old", false⟩]
        else .ok [⟨.text "1_a.json", true⟩]
      read := fun path =>
        .ok (.text (if path = "/b/1_a.json" then "[\"d\",\"u\",\"v\"]" else "")) }
    let other : FileView := { one with
      list := fun path =>
        if path = "/s" then .ok [⟨.text "old", false⟩, ⟨.text "1_a.rs", true⟩]
        else if path = "/b" then .ok [⟨.text "2_b.json", true⟩, ⟨.text "1_a.json", true⟩]
        else .ok [] }
    let directories := [⟨.source, "/s"⟩, ⟨.build, "/old"⟩, ⟨.build, "/b"⟩]
    let loaded : List Migration := [{ name := "1_a", up := "u", down := "v", description := "d" }]
    one.SameWhereCounted other .empty directories ∧
      (loadMigrations one directories .empty []).1 = .ok loaded ∧
      (loadMigrations other directories .empty []).1 = .ok loaded := by
  intro one other directories loaded
  -- The only definition is that of the source directory.
  have awaited : ∀ stem, Awaited one directories .empty stem → artifactName stem = "1_a.json" := by
    rintro stem ⟨-, -, directory, member, kind, listing, listed, inside⟩
    have path : directory.path = "/s" := by
      simp only [directories, List.mem_cons, List.not_mem_nil, or_false] at member
      rcases member with rfl | rfl | rfl
      · rfl
      · cases kind
      · cases kind
    rw [path] at listed
    cases listed
    have name : sourceName stem = "1_a.rs" := by simpa using inside
    have same : "1_a.rs" = sourceName "1_a" := by decide
    rw [same, sourceName, sourceName, String.append_assoc, String.append_assoc,
      String.append_left_inj] at name
    rw [name]
    rfl
  have same : one.SameWhereCounted other .empty directories := by
    constructor
    · intro directory member kind
      simp only [directories, List.mem_cons, List.not_mem_nil, or_false] at member
      rcases member with rfl | rfl | rfl
      · -- The source directory lists the same names, in another order.
        have textual : FileEntry.Textual [⟨.text "1_a.rs", true⟩, ⟨.text "old", false⟩] := by
          intro entry member
          simp only [List.mem_cons, List.not_mem_nil, or_false] at member
          rcases member with rfl | rfl
          · exact ⟨"1_a.rs", rfl, by decide⟩
          · exact ⟨"old", rfl, by decide⟩
        refine ⟨.inr ⟨_, _, _, _, rfl, rfl, .anew textual (.swap _ _ _), .same _,
          .both _ (.both _ .nil)⟩, fun _ _ _ => rfl⟩
      · cases kind
      · cases kind
    · intro before directory later split
      dsimp only [directories] at split
      match before, split with
      | [_], split =>
        cases split
        refine ⟨.inr ⟨_, _, _, _, rfl, rfl, .same _, .same _, .onlyHere ?_ .nil⟩,
          fun _ _ _ => rfl⟩
        -- A later directory has the artifact too, so that this one does not count.
        rintro ⟨stem, -, -, last⟩
        exact last ⟨.build, "/b"⟩ List.mem_cons_self rfl ⟨_, rfl, List.mem_cons_self⟩
      | [_, _], split =>
        cases split
        refine ⟨.inr ⟨_, _, _, _, rfl, rfl, .same _, .same _, .onlyThere ?_ (.both _ .nil)⟩,
          fun _ _ _ => rfl⟩
        -- The artifact belongs to no definition that is awaited.
        rintro ⟨stem, waiting, name, -⟩
        rw [awaited stem waiting] at name
        exact absurd name (by decide)
      | _ :: _ :: _ :: before, split => simp at split
  have result : (loadMigrations one directories .empty []).1 = .ok loaded := by
    decide +kernel
  exact ⟨same, result, (uncounted_without_influence same [] []).symm.trans result⟩

end SchemaLedger
