import Mathlib.Tactic.SplitIfs
import SchemaLedger.Proofs.Files.Path
import SchemaLedger.Proofs.Keyed
import SchemaLedger.Proofs.Load.Reports

/-! Directories are searched one after the other, and of two artifacts for one stem the later one
is found. -/

namespace SchemaLedger

namespace FileEntry

variable {directory name : String} {view : FileView} {listing : List DirectoryEntry}
  {entries : List FileEntry} {entry : FileEntry}

/-- A name is split at its last dot, if what is behind the dot is not empty. -/
theorem name_of_ofName (dotted : (ofName directory name).extension ≠ "") :
    name = (ofName directory name).stem ++ "." ++ (ofName directory name).extension := by
  -- Without a dot there would be no extension.
  cases split : Path.splitAtLastDot? name with
  | none => simp [ofName, split] at dotted
  | some parts =>
    obtain ⟨stem, extension⟩ := parts
    simpa [ofName, split] using (Path.splitAtLastDot?_eq_some.mp split).1

/-- There is no dot within an extension. -/
theorem extension_of_ofName : '.' ∉ (ofName directory name).extension.toList := by
  -- The name is split at its last dot, behind which no other comes.
  cases split : Path.splitAtLastDot? name with
  | none => simp [ofName, split]
  | some parts => simpa [ofName, split] using (Path.splitAtLastDot?_eq_some.mp split).2

/-- The path of an entry is that of its name below the directory. -/
theorem path_of_ofName : (ofName directory name).path = Path.join directory name := by
  -- The path is joined in either case.
  unfold ofName
  split <;> rfl

/-- A stem and an extension without a dot are those of the name that they make up. -/
theorem ofName_dotted {stem extension : String} (plain : '.' ∉ extension.toList) :
    ofName directory (stem ++ "." ++ extension) =
      ⟨stem, extension, Path.join directory (stem ++ "." ++ extension)⟩ := by
  -- The dot in between is the last, as the extension has none.
  have split : Path.splitAtLastDot? (stem ++ "." ++ extension) = some (stem, extension) :=
    Path.splitAtLastDot?_eq_some.mpr ⟨rfl, plain⟩
  rw [ofName, split]

/-- An entry of a directory comes from a file whose name does not start with a dot. -/
def Visible (directory : String) (listing : List DirectoryEntry) (entry : FileEntry) : Prop :=
  ∃ name, ⟨.text name, true⟩ ∈ listing ∧ name.toList.head? ≠ some '.' ∧
    entry = ofName directory name

/-- A name with an extension starts as its stem does. -/
theorem head?_dotted {stem extension : String} (started : stem ≠ "") :
    (stem ++ "." ++ extension).toList.head? = stem.toList.head? := by
  -- The stem is not empty, so that its first character is that of the whole.
  obtain ⟨c, rest, chars⟩ := List.exists_cons_of_ne_nil (mt String.toList_eq_nil_iff.mp started)
  simp [chars]

/-- The stem of a visible file starts with no dot, unless there is no stem. -/
theorem Visible.head? (visible : Visible directory listing entry) (named : entry.stem ≠ "")
    (dotted : entry.extension ≠ "") : entry.stem.toList.head? ≠ some '.' := by
  -- A name that is shown does not start with a dot, and it starts as its stem.
  obtain ⟨name, -, shown, rfl⟩ := visible
  rwa [name_of_ofName dotted, head?_dotted named] at shown

/-- A name that is text adds the entry of its file, if that is visible. -/
theorem ofListing_text {isFile : Bool} :
    ofListing directory (⟨.text name, isFile⟩ :: listing) =
      (ofListing directory listing).map fun others =>
        if name.toList.head? = some '.' ∨ !isFile then others
        else ofName directory name :: others := by
  -- Whether the entry is kept or not, the rest of the listing is read.
  cases others : ofListing directory listing with
  | error error => simp [ofListing, others, bind, Except.bind, Except.map]
  | ok more =>
    simp only [ofListing, others, bind, Except.bind, Except.map, pure, Except.pure]
    split_ifs <;> rfl

/-- The entries of the visible files in a listing, one for each. -/
def visible (directory : String) (listing : List DirectoryEntry) : List FileEntry :=
  listing.filterMap fun entry =>
    match entry.name with
    | .binary _ => none
    | .text name =>
      if entry.isFile = true ∧ name.toList.head? ≠ some '.' then some (ofName directory name)
      else none

/-- The names of a listing that are all text give the entries of its visible files. -/
theorem ofListing_eq (listed : ofListing directory listing = .ok entries) :
    entries = visible directory listing := by
  induction listing generalizing entries with
  | nil =>
    cases listed
    rfl
  | cons first rest ih =>
    obtain ⟨raw, isFile⟩ := first
    -- The first entry is text, as the listing would have been refused otherwise.
    cases raw with
    | binary bytes => simp [ofListing] at listed
    | text name =>
      rw [ofListing_text] at listed
      cases others : ofListing directory rest with
      | error error => simp [others, Except.map] at listed
      | ok more =>
        have same : more = rest.filterMap _ := ih others
        simp only [others, Except.map, Except.ok.injEq] at listed
        rw [← listed, visible, List.filterMap_cons, same]
        -- The name is passed over in one place exactly where it is in the other.
        by_cases shown : isFile = true ∧ name.toList.head? ≠ some '.'
        · simp only [if_pos shown]
          simp [shown]
        · have hidden : name.toList.head? = some '.' ∨ (!isFile) = true := by
            rcases not_and_or.mp shown with noFile | dotted
            · exact .inr (by simpa using noFile)
            · exact .inl (not_not.mp dotted)
          simp only [if_neg shown, if_pos hidden]

/-- Every name of a listing is a text below a directory. -/
def Textual (listing : List DirectoryEntry) : Prop :=
  ∀ entry ∈ listing, ∃ name, entry.name = .text name ∧ Path.isAbsolute name = false

/-- Nothing is wrong with a listing whose names are all text. -/
theorem ofListing_of_textual (textual : Textual listing) :
    ofListing directory listing = .ok (visible directory listing) := by
  have accepted : ∃ entries, ofListing directory listing = .ok entries := by
    -- Each name is read on its own, and the names behind it are no worse.
    induction listing with
    | nil => exact ⟨[], rfl⟩
    | cons first rest ih =>
      obtain ⟨entries, others⟩ := ih fun entry member => textual entry (.tail _ member)
      obtain ⟨raw, isFile⟩ := first
      obtain ⟨name, rfl, -⟩ := textual _ List.mem_cons_self
      rw [ofListing_text, others]
      exact ⟨_, rfl⟩
  obtain ⟨entries, listed⟩ := accepted
  rw [listed, ofListing_eq listed]

/-- Files of a directory that have one path are the same. -/
theorem visible_inj {first second : FileEntry} (textual : Textual listing)
    (member : first ∈ visible directory listing) (memberToo : second ∈ visible directory listing)
    (same : first.path = second.path) : first = second := by
  obtain ⟨⟨raw, isFile⟩, listed, shown⟩ := List.mem_filterMap.mp member
  obtain ⟨⟨rawToo, isFileToo⟩, listedToo, shownToo⟩ := List.mem_filterMap.mp memberToo
  obtain ⟨name, rfl, relative⟩ := textual _ listed
  obtain ⟨other, rfl, relativeToo⟩ := textual _ listedToo
  obtain ⟨-, one⟩ := Option.ite_none_right_eq_some.mp shown
  obtain ⟨-, two⟩ := Option.ite_none_right_eq_some.mp shownToo
  cases one
  cases two
  -- The path below the directory tells the name.
  rw [path_of_ofName, path_of_ofName] at same
  rw [Path.join_injective relative relativeToo same]

/-- Listings of the same texts are put into the same order. -/
theorem sorted_eq_of_perm {listingToo : List DirectoryEntry} (permuted : listing.Perm listingToo)
    (textual : Textual listing) :
    ((ofListing directory listing).map (·.mergeSort fun left right => left.path ≤ right.path)) =
      (ofListing directory listingToo).map
        (·.mergeSort fun left right => left.path ≤ right.path) := by
  have textualToo : Textual listingToo := fun entry member =>
    textual entry (permuted.mem_iff.mpr member)
  rw [ofListing_of_textual textual, ofListing_of_textual textualToo]
  -- Paths are ordered as texts, which makes the order total and transitive.
  have total : ∀ left right : FileEntry,
      (decide (left.path ≤ right.path) || decide (right.path ≤ left.path)) = true :=
    fun left right => by simpa using String.le_total left.path right.path
  have trans : ∀ first second third : FileEntry, decide (first.path ≤ second.path) = true →
      decide (second.path ≤ third.path) = true → decide (first.path ≤ third.path) = true :=
    fun first second third before after => by
      simp only [decide_eq_true_eq] at before after ⊢
      exact String.le_trans before after
  refine congrArg Except.ok (List.Perm.eq_of_pairwise (fun left right here there before after => ?_)
    (List.pairwise_mergeSort trans total _) (List.pairwise_mergeSort trans total _) ?_)
  · -- Entries that may stand in either order have one path.
    exact visible_inj textual (List.mem_mergeSort.mp here)
      ((permuted.filterMap _).mem_iff.mpr (List.mem_mergeSort.mp there))
      (String.le_antisymm (by simpa using before) (by simpa using after))
  · exact (List.mergeSort_perm _ _).trans
      ((permuted.filterMap _).trans (List.mergeSort_perm _ _).symm)

/-- The entries of a listing are those of its visible files. -/
theorem mem_ofListing (listed : ofListing directory listing = .ok entries) :
    entry ∈ entries ↔ Visible directory listing entry := by
  -- A name that is no text would have failed the listing.
  rw [ofListing_eq listed, visible, List.mem_filterMap]
  constructor
  · rintro ⟨⟨raw, isFile⟩, member, shown⟩
    cases raw with
    | binary bytes => cases shown
    | text name =>
      obtain ⟨⟨rfl, undotted⟩, same⟩ := Option.ite_none_right_eq_some.mp shown
      exact ⟨name, member, undotted, (Option.some.inj same).symm⟩
  · rintro ⟨name, member, undotted, rfl⟩
    exact ⟨_, member, if_pos ⟨rfl, undotted⟩⟩

/-- The entries of a directory are those of the visible files that it lists. -/
theorem mem_list (listed : list view directory = .ok entries) :
    ∃ listing, view.list directory = .ok listing ∧
      ∀ entry, entry ∈ entries ↔ Visible directory listing entry := by
  cases found : view.list directory with
  | error refusal => simp [list, found] at listed
  | ok listing =>
    refine ⟨listing, rfl, fun entry => ?_⟩
    cases all : ofListing directory listing with
    | error error => simp [list, found, all, Except.map] at listed
    | ok unsorted =>
      simp only [list, found, all, Except.map, Except.ok.injEq] at listed
      -- Putting the entries in order changes nothing about which they are.
      rw [← listed, List.mem_mergeSort, mem_ofListing all]

end FileEntry

namespace Found

variable {found final : Found} {view : FileView} {directories : List MigrationDirectory}
  {entries : List FileEntry} {events reported : List Event} {stem path : String}

/-- An entry is an artifact for a stem. -/
def IsArtifact (entry : FileEntry) (stem : String) : Prop :=
  entry.extension = MigrationFile.artifactExtension ∧ entry.stem = stem

/-- Artifacts with those of further entries, of which later ones count. -/
def filed (artifacts : Keyed String) (entries : List FileEntry) : Keyed String :=
  entries.foldl (fun artifacts entry =>
    if entry.extension = MigrationFile.artifactExtension then
      artifacts.insert entry.stem entry.path
    else artifacts) artifacts

/-- The files found so far with those of one more directory. -/
def joined (found : Found) : DirectoryKind → List FileEntry → Found
  | .source, entries => { found with sources := found.sources ++ entries }
  | .build, entries => { found with artifacts := filed found.artifacts entries }

/-- Nothing is found for a stem where nothing was and no entry is an artifact for it. -/
theorem get?_filed_of_not (artifacts : Keyed String)
    (none : ∀ entry ∈ entries, ¬ IsArtifact entry stem) :
    (filed artifacts entries).get? stem = artifacts.get? stem := by
  -- By induction on the entries, none of which is filed under the stem.
  induction entries generalizing artifacts with
  | nil => rfl
  | cons entry rest ih =>
    have onward := fun artifacts => ih artifacts fun other member => none other (.tail _ member)
    rw [filed, List.foldl_cons]
    split_ifs with extension
    · -- It is an artifact, but of another stem.
      have other : stem ≠ entry.stem := fun same =>
        none entry List.mem_cons_self ⟨extension, same.symm⟩
      exact (onward _).trans ((Keyed.get?_insert artifacts).trans (if_neg other))
    · exact onward artifacts

/-- An artifact is found for its stem, if all artifacts for the stem have one path. -/
theorem get?_filed (artifacts : Keyed String)
    (present : ∃ entry ∈ entries, IsArtifact entry stem)
    (unique : ∀ entry ∈ entries, IsArtifact entry stem → entry.path = path) :
    (filed artifacts entries).get? stem = some path := by
  -- Whether an entry decides depends on those behind it only.
  induction entries generalizing artifacts with
  | nil => simp at present
  | cons entry rest ih =>
    have rest_unique := fun other member => unique other (List.mem_cons_of_mem entry member)
    by_cases later : ∃ other ∈ rest, IsArtifact other stem
    · exact ih _ later rest_unique
    · -- This entry is the last artifact for the stem.
      have own : IsArtifact entry stem := by
        obtain ⟨other, member, artifact⟩ := present
        rcases List.mem_cons.mp member with rfl | behind
        · exact artifact
        · exact absurd ⟨other, behind, artifact⟩ later
      have none : ∀ other ∈ rest, ¬ IsArtifact other stem := fun other member artifact =>
        later ⟨other, member, artifact⟩
      rw [filed, List.foldl_cons, if_pos own.1]
      exact (get?_filed_of_not _ none).trans ((Keyed.get?_insert artifacts).trans
        ((if_pos own.2.symm).trans (congrArg some (unique entry List.mem_cons_self own))))

/-- The entries of a build directory are filed, whatever is reported about them. -/
theorem addBuild_eq (found : Found) (entries : List FileEntry) (events : List Event) :
    ∃ reported, found.addBuild entries events =
      (.ok (found.joined .build entries), reported) := by
  induction entries generalizing found events with
  | nil => exact ⟨events, rfl⟩
  | cons entry rest ih =>
    by_cases artifact : entry.extension = MigrationFile.artifactExtension
    · -- An artifact is filed under its stem, without a word.
      obtain ⟨reported, added⟩ :=
        ih { found with artifacts := found.artifacts.insert entry.stem entry.path } events
      refine ⟨reported, ?_⟩
      rw [addBuild, if_pos artifact, added]
      simp [joined, filed, artifact]
    · -- Any other file is reported, and then the search goes on.
      obtain ⟨reported, added⟩ := ih found (events ++ [.buildFileIgnored entry.path])
      refine ⟨reported, ?_⟩
      rw [addBuild, if_neg artifact]
      refine Eq.trans ?_ (added.trans ?_)
      · rfl
      · simp [joined, filed, artifact]

/-- One directory is searched before the others, as long as it can be listed. -/
theorem addAll_cons_ok {directory : MigrationDirectory}
    (searched : found.addAll view (directory :: directories) events = (.ok final, reported)) :
    ∃ entries later, FileEntry.list view directory.path = .ok entries ∧
      (found.joined directory.kind entries).addAll view directories later =
        (.ok final, reported) := by
  -- The directory has been listed, or the search would have ended with it.
  cases listed : FileEntry.list view directory.path with
  | error error =>
    rw [addAll, listed] at searched
    cases searched
  | ok entries =>
    rw [addAll, listed] at searched
    cases kind : directory.kind with
    | source =>
      rw [kind] at searched
      exact ⟨entries, events, rfl, searched⟩
    | build =>
      -- A build directory tells events before the search goes on.
      obtain ⟨later, added⟩ := addBuild_eq found entries events
      rw [kind] at searched
      refine ⟨entries, later, rfl, ?_⟩
      change (found.addBuild entries >>= fun found => found.addAll view directories) events = _
        at searched
      rwa [Loading.bind_apply, added] at searched

/-- Every source is among the entries of a source directory, unless it was found before. -/
theorem listed_of_addAll
    (searched : found.addAll view directories events = (.ok final, reported))
    {entry : FileEntry} (member : entry ∈ final.sources) :
    entry ∈ found.sources ∨ ∃ directory ∈ directories, directory.kind = .source ∧
      ∃ entries, FileEntry.list view directory.path = .ok entries ∧ entry ∈ entries := by
  -- By induction on the directories; only those of sources add to the list.
  induction directories generalizing found events with
  | nil =>
    cases searched
    exact .inl member
  | cons directory rest ih =>
    obtain ⟨entries, later, listed, onward⟩ := addAll_cons_ok searched
    -- An entry that comes later is found in a later directory.
    rcases ih onward with before | ⟨other, inside, kind, found⟩
    · cases kind : directory.kind with
      | build =>
        rw [kind] at before
        exact .inl before
      | source =>
        rw [kind] at before
        rcases List.mem_append.mp before with earlier | here
        · exact .inl earlier
        · exact .inr ⟨directory, List.mem_cons_self, kind, entries, listed, here⟩
    · exact .inr ⟨other, .tail _ inside, kind, found⟩

/-- What was found for a stem remains, if no further build directory has an artifact for it. -/
theorem get?_addAll
    (searched : found.addAll view directories events = (.ok final, reported))
    (none : ∀ directory ∈ directories, directory.kind = .build →
      ∀ entries, FileEntry.list view directory.path = .ok entries →
        ∀ entry ∈ entries, ¬ IsArtifact entry stem) :
    final.artifacts.get? stem = found.artifacts.get? stem := by
  -- By induction on the directories, none of which has an artifact of the stem.
  induction directories generalizing found events with
  | nil =>
    cases searched
    rfl
  | cons directory rest ih =>
    obtain ⟨entries, later, listed, onward⟩ := addAll_cons_ok searched
    rw [ih onward fun other member => none other (List.mem_cons_of_mem directory member)]
    have nothing := none directory List.mem_cons_self
    cases kind : directory.kind with
    | source => rfl
    | build => exact get?_filed_of_not found.artifacts (nothing kind entries listed)

/-- The artifact of a build directory is found, if no later one has an artifact for the stem. -/
theorem get?_addAll_build {before after : List MigrationDirectory} {place : String}
    (searched : found.addAll view (before ++ ⟨.build, place⟩ :: after) events =
      (.ok final, reported))
    (here : ∀ entries, FileEntry.list view place = .ok entries →
      (∃ entry ∈ entries, IsArtifact entry stem) ∧
        ∀ entry ∈ entries, IsArtifact entry stem → entry.path = path)
    (none : ∀ directory ∈ after, directory.kind = .build →
      ∀ entries, FileEntry.list view directory.path = .ok entries →
        ∀ entry ∈ entries, ¬ IsArtifact entry stem) :
    final.artifacts.get? stem = some path := by
  -- What is found before does not matter, since later artifacts count.
  induction before generalizing found events with
  | nil =>
    obtain ⟨entries, later, listed, onward⟩ := addAll_cons_ok searched
    obtain ⟨present, unique⟩ := here entries listed
    exact (get?_addAll onward none).trans (get?_filed found.artifacts present unique)
  | cons directory rest ih =>
    obtain ⟨entries, later, -, onward⟩ := addAll_cons_ok searched
    exact ih onward

end Found

end SchemaLedger
