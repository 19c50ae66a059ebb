import SchemaLedger.Proofs.Load.Artifact
import SchemaLedger.Proofs.Load.Trust

/-! Artifacts stand in for the registry that they were built from, and give the same migrations. -/

namespace SchemaLedger

open Loading

section Sources

variable {view : FileView} {registry : Registry} {artifacts : Keyed String}

/-- Artifacts stand in for a source if they hold what the registry defines under its stem. -/
def StandsIn (view : FileView) (registry : Registry) (artifacts : Keyed String)
    (entry : FileEntry) : Prop :=
  entry.extension = MigrationFile.sourceExtension → ∀ steps,
    registry.definitions.get? entry.stem = some steps → ∃ path migration,
      Registry.compileEntry entry.stem steps = .ok migration ∧
      artifacts.get? entry.stem = some path ∧
      MigrationFile.readArtifact view path = .ok migration

/-- A source is resolved without the registry as with it, if artifacts stand in. -/
theorem resolveSource_agree {entry : FileEntry}
    (standsIn : StandsIn view registry artifacts entry) :
    Agree (resolveSource view registry artifacts entry)
      (resolveSource view .empty artifacts entry) fun one other => one.1 = other.1 := by
  by_cases script : MigrationFile.scriptExtensions.contains entry.extension = true
  · -- A script is read from its own file, and neither the registry nor an artifact is asked.
    simp only [resolveSource, if_pos script]
    exact (agree_lift _).bind fun one other same => agree_pure same
  by_cases source : entry.extension = MigrationFile.sourceExtension
  · simp only [resolveSource, if_neg script, if_pos source]
    have missing : Registry.empty.compile? entry.stem = .ok none := rfl
    cases registered : registry.definitions.get? entry.stem with
    | none =>
      -- What the registry does not know comes from an artifact in either case, or not at all.
      have unknown : registry.compile? entry.stem = .ok none := by
        simp [Registry.compile?, registered]
      rw [unknown, missing]
      refine (agree_lift _).bind fun one other same => ?_
      subst same
      cases one with
      | some migration => exact fun _ _ => .value rfl
      | none =>
        cases artifacts.get? entry.stem with
        | none => exact fun _ _ => .error _
        | some path =>
          dsimp only
          refine Agree.report ?_ _ _
          exact (agree_lift _).bind fun one other same => agree_pure same
    | some steps =>
      obtain ⟨path, migration, compiled, found, read⟩ := standsIn source steps registered
      have known : registry.compile? entry.stem = .ok (some migration) := by
        simp [Registry.compile?, registered, compiled, Except.map]
      rw [known, missing]
      -- The registry gives without a report what the artifact gives with one.
      intro events others
      simp only [found, read]
      exact .value rfl
  · -- Any other file is refused, whatever its name.
    simp only [resolveSource, if_neg script, if_neg source]
    exact fun _ _ => .error _

/-- Sources are resolved without the registry as with it, if artifacts stand in for each. -/
theorem resolveSources_agree {entries : List FileEntry}
    (standIn : ∀ entry ∈ entries, StandsIn view registry artifacts entry) :
    Agree (resolveSources view registry artifacts entries)
      (resolveSources view .empty artifacts entries) fun one other => one.1 = other.1 := by
  -- By induction on the entries, each of which has an artifact to stand in for it.
  induction entries with
  | nil => exact agree_pure rfl
  | cons entry rest ih =>
    refine (resolveSource_agree (standIn entry List.mem_cons_self)).bind fun one other first => ?_
    refine (ih fun later member => standIn later (.tail _ member)).bind fun more others behind => ?_
    exact agree_pure (by rw [first, behind])

/-- Migrations are loaded without the registry as with it, if artifacts stand in for all sources. -/
theorem loadMigrations_agree {directories : List MigrationDirectory} {told : List Event}
    (standIn : ∀ found reported, Found.addAll view {} directories told = (.ok found, reported) →
      ∀ entry ∈ found.sources, StandsIn view registry found.artifacts entry) :
    (loadMigrations view directories registry told).1 =
      (loadMigrations view directories .empty told).1 := by
  rcases searched : Found.addAll view {} directories told with ⟨error | found, reported⟩
  · simp only [loadMigrations, bind_apply, searched]
  · -- Artifacts may be left over in one case only, but those are only reported.
    have agree := (resolveSources_agree (standIn found reported searched)).bind
      fun one other same => agree_reported same (leftOver found.artifacts one.2)
        (leftOver found.artifacts other.2) fun entry => .artifactSkipped entry.1 entry.2
    have same := (agree reported reported).eq
    simp only [loadMigrations]
    rw [bind_apply, bind_apply, searched]
    exact same

end Sources

/-- A place shows a directory of a tree if the same names are listed there, and the same is read
from the files among them. -/
structure FileView.Shows (view : FileView) (place : String) (tree : FileTree) (directory : String) :
    Prop where
  list : view.list place = tree.view.list directory
  read : ∀ listing name, tree.view.list directory = .ok listing → ⟨.text name, true⟩ ∈ listing →
    view.read (Path.join place name) = tree.view.read (Path.join directory name)

section Built

open MigrationFile

variable {view : FileView} {tree : FileTree} {directory place stem extension : String}
  {location : Location} {migration : Migration} {entries : List FileEntry}

/-- An artifact is listed in its directory. -/
theorem artifact_listed (flat : tree.FlatAt directory location)
    (has : tree.HasArtifact location migration) :
    ∃ listing, tree.view.list directory = .ok listing ∧
      ⟨.text (artifactName migration.name), true⟩ ∈ listing := by
  -- The artifact is a node of the tree, so that it is a child of its folder.
  have member := FileTree.mem_children.mpr
    (FileTree.mem_nodes_of_node? (FileTree.FlatAt.outside location _) has)
  exact ⟨_, flat.list_eq, List.mem_map.mpr ⟨_, member, rfl⟩⟩

/-- The migration of an artifact is read wherever its directory is shown. -/
theorem readArtifact_shown (shows : view.Shows place tree directory)
    (flat : tree.FlatAt directory location) (has : tree.HasArtifact location migration)
    (fits : FileTree.Fits directory (artifactName migration.name)) (named : migration.name ≠ "") :
    readArtifact view (Path.join place (artifactName migration.name)) =
      .ok ((Artifact.ofMigration migration).toMigration migration.name) := by
  -- The file has the artifact's text, which is decoded to the artifact again.
  obtain ⟨listing, listed, member⟩ := artifact_listed flat has
  have content := (shows.read listing _ listed member).trans (flat.read_eq fits has)
  have name : Path.stem? (Path.join place (artifactName migration.name)) = some migration.name :=
    Path.stem?_join fits.plain named (by decide) (by decide)
  simp [readArtifact, FileView.readText, content, migrationName, name, Artifact.ofText_text, bind,
    Except.bind, pure, Except.pure]

/-- An artifact is found wherever its directory is shown, and no other for the same stem. -/
theorem artifact_shown (shows : view.Shows place tree directory)
    (flat : tree.FlatAt directory location) (has : tree.HasArtifact location migration)
    (shown : migration.name.toList.head? ≠ some '.') (named : migration.name ≠ "")
    (listed : FileEntry.list view place = .ok entries) :
    (∃ entry ∈ entries, Found.IsArtifact entry migration.name) ∧
      ∀ entry ∈ entries, Found.IsArtifact entry migration.name →
        entry.path = Path.join place (artifactName migration.name) := by
  obtain ⟨listing, found, member⟩ := artifact_listed flat has
  have here : view.HasFile place (artifactName migration.name) :=
    ⟨listing, shows.list.trans found, member⟩
  -- The artifact is as visible as the name of the migration allows.
  have visible : (artifactName migration.name).toList.head? ≠ some '.' :=
    FileEntry.shown_dotted.mpr ⟨named, shown⟩
  exact ⟨FileEntry.artifact_of_hasFile listed visible here, fun entry inside artifact =>
    (FileEntry.path_of_artifact listed inside artifact).2⟩

/-- What was built stands in for every source, if no later directory has artifacts of its own. -/
theorem standsIn_of_build {registry : Registry} {migrations : List Migration}
    {before after : List MigrationDirectory} {told reported : List Event} {final : Found}
    (named : ∀ name ∈ registry.names, name ≠ "")
    (recorded : registry.records = .ok migrations) (flat : tree.FlatAt directory location)
    (built : ∀ migration ∈ migrations, tree.HasArtifact location migration ∧
      FileTree.Fits directory (artifactName migration.name))
    (shows : view.Shows place tree directory)
    (none : ∀ later ∈ after, later.kind = .build → ∀ entries,
      FileEntry.list view later.path = .ok entries → ∀ entry ∈ entries, ∀ name ∈ registry.names,
        ¬ Found.IsArtifact entry name)
    (searched : Found.addAll view {} (before ++ ⟨.build, place⟩ :: after) told =
      (.ok final, reported))
    {entry : FileEntry} (member : entry ∈ final.sources) :
    StandsIn view registry final.artifacts entry := by
  intro source steps defined
  have registered := Keyed.mem_of_get? defined
  have listed : entry.stem ∈ registry.names := List.mem_map_of_mem registered
  obtain ⟨migration, inside, compiled⟩ := Registry.mem_records recorded registered
  obtain ⟨has, fits⟩ := built migration inside
  obtain ⟨scripts, -, rfl⟩ := Registry.compileEntry_eq_ok.mp compiled
  -- A hidden artifact would not be found, but then the source would be hidden as well.
  have shown : entry.stem.toList.head? ≠ some '.' := by
    rcases Found.listed_of_addAll searched member with nowhere | ⟨_, _, _, entries, found, inside⟩
    · cases nowhere
    · obtain ⟨_, _, visible⟩ := FileEntry.mem_list found
      exact ((visible entry).mp inside).head? (named _ listed) (by rw [source]; decide)
  refine ⟨Path.join place (artifactName entry.stem), _, compiled, ?_, ?_⟩
  · exact Found.get?_addAll_build searched
      (fun entries found => artifact_shown shows flat has shown (named _ listed) found)
      fun later behind build entries found entry inside => none later behind build entries found
        entry inside _ listed
  · -- The artifact has all that a compiled migration has.
    have read := readArtifact_shown shows flat has fits (named _ listed)
    exact read

end Built

/-- A build fails with the error of the first definition that does not compile, and changes
nothing; after one that succeeds, migrations are loaded from the artifacts as from the registry. -/
theorem artifacts_replace_registry {tree : FileTree} {directory : String} {location : Location}
    {registry : Registry} (plain : ∀ name ∈ registry.names, name ≠ "" ∧ '/' ∉ name.toList)
    (flat : tree.FlatAt directory location) (events : List Event) :
    (∀ name steps error, registry.definitions.entries.find?
          (fun entry => !(compileSteps entry.2).isOk) = some (name, steps) →
        compileSteps steps = .error error →
        buildArtifacts registry directory (tree, events) =
          (.error (.schema error), tree, events)) ∧
    ∀ paths left reported,
      buildArtifacts registry directory (tree, events) = (.ok paths, left, reported) →
      ∀ (view : FileView) (place : String) (before after : List MigrationDirectory),
        view.Shows place left directory →
        (∀ later ∈ after, later.kind = .build → ∀ entries,
          FileEntry.list view later.path = .ok entries → ∀ entry ∈ entries,
            ∀ name ∈ registry.names, ¬ Found.IsArtifact entry name) →
        ∀ told, (loadMigrations view (before ++ ⟨.build, place⟩ :: after) registry told).1 =
          (loadMigrations view (before ++ ⟨.build, place⟩ :: after) .empty told).1 := by
  constructor
  · intro name steps error first flawed
    rw [buildArtifacts_existing flat.found, Registry.records_of_flawed first flawed]
  · intro paths left reported built view place before after shows none told
    rw [buildArtifacts_existing flat.found] at built
    cases recorded : registry.records with
    | error error =>
      -- Nothing would have been built.
      rw [recorded] at built
      cases built
    | ok migrations =>
      simp only [recorded] at built
      have names := Registry.names_of_records recorded
      have slashless : ∀ migration ∈ migrations, '/' ∉ migration.name.toList :=
        fun migration member => (plain _ (names ▸ List.mem_map_of_mem member)).2
      -- The tree has been left by writing one artifact for each migration.
      obtain ⟨still, artifacts, -⟩ := Building.writeAll_ok flat slashless
        (names ▸ registry.names_nodup) built
      exact loadMigrations_agree fun final reported searched entry member =>
        standsIn_of_build (fun name member => (plain name member).1) recorded still artifacts shows
          none searched member

/-- A migration is built, and a source that comes into another directory loads it either way. -/
theorem artifacts_replace_registry_sample :
    let registry := Registry.empty.register "1_a" [.describe "A"]
    let migration : Migration := { name := "1_a", up := "", down := "", description := "A" }
    let tree : FileTree := ⟨[([.text "b"], .directory)]⟩
    let left := tree.set [.text "b", .text "1_a.json"]
      (.file (.text (Artifact.ofMigration migration).text))
    let view : FileView := { left.view with
      list := fun path =>
        if path = "/s" then .ok [⟨.text "1_a.rs", true⟩] else left.view.list path }
    let directories := [⟨.source, "/s"⟩, ⟨.build, "/b"⟩]
    buildArtifacts registry "/b" (tree, []) =
        (.ok ["/b/1_a.json"], left, [.artifactWritten "/b/1_a.json"]) ∧
      (loadMigrations view directories registry []).1 = .ok [migration] ∧
      (loadMigrations view directories .empty []).1 = .ok [migration] := by
  intro registry migration tree left view directories
  have plain : ∀ name ∈ registry.names, name ≠ "" ∧ '/' ∉ name.toList := by decide +kernel
  -- The way to the folder is one step from the root.
  have leads : tree.Leads FileTree.maxLinks [] [.text "b"] FileTree.maxLinks [.text "b"] :=
    .enter ⟨by decide, by decide, by decide⟩ rfl (.arrived _ _)
  have nothing : tree.children [.text "b"] = [] := by decide +kernel
  have flat : tree.FlatAt "/b" [.text "b"] :=
    ⟨FileTree.directory_eq_ok.mpr ⟨⟨_, leads⟩, rfl⟩, by simp [nothing]⟩
  have built : buildArtifacts registry "/b" (tree, []) =
      (.ok ["/b/1_a.json"], left, [.artifactWritten "/b/1_a.json"]) := by
    have fits : FileTree.Fits "/b" "1_a.json" :=
      ⟨by decide, by decide, ⟨by decide, by decide, by decide⟩, rfl⟩
    have path : "/b/1_a.json" = Path.join "/b" "1_a.json" := by decide +kernel
    have records : registry.records = .ok [migration] := by decide +kernel
    -- The artifact is written to a folder that was empty.
    have written : tree.writeText (Path.join "/b" "1_a.json")
        (Artifact.ofMigration migration).text = .ok left :=
      (flat.writeText_eq_ok fits.plain (by decide)).mpr ⟨fits, rfl⟩
    rw [buildArtifacts_existing flat.found, records]
    refine (Building.writeAll_cons "/b/1_a.json" path).trans ?_
    rw [path, written]
    rfl
  -- The registry decides first, so that the artifact is not read here.
  have loaded : (loadMigrations view directories registry []).1 = .ok [migration] := by
    have source : FileEntry.list view "/s" = .ok [⟨"1_a", "rs", "/s/1_a.rs"⟩] := by decide +kernel
    have artifact : FileEntry.list view "/b" = .ok [⟨"1_a", "json", "/b/1_a.json"⟩] := by
      have listed : view.list "/b" = _ := (flat.set "1_a.json" _).list_eq
      rw [FileEntry.list, listed]
      decide +kernel
    simp only [loadMigrations, Found.addAll, directories, source, artifact]
    decide +kernel
  -- Without the registry the migration comes from the artifact.
  have same := (artifacts_replace_registry plain flat []).2 _ _ _ built view "/b" [⟨.source, "/s"⟩]
    [] ⟨rfl, fun _ _ _ _ => rfl⟩ (by simp) []
  exact ⟨built, loaded, same.symm.trans loaded⟩

end SchemaLedger
