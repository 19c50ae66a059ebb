import SchemaLedger.Load.Build
import SchemaLedger.Proofs.Files.Folder
import SchemaLedger.Proofs.Registry

/-! Building leaves the artifact of every definition in the directory, or everything as it was. -/

namespace SchemaLedger

namespace MigrationFile

/-- The name of the file with the artifact of a migration. -/
def artifactName (name : String) : String := name ++ "." ++ artifactExtension

/-- Migrations of different names have artifacts of different names. -/
theorem artifactName_injective : Function.Injective artifactName := by
  -- Artifacts have one extension, so that their names differ in the stem.
  intro first second same
  have chars := congrArg String.toList same
  exact String.toList_injective (by simpa [artifactName] using chars)

/-- The name of an artifact is none of those that lead to directories. -/
theorem artifactName_real (name : String) : artifactName name ∉ ["", ".", ".."] := by
  intro member
  -- The extension alone is longer than any of these names.
  have long : 5 ≤ (artifactName name).toList.length := by
    have extension : artifactExtension.toList.length = 4 := rfl
    have dot : ".".toList.length = 1 := rfl
    simp only [artifactName, String.toList_append, List.length_append]
    omega
  simp only [List.mem_cons, List.not_mem_nil, or_false] at member
  rcases member with same | same | same <;> rw [same] at long <;> revert long <;> decide

/-- An artifact has no slash in its name unless the migration has one. -/
theorem artifactName_plain {name : String} (plain : '/' ∉ name.toList) :
    '/' ∉ (artifactName name).toList := by
  -- No separator comes with the extension.
  have extension : '/' ∉ artifactExtension.toList := by decide
  simp [artifactName, plain, extension]

end MigrationFile

open MigrationFile

/-- A tree has the artifact of a migration at a location. -/
def FileTree.HasArtifact (tree : FileTree) (location : Location) (migration : Migration) : Prop :=
  tree.node? (location ++ [.text (artifactName migration.name)]) =
    some (.file (.text (Artifact.ofMigration migration).text))

namespace Building

variable {tree left : FileTree} {events reported : List Event} {directory : String}
  {location : Location} {migration : Migration} {migrations : List Migration} {paths : List String}

/-- An artifact is written before the others, which are only tried where it could be written. -/
theorem writeAll_cons (path : String)
    (named : path = Path.join directory (artifactName migration.name)) :
    writeAll directory (migration :: migrations) (tree, events) =
      match tree.writeText path (Artifact.ofMigration migration).text with
      | .error refusal => (.error (.file refusal), tree, events)
      | .ok next =>
        match writeAll directory migrations (next, events ++ [.artifactWritten path]) with
        | (.ok more, state) => (.ok (path :: more), state)
        | (.error error, state) => (.error error, state) := by
  -- The first artifact is written before the others are, and told of at once.
  subst named
  simp only [writeAll, change, bind, ExceptT.bind, ExceptT.mk, StateT.bind, ExceptT.bindCont,
    artifactName]
  cases tree.writeText _ _ with
  | error refusal => rfl
  | ok next =>
    simp only [report, StateT.bind, bind, ExceptT.bindCont]
    rcases writeAll directory migrations _ with ⟨error | more, state⟩ <;> rfl

/-- Artifacts are written one by one, as long as each of them can be written. -/
theorem writeAll_cons_ok
    (wrote : writeAll directory (migration :: migrations) (tree, events) =
      (.ok paths, left, reported)) :
    ∃ next later more,
      tree.writeText (Path.join directory (artifactName migration.name))
        (Artifact.ofMigration migration).text = .ok next ∧
      writeAll directory migrations (next, later) = (.ok more, left, reported) := by
  rw [writeAll_cons _ rfl] at wrote
  -- The first artifact has been written, or the error would be the outcome.
  cases written : tree.writeText (Path.join directory (artifactName migration.name))
      (Artifact.ofMigration migration).text with
  | error refusal =>
    rw [written] at wrote
    cases wrote
  | ok next =>
    simp only [written] at wrote
    -- The outcome of the others is that of all.
    split at wrote
    · rename_i more state rest
      cases wrote
      exact ⟨next, _, more, rfl, rest⟩
    · cases wrote

/-- Artifacts that could all be written are there, each under its name, and nothing else is new. -/
theorem writeAll_ok (flat : tree.FlatAt directory location)
    (plain : ∀ migration ∈ migrations, '/' ∉ migration.name.toList)
    (distinct : (migrations.map (·.name)).Nodup)
    (wrote : writeAll directory migrations (tree, events) = (.ok paths, left, reported)) :
    left.FlatAt directory location ∧
    (∀ migration ∈ migrations, left.HasArtifact location migration ∧
      FileTree.Fits directory (artifactName migration.name)) ∧
    ∀ place, (∀ migration ∈ migrations, place ≠ location ++ [.text (artifactName migration.name)]) →
      left.node? place = tree.node? place := by
  -- The others are written into the tree that the first artifact has been set in.
  induction migrations generalizing tree events paths with
  | nil =>
    cases wrote
    exact ⟨flat, by simp, fun _ _ => rfl⟩
  | cons migration rest ih =>
    obtain ⟨next, later, more, written, onward⟩ := writeAll_cons_ok wrote
    obtain ⟨fits, rfl⟩ := (flat.writeText_eq_ok
      (artifactName_plain (plain migration List.mem_cons_self)) (artifactName_real _)).mp written
    obtain ⟨apart, others⟩ := List.nodup_cons.mp distinct
    obtain ⟨still, present, kept⟩ := ih (flat.set _ _)
      (fun other member => plain other (.tail _ member)) others onward
    refine ⟨still, ?_, fun place elsewhere => ?_⟩
    · intro other member
      rcases List.mem_cons.mp member with rfl | member
      · refine ⟨?_, fits⟩
        -- What is written later has other names.
        have elsewhere : ∀ later ∈ rest,
            location ++ [.text (artifactName other.name)] ≠
              location ++ [.text (artifactName later.name)] := by
          intro later member same
          have names : artifactName other.name = artifactName later.name := by simpa using same
          exact apart (List.mem_map.mpr ⟨later, member, (artifactName_injective names).symm⟩)
        exact (kept _ elsewhere).trans
          (FileTree.node?_set_self (FileTree.FlatAt.outside location _))
      · exact present other member
    · -- Elsewhere neither this artifact nor the later ones have changed anything.
      rw [kept place fun other member => elsewhere other (.tail _ member)]
      exact FileTree.node?_set_of_ne (elsewhere migration List.mem_cons_self)

end Building

/-- Building in a directory that is there starts with compiling, and changes nothing where that
fails. -/
theorem buildArtifacts_existing {tree : FileTree} {directory : String} {location : Location}
    (found : (Route.ofPath directory >>= tree.directory) = .ok location) (registry : Registry)
    (events : List Event) :
    buildArtifacts registry directory (tree, events) =
      match registry.records with
      | .ok migrations => Building.writeAll directory migrations (tree, events)
      | .error error => (.error error, tree, events) := by
  -- The directory is there, so that making it does nothing.
  simp only [buildArtifacts, Building.change, FileTree.createDirectories_existing found, bind,
    ExceptT.bind, ExceptT.mk, StateT.bind, ExceptT.bindCont]
  cases registry.records <;> rfl

end SchemaLedger
