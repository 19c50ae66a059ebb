import SchemaLedger.Proofs.Schema.Catalog
import SchemaLedger.Proofs.Schema.Rendering

/-! The undoing of a migration restores the catalog, if its steps say what they take away. -/

namespace SchemaLedger

open Catalog

variable {catalog next : Catalog} {table : String}

/-- Comments change nothing outside their table, which stays where it is. -/
theorem Catalog.run_comments {comments : List Statement}
    (commented : ∀ statement ∈ comments, statement.CommentsOn table)
    (ran : run catalog comments = some next) :
    ∃ columns, next = Function.update catalog table columns ∧
      columns.isSome = (catalog table).isSome := by
  -- One comment after the other exchanges the columns of the table.
  induction comments generalizing catalog with
  | nil =>
    cases ran
    exact ⟨_, (Function.update_eq_self table _).symm, rfl⟩
  | cons statement rest ih =>
    obtain ⟨name, comment, rfl⟩ := commented statement List.mem_cons_self
    rw [run_cons] at ran
    obtain ⟨between, applied, later⟩ := Option.bind_eq_some_iff.mp ran
    obtain ⟨standing, -, rfl⟩ := Option.map_eq_some_iff.mp applied
    obtain ⟨columns, rfl, there⟩ := ih (fun other member => commented other (.tail _ member)) later
    exact ⟨columns, by simp [setColumn], there.trans isSome_setColumn⟩

namespace Step

variable {columns : List Column} {definitions : List ColumnDefinition} {up down : List Statement}

/-- Dropping a table undoes its creation, whatever was said about its columns. -/
theorem creation_undone
    (ran : run catalog (.createTable table definitions ::
      columnComments table definitions columns) = some next) :
    run next [.dropTable table] = some catalog := by
  rw [run_cons] at ran
  obtain ⟨between, applied, later⟩ := Option.bind_eq_some_iff.mp ran
  simp only [apply] at applied
  split at applied
  · rename_i fresh
    cases applied
    obtain ⟨contents, rfl, there⟩ := run_comments columnComments_commentsOn later
    -- The table was not there before, and so nothing takes its place.
    have absent : none = catalog table := (Option.isNone_iff_eq_none.mp fresh.1).symm
    have present : contents.isSome := by simpa using there
    simp [apply, present, absent]
  · cases applied

/-- What a column is described as is what it is defined as, with its comment. -/
theorem entry_of_definition {column : Column} {definition : ColumnDefinition}
    (defined : column.definition = .ok definition) :
    column.entry? =
      some (definition.name, { definition.entry.2 with comment := column.comment }) := by
  -- The column has a definition, from which its entry is made.
  simp [Column.entry?, defined, ColumnDefinition.entry]

/-- A comment that a column is described with is set as soon as the column is there. -/
theorem run_columnComment {column : Column} {name : String} {standing : CatalogColumn}
    (found : column? catalog table name = some standing) (bare : standing.comment = none) :
    run catalog (columnComment table name column) =
      some (setColumn catalog table name (some { standing with comment := column.comment })) := by
  cases given : column.comment with
  | none =>
    -- No statement is needed where there is no comment to set.
    have same : { standing with comment := none } = standing := by rw [← bare]
    simp [columnComment, given, same, ← found]
  | some comment => simp [columnComment, given, apply, found]

/-- Comments complete the columns of a table that has just been created with their definitions. -/
theorem run_described (catalog : Catalog) (table : String)
    (before : List (String × CatalogColumn))
    (sound : columns.map Column.definition = definitions.map .ok)
    (distinct : (before.map (·.1) ++ definitions.map (·.name)).Nodup) :
    run (Function.update catalog table
        (some (.ofEntries (before ++ definitions.map ColumnDefinition.entry))))
        (columnComments table definitions columns) =
      some (Function.update catalog table
        (some (.ofEntries (before ++ columns.filterMap Column.entry?)))) := by
  -- The columns before have their comments already, and each further one joins them.
  induction columns generalizing before definitions with
  | nil =>
    cases List.map_eq_nil_iff.mp sound.symm
    rfl
  | cons column rest ih =>
    obtain ⟨definition, others, rfl, own, further⟩ := List.map_eq_cons_iff.mp sound.symm
    have free : definition.name ∉ before.map (·.1) := fun member =>
      (List.nodup_append.mp distinct).2.2 _ member _ List.mem_cons_self rfl
    have found : column? (Function.update catalog table
        (some (.ofEntries (before ++ definition.entry :: others.map ColumnDefinition.entry))))
          table definition.name = some definition.entry.2 := by
      simp [column?, ColumnDefinition.entry, CatalogTable.ofEntries_append_cons free]
    rw [columnComments, List.zip_cons_cons, List.flatMap_cons, ← columnComments, run_append,
      List.map_cons, run_columnComment found rfl, Option.bind_some, setColumn_update]
    -- The columns so far and the completed one are the columns before for all that are left.
    have completed := ih (before ++ [(definition.name,
      { definition.entry.2 with comment := column.comment })]) further.symm
      (by simpa using distinct)
    simp only [List.append_assoc, List.singleton_append] at completed
    rw [List.filterMap_cons_some (entry_of_definition own.symm), ← completed]
    -- What is left to show is that the comment has been set in the place of its column.
    congr 3
    exact CatalogTable.update_ofEntries free

/-- Columns are defined under the names under which they are described. -/
theorem names_of_definitions (sound : columns.map Column.definition = definitions.map .ok) :
    (columns.filterMap Column.entry?).map (·.1) = definitions.map (·.name) := by
  -- Sound columns are all described, so that the two lists of names stay in step.
  induction columns generalizing definitions with
  | nil =>
    cases List.map_eq_nil_iff.mp sound.symm
    rfl
  | cons column rest ih =>
    obtain ⟨definition, others, rfl, own, further⟩ := List.map_eq_cons_iff.mp sound.symm
    rw [List.filterMap_cons_some (entry_of_definition own.symm), List.map_cons, List.map_cons,
      ih further.symm]

/-- A table that was described as it stood is created again as it stood. -/
theorem dropping_undone {standing : CatalogTable}
    (sound : columns.map Column.definition = definitions.map .ok)
    (stood : catalog table = some standing)
    (listed : standing.ListedBy (CatalogTable.keyEntry :: columns.filterMap Column.entry?))
    (ran : run catalog [.dropTable table] = some next) :
    run next (.createTable table definitions :: columnComments table definitions columns) =
      some catalog := by
  obtain ⟨distinct, same⟩ := listed
  -- The columns that are defined have the names of those that stood, so that none is in the way.
  have names := names_of_definitions sound
  simp only [run_singleton, apply, stood, Option.isSome_some, if_true, Option.some.injEq] at ran
  subst ran
  rw [List.map_cons, names] at distinct
  have again :
      ((CatalogTable.keyEntry :: definitions.map ColumnDefinition.entry).map (·.1)).Nodup := by
    simpa [ColumnDefinition.entry, Function.comp_def] using distinct
  rw [run_cons]
  simp only [apply, Function.update_self, Option.isNone_none, true_and, if_pos again,
    Option.bind_some, Function.update_idem]
  -- The comments complete the columns behind the key.
  have completed := run_described catalog table [CatalogTable.keyEntry] sound distinct
  simp only [List.singleton_append] at completed
  rw [completed, ← same, ← stood, Function.update_eq_self]

/-- A column is added where there is none of its name, and then its comment. -/
theorem run_addition {column : Column} {definition : ColumnDefinition}
    (there : (catalog table).isSome)
    (free : column? catalog table definition.name = none) :
    run catalog (.addColumn table definition :: columnComment table definition.name column) =
      some (setColumn catalog table definition.name
        (some { definition.entry.2 with comment := column.comment })) := by
  -- The column is there without its comment before that is set.
  have found : column? (setColumn catalog table definition.name (some definition.entry.2)) table
      definition.name = some definition.entry.2 := column?_setColumn there
  rw [run_cons, apply, if_pos ⟨there, by rw [free]; rfl⟩, Option.bind_some,
    run_columnComment found rfl, setColumn_setColumn]

/-- Dropping a column undoes its addition, together with its comment. -/
theorem addition_undone {column : Column} {definition : ColumnDefinition}
    (ran : run catalog (.addColumn table definition ::
      columnComment table definition.name column) = some next) :
    run next [.dropColumn table definition.name] = some catalog := by
  -- The column could be added because there was none.
  by_cases possible : (catalog table).isSome ∧ (column? catalog table definition.name).isNone
  · obtain ⟨there, absent⟩ := possible
    have free := Option.isNone_iff_eq_none.mp absent
    rw [run_addition there free] at ran
    cases ran
    rw [run_singleton, apply, if_pos (by rw [column?_setColumn there]; rfl), setColumn_setColumn,
      ← free, setColumn_column?]
  · rw [run_cons, apply, if_neg possible] at ran
    cases ran

/-- A column that was described as it stood is added again as it stood. -/
theorem removal_undone {column : Column} {definition : ColumnDefinition} {name : String}
    {standing : CatalogColumn} (sound : column.definition = .ok definition)
    (stood : column? catalog table name = some standing)
    (described : column.entry? = some (name, standing))
    (ran : run catalog [.dropColumn table definition.name] = some next) :
    run next (.addColumn table definition :: columnComment table definition.name column) =
      some catalog := by
  rw [entry_of_definition sound] at described
  cases described
  have there := isSome_of_column? stood
  simp only [run_singleton, apply, stood, Option.isSome_some, if_true, Option.some.injEq] at ran
  subst ran
  -- The table is still there, and the place of the column in it has become free.
  rw [run_addition (by rwa [isSome_setColumn]) (column?_setColumn there), setColumn_setColumn,
    ← stood, setColumn_column?]

/-- A comment is put back where the one before was given. -/
theorem comment_undone {name : String} {value : Option String} {standing : CatalogColumn}
    (stood : column? catalog table name = some standing)
    (ran : run catalog [.commentOn table name value] = some next) :
    run next [.commentOn table name standing.comment] = some catalog := by
  -- Setting the old comment leaves the column as it stood, and with it the catalog.
  have there := isSome_of_column? stood
  simp only [run_singleton, apply, stood, Option.map_some, Option.some.injEq] at ran
  subst ran
  rw [run_singleton, apply, column?_setColumn there, Option.map_some, setColumn_setColumn, ← stood,
    setColumn_column?]

/-- What a step does to a catalog is undone, if the step says what it takes away. -/
theorem step_undone {step : Step} (schematic : step.IsSchematic) (writes : step.Writes up down)
    (documents : step.DocumentsIn catalog) (ran : run catalog up = some next) :
    run next down = some catalog := by
  -- Each kind of step is undone for a reason of its own.
  cases writes with
  | describe text =>
    cases ran
    rfl
  | createTable table sound => exact creation_undone ran
  | dropTable table sound =>
    obtain ⟨standing, stood, listed⟩ := documents
    exact dropping_undone sound stood listed ran
  | addColumn table sound => exact addition_undone ran
  | dropColumn table sound =>
    obtain ⟨name, standing, stood, described⟩ := documents
    exact removal_undone sound stood described ran
  | setComment table column value previous | setConverter table column value previous =>
    -- A converter is kept as a comment.
    obtain ⟨standing, stood, given⟩ := documents
    rw [← given]
    exact comment_undone stood ran
  | raw operation => exact schematic.elim

/-- What steps do one after the other is undone in reverse. -/
theorem steps_undone {steps : List Step} {written : List (List Statement × List Statement)}
    (schematic : ∀ step ∈ steps, step.IsSchematic)
    (writes : List.Forall₂ (fun step scripts => step.Writes scripts.1 scripts.2) steps written)
    (documented : Documented catalog steps)
    (ran : run catalog (written.flatMap (·.1)) = some next) :
    run next (written.reverse.flatMap (·.2)) = some catalog := by
  -- The first step is undone last, in the catalog that it left to the others.
  induction writes generalizing catalog with
  | nil =>
    cases ran
    rfl
  | @cons step scripts rest others own _ ih =>
    rw [List.flatMap_cons, run_append] at ran
    obtain ⟨between, first, later⟩ := Option.bind_eq_some_iff.mp ran
    obtain ⟨now, afterwards⟩ := documented
    obtain ⟨operations, sound, ups, -⟩ := writes_iff.mp own
    -- Undoing the others leads back to the catalog that this step has left.
    rw [List.reverse_cons, List.flatMap_append, List.flatMap_singleton, run_append,
      ih (fun other member => schematic other (.tail _ member))
        (afterwards operations between sound (ups ▸ first)) later, Option.bind_some]
    exact step_undone (schematic step List.mem_cons_self) own now first

/-- Schematic steps write schematic statements only. -/
theorem writes_isSchematic {steps : List Step} {written : List (List Statement × List Statement)}
    (schematic : ∀ step ∈ steps, step.IsSchematic)
    (writes : List.Forall₂ (fun step scripts => step.Writes scripts.1 scripts.2) steps written) :
    ∀ statement ∈ written.flatMap (·.1) ++ written.reverse.flatMap (·.2),
      statement.IsSchematic := by
  -- Each statement has been written by one of the steps, for its changes or for their undoing.
  have each : ∀ scripts ∈ written, ∀ statement ∈ scripts.1 ++ scripts.2,
      statement.IsSchematic := by
    induction writes with
    | nil => exact nofun
    | @cons step scripts rest others own _ ih =>
      exact List.forall_mem_cons.mpr ⟨(schematic step List.mem_cons_self).statements own,
        ih fun other member => schematic other (.tail _ member)⟩
  intro statement member
  rcases List.mem_append.mp member with change | undoing
  · obtain ⟨scripts, among, own⟩ := List.mem_flatMap.mp change
    exact each scripts among statement (List.mem_append_left _ own)
  · obtain ⟨scripts, among, own⟩ := List.mem_flatMap.mp undoing
    exact each scripts (List.mem_reverse.mp among) statement (List.mem_append_right _ own)

/-- Steps are documented one after the other, each in the catalog that those before leave. -/
theorem Documented.cons {step : Step} {rest : List Step} (now : step.DocumentsIn catalog)
    (writes : step.Writes up down) (possible : (run catalog up).isSome)
    (later : Documented ((run catalog up).get possible) rest) :
    Documented catalog (step :: rest) := by
  obtain ⟨operations, sound, rfl, -⟩ := writes_iff.mp writes
  refine ⟨now, fun others next again ran => ?_⟩
  -- A step adds the same operations however often it is asked, and they lead to one catalog.
  rw [sound] at again
  cases again
  simpa only [ran, Option.get_some] using later

end Step

/-- The scripts of a migration render statements, of which the second ones undo the first ones
in every catalog that the steps describe as they find it. -/
theorem undoing_restores {steps : List Step} {blueprint : Blueprint}
    (schematic : ∀ step ∈ steps, step.IsSchematic)
    (succeeded : Blueprint.addAll {} steps = (blueprint, none)) :
    Renders blueprint.compile.up blueprint.changes ∧
    Renders blueprint.compile.down blueprint.undoings ∧
    ∀ catalog changed, Catalog.run catalog blueprint.changes = some changed →
      Step.Documented catalog steps →
      Catalog.run changed blueprint.undoings = some catalog := by
  obtain ⟨written, writes, changes, undoings⟩ := Blueprint.addAll_writes succeeded
  obtain ⟨up, down⟩ := Blueprint.compile_renders
    (changes ▸ undoings ▸ Step.writes_isSchematic schematic writes)
  refine ⟨up, down, fun catalog changed ran documented => ?_⟩
  -- The catalog goes back through the steps, the last of which is undone first.
  rw [undoings]
  exact Step.steps_undone schematic writes documented (changes ▸ ran)

/-- A table is replaced by another one of its name, and a column of a second table is dropped with
the comment that it has just been given. -/
theorem undoing_restores_sample :
    let mail : Column := { name := some "mail", type := some "text", comment := some "private" }
    let born : Column := { name := some "born", type := some "date", nullable := true }
    let note : Column := { name := some "note", type := some "text", comment := some "new" }
    let steps : List Step := [.dropTable "people" [mail], .createTable "people" [born],
      .setComment "posts" "note" (some "new") none, .dropColumn "posts" note]
    let blueprint := (Blueprint.addAll {} steps).1
    let catalog : Catalog := fun table =>
      if table = "people" then
        some (.ofEntries [CatalogTable.keyEntry, ("mail", ⟨"text not null", some "private"⟩)])
      else if table = "posts" then
        some (.ofEntries [CatalogTable.keyEntry, ("note", ⟨"text not null", none⟩)])
      else none
    ∃ changed, Catalog.run catalog blueprint.changes = some changed ∧
      changed.column? "people" "mail" = none ∧ changed.column? "posts" "note" = none ∧
      Catalog.run changed blueprint.undoings = some catalog ∧
      blueprint.compile.down = "alter table \"posts\" add column \"note\" text not null;\n" ++
        "comment on column \"posts\".\"note\" is $$new$$;\n" ++
        "comment on column \"posts\".\"note\" is null;\n" ++
        "drop table \"people\";\n" ++
        "create table \"people\" (\n  id serial primary key,\n  \"mail\" text not null\n);\n" ++
        "comment on column \"people\".\"mail\" is $$private$$;" := by
  intro mail born note steps blueprint catalog
  have possible : (Catalog.run catalog blueprint.changes).isSome := by decide +kernel
  obtain ⟨changed, ran⟩ := Option.isSome_iff_exists.mp possible
  have schematic : ∀ step ∈ steps, step.IsSchematic := by simp [steps, Step.IsSchematic]
  have succeeded : Blueprint.addAll {} steps = (blueprint, none) := rfl
  have mailSound : [mail].map Column.definition =
      [(⟨"mail", ["text", "not null"]⟩ : ColumnDefinition)].map .ok := rfl
  have bornSound : [born].map Column.definition =
      [(⟨"born", ["date"]⟩ : ColumnDefinition)].map .ok := rfl
  have noteSound : note.definition = .ok ⟨"note", ["text", "not null"]⟩ := rfl
  have listed : [mail].filterMap Column.entry? = [("mail", ⟨"text not null", some "private"⟩)] := by
    decide +kernel
  -- Each step says how the catalog stands that those before it have left.
  have documented : Step.Documented catalog steps := by
    refine .cons ⟨_, rfl, ?_⟩ (.dropTable "people" mailSound) (by decide +kernel) <|
      .cons trivial (.createTable "people" bornSound) (by decide +kernel) <|
      .cons ⟨⟨"text not null", none⟩, ?_, rfl⟩ (.setComment ..) (by decide +kernel) <|
      .cons ⟨"note", ⟨"text not null", some "new"⟩, ?_, ?_⟩ (.dropColumn "posts" noteSound)
        (by decide +kernel) trivial
    · -- The table that is dropped stood as it is described, with the comment on its column.
      rw [CatalogTable.ListedBy, listed]
      exact ⟨by decide, rfl⟩
    all_goals decide +kernel
  -- The changes have been made: neither of the two columns is there any more.
  have gone : ((Catalog.run catalog blueprint.changes).map fun changed =>
      (changed.column? "people" "mail", changed.column? "posts" "note")) = some (none, none) := by
    decide +kernel
  rw [ran] at gone
  obtain ⟨mailless, noteless⟩ := Prod.mk.inj (Option.some.inj gone)
  exact ⟨changed, ran, mailless, noteless,
    (undoing_restores schematic succeeded).2.2 catalog changed ran documented, by decide +kernel⟩

end SchemaLedger
