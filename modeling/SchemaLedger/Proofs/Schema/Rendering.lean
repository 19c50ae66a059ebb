import SchemaLedger.Proofs.Schema.Blueprint

/-! The scripts of a migration are the texts of its statements, with empty lines at most between. -/

namespace SchemaLedger

/-- A text is a script of some statements, between which empty lines do not matter. -/
def Renders (text : String) (statements : List Statement) : Prop :=
  ∃ parts : List String, text = "\n".intercalate parts ∧
    parts.filter (· ≠ "") = statements.map Statement.text

/-- A statement that is looked into is no text of somebody else. -/
def Statement.IsSchematic : Statement → Prop
  | .raw _ => False
  | _ => True

/-- A statement that is looked into has some text. -/
theorem Statement.IsSchematic.text_ne {statement : Statement} (schematic : statement.IsSchematic) :
    statement.text ≠ "" := by
  cases statement with
  | raw text => exact schematic.elim
  | createTable | dropTable | addColumn | dropColumn | commentOn =>
    -- What comes last in the text is never empty.
    unfold Statement.text
    intro empty
    exact absurd (String.append_eq_empty_iff.mp empty).2 (by decide)

/-- Statements that are looked into are rendered by their script. -/
theorem renders_script {statements : List Statement}
    (schematic : ∀ statement ∈ statements, statement.IsSchematic) :
    Renders (Statement.script statements) statements := by
  -- No statement is rendered as nothing, so that the filter keeps every one.
  refine ⟨statements.map Statement.text, rfl, List.filter_eq_self.mpr fun text member => ?_⟩
  obtain ⟨statement, inside, rfl⟩ := List.mem_map.mp member
  simpa using (schematic statement inside).text_ne

/-- A script of no statements still takes a line among others. -/
theorem Renders.lines {text : String} {statements : List Statement}
    (renders : Renders text statements) :
    ∃ parts : List String, parts ≠ [] ∧ text = "\n".intercalate parts ∧
      parts.filter (· ≠ "") = statements.map Statement.text := by
  -- Nothing at all is rendered as the empty text, which is one empty part.
  obtain ⟨_ | ⟨part, others⟩, joined, kept⟩ := renders
  · exact ⟨[""], by simp, by simpa using joined, kept⟩
  · exact ⟨part :: others, by simp, joined, kept⟩

/-- Scripts on lines of their own render the statements of each of them in turn. -/
theorem renders_intercalate {texts : List String} {lists : List (List Statement)}
    (renders : List.Forall₂ Renders texts lists) :
    Renders ("\n".intercalate texts) lists.flatten := by
  -- The last script is followed by none, and joined to nothing.
  induction renders with
  | nil => exact ⟨[], rfl, rfl⟩
  | @cons text statements texts lists first rest ih =>
    cases rest with
    | nil => simpa using first
    | cons second others =>
      -- A script without statements is an empty line, and so there are parts on either side.
      obtain ⟨parts, filled, rfl, kept⟩ := first.lines
      obtain ⟨more, also, joined, further⟩ := ih.lines
      refine ⟨parts ++ more, ?_, ?_⟩
      · rw [String.intercalate_cons_cons, joined, String.intercalate_append_of_ne_nil filled also]
      · rw [List.filter_append, kept, further, ← List.map_append]
        rfl

/-- The scripts of several lists of statements render them, one list after the other. -/
theorem renders_scripts {lists : List (List Statement)}
    (schematic : ∀ statements ∈ lists, ∀ statement ∈ statements, statement.IsSchematic) :
    Renders ("\n".intercalate (lists.map Statement.script)) lists.flatten := by
  -- Each list is rendered by its own script, and the scripts are joined.
  refine renders_intercalate (List.forall₂_map_left_iff.mpr (List.forall₂_same.mpr ?_))
  exact fun statements member => renders_script (schematic statements member)

/-- A step is made of statements that are looked into. -/
def Step.IsSchematic : Step → Prop
  | .raw _ => False
  | _ => True

/-- A comment is looked into. -/
theorem Statement.CommentsOn.isSchematic {table : String} {statement : Statement}
    (comment : statement.CommentsOn table) : statement.IsSchematic := by
  -- Setting a comment is schematic whatever it says.
  obtain ⟨name, text, rfl⟩ := comment
  trivial

/-- A schematic step writes schematic statements only, in either direction. -/
theorem Step.IsSchematic.statements {step : Step} {up down : List Statement}
    (schematic : step.IsSchematic) (writes : step.Writes up down) :
    ∀ statement ∈ up ++ down, statement.IsSchematic := by
  have commented : ∀ {comments : List Statement} {table : String},
      (∀ statement ∈ comments, statement.CommentsOn table) →
      ∀ statement ∈ comments, statement.IsSchematic :=
    fun comments statement member => (comments statement member).isSchematic
  -- Behind the statement that a step is named for there are comments at most.
  cases writes with
  | raw operation => exact schematic.elim
  | describe text => exact nofun
  | createTable table sound =>
    rw [List.forall_mem_append, List.forall_mem_cons, List.forall_mem_singleton]
    exact ⟨⟨trivial, commented columnComments_commentsOn⟩, trivial⟩
  | dropTable table sound =>
    rw [List.forall_mem_append, List.forall_mem_singleton, List.forall_mem_cons]
    exact ⟨trivial, trivial, commented columnComments_commentsOn⟩
  | addColumn table sound =>
    rw [List.forall_mem_append, List.forall_mem_cons, List.forall_mem_singleton]
    exact ⟨⟨trivial, commented fun _ => columnComment_commentsOn⟩, trivial⟩
  | dropColumn table sound =>
    rw [List.forall_mem_append, List.forall_mem_singleton, List.forall_mem_cons]
    exact ⟨trivial, trivial, commented fun _ => columnComment_commentsOn⟩
  | setComment | setConverter => simp [Statement.IsSchematic]

namespace Blueprint

/-- The statements that make the changes of a blueprint, in the order of its operations. -/
def changes (blueprint : Blueprint) : List Statement := blueprint.operations.flatMap Operation.up

/-- The statements that undo the changes, those of the last operation first. -/
def undoings (blueprint : Blueprint) : List Statement :=
  blueprint.operations.reverse.flatMap Operation.down

variable {blueprint : Blueprint}

/-- The steps of a migration write its changes in their order, and what undoes them in reverse. -/
theorem addAll_writes {steps : List Step} (succeeded : addAll {} steps = (blueprint, none)) :
    ∃ written : List (List Statement × List Statement),
      List.Forall₂ (fun step scripts => step.Writes scripts.1 scripts.2) steps written ∧
        blueprint.changes = written.flatMap (·.1) ∧
        blueprint.undoings = written.reverse.flatMap (·.2) := by
  obtain ⟨added, adds, -, rfl⟩ := addAll_eq_none.mp succeeded
  -- The operations that one step has added are undone together, the last of them first.
  refine ⟨added.map fun operations =>
    (operations.flatMap Operation.up, operations.reverse.flatMap Operation.down), ?_, ?_, ?_⟩
  · exact List.forall₂_map_right_iff.mpr
      (adds.imp fun step operations sound => Step.writes_iff.mpr ⟨operations, sound, rfl, rfl⟩)
  · simp [changes, List.flatMap_def, List.flatten_flatten, Function.comp_def]
  · simp [undoings, List.flatMap_def, List.flatten_flatten, Function.comp_def,
      List.reverse_flatten, List.map_reverse]

/-- The compiled scripts are renderings of the changes and of what undoes them. -/
theorem compile_renders
    (schematic : ∀ statement ∈ blueprint.changes ++ blueprint.undoings, statement.IsSchematic) :
    Renders blueprint.compile.up blueprint.changes ∧
      Renders blueprint.compile.down blueprint.undoings := by
  -- The statements of an operation are among all that are to be rendered.
  have up : ∀ statements ∈ blueprint.operations.map Operation.up,
      ∀ statement ∈ statements, statement.IsSchematic := by
    intro statements member statement inside
    exact schematic statement
      (List.mem_append_left _ (List.mem_flatten.mpr ⟨statements, member, inside⟩))
  have down : ∀ statements ∈ blueprint.operations.reverse.map Operation.down,
      ∀ statement ∈ statements, statement.IsSchematic := by
    intro statements member statement inside
    exact schematic statement
      (List.mem_append_right _ (List.mem_flatten.mpr ⟨statements, member, inside⟩))
  rw [changes, undoings, List.flatMap_def, List.flatMap_def]
  -- The text of an operation is the script of its statements.
  have upTexts := renders_scripts up
  have downTexts := renders_scripts down
  rw [List.map_map] at upTexts downTexts
  exact ⟨upTexts, downTexts⟩

end Blueprint

end SchemaLedger
