import Mathlib.Data.List.Forall2
import SchemaLedger.Schema.Blueprint

/-! A blueprint takes steps exactly if each of them is sound and one at most is a description. -/

namespace SchemaLedger

/-- A statement about the comment of some column of a table. -/
def Statement.CommentsOn (table : String) (statement : Statement) : Prop :=
  ∃ name comment, statement = .commentOn table name comment

namespace Step

/-- The description that a step gives. -/
def description? : Step → Option String
  | .describe text => some text
  | _ => none

/-- Steps add operations, as many lists of them as there are steps. -/
def Adds (steps : List Step) (added : List (List Operation)) : Prop :=
  List.Forall₂ (fun step operations => step.operations = .ok operations) steps added

/-- The descriptions that steps give. -/
def descriptions (steps : List Step) : List String := steps.filterMap description?

variable {table : String}

/-- The comment of a column is a comment on its table. -/
theorem columnComment_commentsOn {name : String} {column : Column} {statement : Statement}
    (member : statement ∈ columnComment table name column) : statement.CommentsOn table := by
  -- A column has one comment at most.
  obtain ⟨comment, -, rfl⟩ := List.mem_map.mp member
  exact ⟨name, some comment, rfl⟩

/-- All comments of the columns of a table are comments on that table. -/
theorem columnComments_commentsOn {definitions : List ColumnDefinition} {columns : List Column} :
    ∀ statement ∈ columnComments table definitions columns, statement.CommentsOn table := by
  -- Each of them is the comment of one column, whichever name that column has been given.
  intro statement member
  obtain ⟨⟨definition, column⟩, -, own⟩ := List.mem_flatMap.mp member
  exact columnComment_commentsOn own

end Step

namespace Blueprint

variable {blueprint next : Blueprint} {step : Step} {steps : List Step}

/-- A blueprint takes a sound step, unless it would be described a second time. -/
theorem add_eq_ok : blueprint.add step = .ok next ↔
    ∃ operations, step.operations = .ok operations ∧
      (blueprint.description.toList ++ step.description?.toList).length ≤ 1 ∧
      next = ⟨blueprint.operations ++ operations,
        (blueprint.description.toList ++ step.description?.toList).head?⟩ := by
  obtain ⟨before, description⟩ := blueprint
  cases step with
  | describe text =>
    cases description with
    | none => simp [add, Step.operations, Step.description?, eq_comm]
    | some earlier => simp [add, Step.description?]
  | _ =>
    -- Any other step leaves the description as it is.
    simp only [add, Step.description?]
    generalize Step.operations _ = outcome
    cases outcome <;> cases description <;>
      simp [bind, Except.bind, pure, Except.pure, eq_comm]

/-- A step describes before those that follow it. -/
theorem descriptions_cons (step : Step) (steps : List Step) :
    Step.descriptions (step :: steps) = step.description?.toList ++ Step.descriptions steps := by
  -- A step is a description or has none to give.
  cases given : step.description? <;> simp [Step.descriptions, given]

/-- A list with at most one item is known by its first item. -/
theorem toList_head? {α : Type} {items : List α} (few : items.length ≤ 1) :
    items.head?.toList = items := by
  -- With at most one element the first is all there is.
  match items with
  | [] | [_] => rfl
  | _ :: _ :: _ => simp at few

/-- Steps that are all taken add their operations in order. -/
theorem addAll_eq_none : blueprint.addAll steps = (next, none) ↔
    ∃ added, Step.Adds steps added ∧
      (blueprint.description.toList ++ Step.descriptions steps).length ≤ 1 ∧
      next = ⟨blueprint.operations ++ added.flatten,
        (blueprint.description.toList ++ Step.descriptions steps).head?⟩ := by
  -- The blueprint grows from step to step, and the steps before count as already added.
  induction steps generalizing blueprint with
  | nil =>
    obtain ⟨operations, description⟩ := blueprint
    cases description <;> simp [addAll, Step.Adds, Step.descriptions, eq_comm]
  | cons step rest ih =>
    rw [descriptions_cons, ← List.append_assoc]
    constructor
    · intro taken
      cases outcome : blueprint.add step with
      | error error => simp [addAll, outcome] at taken
      | ok between =>
        obtain ⟨operations, sound, few, rfl⟩ := add_eq_ok.mp outcome
        simp only [addAll, outcome] at taken
        obtain ⟨added, later, fewer, rfl⟩ := ih.mp taken
        -- No description has been lost, as there is one at most.
        rw [toList_head? few] at fewer ⊢
        exact ⟨operations :: added, .cons sound later, fewer, by simp⟩
    · rintro ⟨_ | ⟨operations, added⟩, adds, few, rfl⟩
      -- A step adds a list of operations, be it empty.
      · cases adds
      obtain ⟨sound, later⟩ := List.forall₂_cons.mp adds
      have first : (blueprint.description.toList ++ step.description?.toList).length ≤ 1 :=
        Nat.le_trans (by simp) few
      simp only [addAll, add_eq_ok.mpr ⟨operations, sound, first, rfl⟩]
      refine ih.mpr ⟨added, later, ?_, ?_⟩
      · rwa [toList_head? first]
      · simp [Option.or_assoc]

end Blueprint

/-- Steps compile if each is sound and one at most is a description, and into what they add. -/
theorem compileSteps_eq_ok {steps : List Step} {compiled : CompiledMigration} :
    compileSteps steps = .ok compiled ↔
      ∃ added, Step.Adds steps added ∧ (Step.descriptions steps).length ≤ 1 ∧
        compiled = Blueprint.compile ⟨added.flatten, (Step.descriptions steps).head?⟩ := by
  have taken : ∀ next, Blueprint.addAll {} steps = (next, none) ↔
      ∃ added, Step.Adds steps added ∧ (Step.descriptions steps).length ≤ 1 ∧
        next = ⟨added.flatten, (Step.descriptions steps).head?⟩ :=
    fun next => Blueprint.addAll_eq_none
  rcases outcome : Blueprint.addAll {} steps with ⟨blueprint, _ | error⟩
  · obtain ⟨added, adds, few, built⟩ := (taken blueprint).mp outcome
    simp only [compileSteps, outcome, Except.ok.injEq]
    constructor
    · rintro rfl
      exact ⟨added, adds, few, congrArg Blueprint.compile built⟩
    · rintro ⟨other, again, _, rfl⟩
      -- The steps add the same operations however often they are asked.
      have same := (taken _).mpr ⟨other, again, few, rfl⟩
      rw [outcome] at same
      exact congrArg Blueprint.compile (Prod.mk.inj same).1
  · -- What all steps add would be a blueprint that took every step.
    simp only [compileSteps, outcome, reduceCtorEq, false_iff]
    rintro ⟨added, adds, few, -⟩
    have same := (taken _).mpr ⟨added, adds, few, rfl⟩
    rw [outcome] at same
    cases same

/-- All steps are taken exactly if they compile. -/
theorem addAll_sound_iff {steps : List Step} :
    (Blueprint.addAll {} steps).2 = none ↔ ∃ compiled, compileSteps steps = .ok compiled := by
  -- Compiling succeeds exactly if every call does.
  rcases outcome : Blueprint.addAll {} steps with ⟨blueprint, _ | error⟩ <;>
    simp [compileSteps, outcome]

end SchemaLedger
