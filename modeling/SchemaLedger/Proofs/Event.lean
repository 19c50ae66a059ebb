import SchemaLedger.Event
import SchemaLedger.Proofs.Decimal.Digits

/-! Two kinds of events tell how far a run has come, and their lines are told by no others. -/

namespace SchemaLedger

namespace Event

/-- How many migrations in a row were found in the ledger, where an event tells that. -/
def counted? : Event → Option Nat
  | .alreadyRun count => some count
  | _ => none

/-- The name of the migration that is run from now on, where an event tells that. -/
def started? : Event → Option String
  | .migrationRunning name _ => some name
  | _ => none

/-- An event that tells neither of the two. -/
def isAside (event : Event) : Bool := event.counted?.isNone && event.started?.isNone

/-- An aside tells neither a count nor a name. -/
theorem told_of_aside {event : Event} (aside : event.isAside = true) :
    event.counted? = none ∧ event.started? = none := by
  simpa [isAside] using aside

/-- A line begins with the digits of the count that it tells, and with no digit if it tells none. -/
theorem digits_message (event : Event) :
    event.message.toList.takeWhile Char.isDigit = (event.counted?.map decimalDigits).getD [] := by
  cases event with
  | alreadyRun count =>
    -- Whether or not there are several migrations, a blank ends the digits.
    simp only [message, decimalText, String.toList_append, String.toList_ofList,
      List.append_assoc, counted?, Option.map_some, Option.getD_some]
    rw [List.takeWhile_append_of_pos fun c => isDigit_of_mem_decimalDigits,
      (digits_stop (by simp)).1, List.append_nil]
  -- All other lines are literals, and their characters are known without decoding them.
  | _ => exact (congrArg (List.takeWhile Char.isDigit) String.toList_ofList).trans rfl

/-- A count is told by its own line, and by no other one. -/
theorem counted?_eq_some_iff {event : Event} {count : Nat} :
    event.counted? = some count ↔ event.message = (Event.alreadyRun count).message := by
  constructor
  · -- Only one kind of event tells a count.
    intro told
    cases event with
    | alreadyRun other => cases told; rfl
    | _ => cases told
  · intro same
    -- Both lines begin with the same digits, and a count is written with one digit at least.
    have digits := event.digits_message
    rw [same, digits_message] at digits
    cases told : event.counted? with
    | none =>
      rw [told] at digits
      exact absurd digits (decimalDigits_ne_nil count)
    | some other =>
      rw [told] at digits
      rw [decimalDigits_injective digits]

/-- That a migration is run is told by one line, whatever the migration. -/
theorem isSome_started?_iff {event : Event} :
    event.started?.isSome = true ↔ event.message = "Running migration" := by
  cases event with
  | alreadyRun count =>
    refine ⟨nofun, fun same => ?_⟩
    -- The line would have to begin with a digit.
    have digits := (Event.alreadyRun count).digits_message
    rw [same] at digits
    exact absurd digits.symm (decimalDigits_ne_nil count)
  | _ => simp [started?, message]

end Event

/-- The counts of migrations found that events tell, in order. -/
def counts (events : List Event) : List Nat := events.filterMap Event.counted?

/-- The names of the migrations that are run according to events, in order. -/
def started (events : List Event) : List String := events.filterMap Event.started?

variable {event : Event} {count : Nat} {name description : String} {later : List Event}

/-- A count that is told comes before those told later. -/
@[simp] theorem counts_alreadyRun : counts (.alreadyRun count :: later) = count :: counts later := rfl

/-- That a migration is run adds nothing to the counts. -/
@[simp] theorem counts_running : counts (.migrationRunning name description :: later) = counts later :=
  rfl

/-- An aside adds nothing to the counts. -/
theorem counts_aside (aside : event.isAside = true) : counts (event :: later) = counts later :=
  List.filterMap_cons_none (Event.told_of_aside aside).1

/-- A count adds nothing to the migrations that are run. -/
@[simp] theorem started_alreadyRun : started (.alreadyRun count :: later) = started later := rfl

/-- A migration that is run comes before those run later. -/
@[simp] theorem started_running :
    started (.migrationRunning name description :: later) = name :: started later := rfl

/-- An aside adds nothing to the migrations that are run. -/
theorem started_aside (aside : event.isAside = true) : started (event :: later) = started later :=
  List.filterMap_cons_none (Event.told_of_aside aside).2

end SchemaLedger
