import SchemaLedger.Reconcile.Reconciler
import SchemaLedger.Proofs.Store.Answers

/-! What an activity does to a store is known from the calls it makes and the result it ends with. -/

namespace SchemaLedger.Run

variable {σ α β : Type} {store : Store σ}

/--
An activity only makes calls that the store answers, and they fit the result.

The claim holds from every session, so nothing is assumed about what the store answers.
-/
def Makes (store : Store σ) (action : Run σ α)
    (claim : List CallRecord → Except MigrationError α → Prop) : Prop :=
  ∀ session, ∃ made, store.Answers session.state made (action session).2.state ∧
    (action session).2.calls = session.calls ++ made ∧ claim made (action session).1

/-- What holds of the calls of an activity may be weakened. -/
theorem Makes.mono {action : Run σ α}
    {claim weaker : List CallRecord → Except MigrationError α → Prop}
    (makes : Makes store action claim)
    (implied : ∀ made result, claim made result → weaker made result) :
    Makes store action weaker := by
  -- The calls stay the same, and only the claim about them is weakened.
  intro session
  obtain ⟨made, answers, calls, holds⟩ := makes session
  exact ⟨made, answers, calls, implied made _ holds⟩

/-- A value is returned without a call. -/
theorem makes_pure {value : α} {claim : List CallRecord → Except MigrationError α → Prop}
    (holds : claim [] (.ok value)) : Makes store (pure value) claim :=
  fun _ => ⟨[], .silent _, (List.append_nil _).symm, holds⟩

/-- An error is raised without a call. -/
theorem makes_throw {error : MigrationError}
    {claim : List CallRecord → Except MigrationError α → Prop} (holds : claim [] (.error error)) :
    Makes store (throw error : Run σ α) claim :=
  fun _ => ⟨[], .silent _, (List.append_nil _).symm, holds⟩

/-- A script is executed by one call, which fails where the activity does. -/
theorem makes_execute (script : String) :
    Makes store (execute store script) fun made result =>
      made = [⟨.execute script, failure? result⟩] :=
  fun _ => ⟨_, .next rfl (.silent _), rfl, rfl⟩

/-- A ledger is written by one call, which fails where the activity does. -/
theorem makes_swap (expected next : Ledger) :
    Makes store (swap store expected next) fun made result =>
      made = [⟨.swap expected next, failure? result⟩] :=
  fun _ => ⟨_, .next rfl (.silent _), rfl, rfl⟩

/-- A step of a transaction is one call, which fails where the activity does. -/
theorem makes_transact (step : Transaction) :
    Makes store (transact store step) fun made result =>
      made = [⟨.transact step, failure? result⟩] :=
  fun _ => ⟨_, .next rfl (.silent _), rfl, rfl⟩

/-- An activity that goes on after another adds its calls to those made before. -/
theorem Makes.bind {action : Run σ α} {next : α → Run σ β}
    {claim : List CallRecord → Except MigrationError α → Prop}
    {combined : List CallRecord → Except MigrationError β → Prop}
    (first : Makes store action claim)
    (stopped : ∀ made error, claim made (.error error) → combined made (.error error))
    (goesOn : ∀ made value, claim made (.ok value) →
      Makes store (next value) fun later result => combined (made ++ later) result) :
    Makes store (action >>= next) combined := by
  intro session
  obtain ⟨made, answers, calls, holds⟩ := first session
  -- What is done next depends on the result of the first activity only.
  have unfolded : (action >>= next) session =
      ExceptT.bindCont next (action session).1 (action session).2 := rfl
  rw [unfolded]
  cases outcome : (action session).1 with
  | error error =>
    -- After an error nothing more is called, and the session stays as it is.
    rw [outcome] at holds
    exact ⟨made, answers, calls, stopped made error holds⟩
  | ok value =>
    -- The second activity goes on in the session that the first one left.
    rw [outcome] at holds
    obtain ⟨later, answered, called, both⟩ := goesOn made value holds (action session).2
    refine ⟨made ++ later, answers.append answered, ?_, both⟩
    rw [← List.append_assoc, ← calls]
    exact called

/-- An activity goes on whether or not an attempt before it has failed. -/
theorem Makes.afterAttempt {action : Run σ α} {next : Except MigrationError α → Run σ β}
    {claim : List CallRecord → Except MigrationError α → Prop}
    {combined : List CallRecord → Except MigrationError β → Prop}
    (makes : Makes store action claim)
    (goesOn : ∀ made attempted, claim made attempted →
      Makes store (next attempted) fun later result => combined (made ++ later) result) :
    Makes store (attempt action >>= next) combined := by
  -- The attempt makes the calls of the activity, and its result is never an error.
  have attempted : Makes store (attempt action) fun made result =>
      ∃ inner, result = .ok inner ∧ claim made inner := by
    intro session
    obtain ⟨made, answers, calls, holds⟩ := makes session
    exact ⟨made, answers, calls, _, rfl, holds⟩
  -- So only the second of the two cases is left, in which the run goes on.
  refine Makes.bind attempted ?_ ?_
  · intro made error holds
    obtain ⟨inner, impossible, _⟩ := holds
    cases impossible
  · intro made value holds
    obtain ⟨inner, same, holds⟩ := holds
    cases same
    exact goesOn made value holds

/-- An activity that only returns a value adds nothing to the calls of what follows. -/
theorem Makes.afterSilent {action : Run σ α} {value : α} {next : α → Run σ β}
    {claim : List CallRecord → Except MigrationError β → Prop}
    (silent : Makes store action fun made result => made = [] ∧ result = .ok value)
    (makes : Makes store (next value) claim) : Makes store (action >>= next) claim := by
  -- The first activity calls nothing and never fails, so only the second one counts.
  refine Makes.bind silent ?_ ?_
  · intro made error holds
    cases holds.2
  · intro made returned holds
    obtain ⟨rfl, same⟩ := holds
    cases same
    exact makes

/-- An event is reported without a call. -/
theorem makes_report (event : Event) :
    Makes store (report event) fun made result => made = [] ∧ result = .ok () :=
  fun _ => ⟨[], .silent _, (List.append_nil _).symm, rfl, rfl⟩

/-- An event that is reported first changes nothing about the calls. -/
theorem Makes.afterReport {event : Event} {next : Unit → Run σ α}
    {claim : List CallRecord → Except MigrationError α → Prop}
    (makes : Makes store (next ()) claim) : Makes store (report event >>= next) claim :=
  (makes_report event).afterSilent makes

/-- The clock is read without a call, and whatever time it shows is gone on with. -/
theorem Makes.afterStamp {clock : Nat → Instant} {next : Instant → Run σ α}
    {claim : List CallRecord → Except MigrationError α → Prop}
    (makes : ∀ time, Makes store (next time) claim) : Makes store (stamp clock >>= next) claim := by
  intro session
  -- Reading the clock only counts the time stamps taken.
  exact makes (clock session.stamps) { session with stamps := session.stamps + 1 }

end SchemaLedger.Run
