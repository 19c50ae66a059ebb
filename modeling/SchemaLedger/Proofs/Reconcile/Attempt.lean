import SchemaLedger.Proofs.Reconcile.Course
import SchemaLedger.Proofs.Reconcile.Effects

/-! Calls made one after the other are put together from parts, up to the first that fails. -/

namespace SchemaLedger

/-- Attempts go on with more calls once all of them have succeeded. -/
theorem Attempts.append {name : String} {calls more : List Call} {made later : List CallRecord}
    {failure : Option MigrationError} (first : Attempts name calls made none)
    (second : Attempts name more later failure) :
    Attempts name (calls ++ more) (made ++ later) failure := by
  -- The induction is on the calls made, none of which has failed.
  generalize outcome : (none : Option MigrationError) = ended at first
  induction first with
  | done => exact second
  | next _ ih => exact .next (ih outcome)
  | failed => cases outcome

/-- Attempts that fail are not followed by further calls. -/
theorem Attempts.stop {name : String} {calls : List Call} {made : List CallRecord}
    {error : MigrationError} (failed : Attempts name calls made (some error)) (more : List Call) :
    Attempts name (calls ++ more) made (some error) := by
  -- The further calls stand behind the one that failed.
  generalize outcome : some error = ended at failed
  induction failed with
  | done => cases outcome
  | next _ ih => exact .next (ih outcome)
  | failed call later error => exact .failed call (later ++ more) error

/-- Attempts that all succeed within a transaction are followed by its commit. -/
theorem Attempts.commit {name : String} {calls : List Call} {made : List CallRecord}
    (succeeded : Attempts name calls made none) (failure : Option MigrationError) :
    Transacted name calls (made ++ [⟨.transact .commit, failure⟩]) failure := by
  -- The commit comes where the last of the calls has succeeded.
  generalize outcome : (none : Option MigrationError) = ended at succeeded
  induction succeeded with
  | done =>
    cases failure with
    | none => exact .committed
    | some error => exact .uncommitted error
  | next _ ih => exact .next (ih outcome)
  | failed => cases outcome

/-- Attempts of which one fails within a transaction are followed by its rollback. -/
theorem Attempts.rollBack {name : String} {calls : List Call} {made : List CallRecord}
    {error : MigrationError} (failed : Attempts name calls made (some error))
    (rollback : Option MigrationError) :
    Transacted name calls (made ++ [⟨.transact .rollback, rollback⟩]) (some error) := by
  -- The rollback comes right behind the call that failed.
  generalize outcome : some error = ended at failed
  induction failed with
  | done => cases outcome
  | next _ ih => exact .next (ih outcome)
  | failed call later error => exact .rolledBack call later error rollback

/-- The calls of a replay within its transaction, before it is committed or rolled back. -/
inductive Guarded (stored current : Migration) (direct fallback : List Call) :
    List CallRecord → Option MigrationError → Prop where
  | unguarded (error : MigrationError) :
      Guarded stored current direct fallback
        [⟨.transact (.savepoint Reconciler.replaySavepoint), some error⟩] (some error)
  | reverted {made : List CallRecord} {failure : Option MigrationError}
      (rest : Attempts current.name direct made failure) :
      Guarded stored current direct fallback
        (⟨.transact (.savepoint Reconciler.replaySavepoint), none⟩ ::
          ⟨.execute stored.down, none⟩ :: made) failure
  | fellBack (error : MigrationError) {made : List CallRecord} {failure : Option MigrationError}
      (rest : Attempts current.name fallback made failure) :
      Guarded stored current direct fallback
        (⟨.transact (.savepoint Reconciler.replaySavepoint), none⟩ ::
          ⟨.execute stored.down, some error⟩ :: made) failure

namespace Guarded

variable {stored current : Migration} {direct fallback : List Call} {made : List CallRecord}

/-- A migration that has been reverted is treated alike, however that was done. -/
theorem append {more : List Call} {later : List CallRecord} {failure : Option MigrationError}
    (first : Guarded stored current direct fallback made none)
    (second : Attempts current.name more later failure) :
    Guarded stored current (direct ++ more) (fallback ++ more) (made ++ later) failure := by
  -- A replay whose savepoint failed has failed itself, so two cases are left.
  cases first with
  | reverted rest => exact .reverted (rest.append second)
  | fellBack error rest => exact .fellBack error (rest.append second)

/-- Calls that fail before a migration is reverted are not followed by further calls. -/
theorem stop {error : MigrationError}
    (failed : Guarded stored current direct fallback made (some error)) (more : List Call) :
    Guarded stored current (direct ++ more) (fallback ++ more) made (some error) := by
  -- The calls to come are appended to whichever of the two lists was taken.
  cases failed with
  | unguarded => exact .unguarded error
  | reverted rest => exact .reverted (rest.stop more)
  | fellBack refused rest => exact .fellBack refused (rest.stop more)

/-- A replay whose calls succeed ends with the answer to its commit. -/
theorem commit {ledger next : Ledger}
    (succeeded : Guarded stored current (callsAfterRevert current ledger next)
      (callsAfterFallback current ledger next) made none) (failure : Option MigrationError) :
    Replays stored current ledger next
      (⟨.transact .begin, none⟩ :: (made ++ [⟨.transact .commit, failure⟩])) failure := by
  -- The calls between begin and commit are those of either way to revert.
  cases succeeded with
  | reverted rest => exact .reverted (rest.commit failure)
  | fellBack error rest => exact .fellBack error (rest.commit failure)

/-- A replay of which a call fails ends with its rollback. -/
theorem rollBack {ledger next : Ledger} {error : MigrationError}
    (failed : Guarded stored current (callsAfterRevert current ledger next)
      (callsAfterFallback current ledger next) made (some error))
    (rollback : Option MigrationError) :
    Replays stored current ledger next
      (⟨.transact .begin, none⟩ :: (made ++ [⟨.transact .rollback, rollback⟩])) (some error) := by
  -- The savepoint may be what failed, or one of the calls behind it.
  cases failed with
  | unguarded => exact .unguarded error rollback
  | reverted rest => exact .reverted (rest.rollBack rollback)
  | fellBack refused rest => exact .fellBack refused (rest.rollBack rollback)

end Guarded

namespace Run

variable {σ α β : Type} {store : Store σ} {name : String}

/-- An activity whose calls end with a failure or not is gone on with only if they do not. -/
theorem Makes.andThen {action : Run σ α} {next : α → Run σ β} {value : α}
    {ends : List CallRecord → Option MigrationError → Prop}
    {combined : List CallRecord → Except MigrationError β → Prop}
    (first : Makes store action fun made result =>
      ∃ failure, ends made failure ∧ result = unlessFailed failure value)
    (stopped : ∀ made error, ends made (some error) → combined made (.error error))
    (goesOn : ∀ made, ends made none →
      Makes store (next value) fun later result => combined (made ++ later) result) :
    Makes store (action >>= next) combined := by
  -- The result tells whether there was a failure, and which one.
  refine Makes.bind first ?_ ?_
  · intro made error holds
    obtain ⟨failure, ended, same⟩ := holds
    obtain rfl := failed_of_error same
    exact stopped made error ended
  · intro made returned holds
    obtain ⟨failure, ended, same⟩ := holds
    obtain ⟨rfl, rfl⟩ := succeeded_of_ok same
    exact goesOn made ended

/-- An activity that leads to some outcome is gone on with only if that is no error. -/
theorem Makes.andThenMap {γ : Type} {action : Run σ α} {next : α → Run σ β} {returned : γ → α}
    {ends : List CallRecord → Except MigrationError γ → Prop}
    {combined : List CallRecord → Except MigrationError β → Prop}
    (first : Makes store action fun made result =>
      ∃ outcome, ends made outcome ∧ result = outcome.map returned)
    (stopped : ∀ made error, ends made (.error error) → combined made (.error error))
    (goesOn : ∀ made value, ends made (.ok value) →
      Makes store (next (returned value)) fun later result => combined (made ++ later) result) :
    Makes store (action >>= next) combined := by
  -- The result is an error exactly where the outcome is the same error.
  refine Makes.bind first ?_ ?_
  · intro made error holds
    obtain ⟨outcome, ended, same⟩ := holds
    cases outcome with
    | ok value => cases same
    | error failed => cases same; exact stopped made error ended
  · intro made value holds
    obtain ⟨outcome, ended, same⟩ := holds
    cases outcome with
    | ok inner => cases same; exact goesOn made inner ended
    | error failed => cases same

/-- An activity makes calls for a migration, and returns a value if all of them succeed. -/
def Performs (store : Store σ) (name : String) (action : Run σ α) (calls : List Call) (value : α) :
    Prop :=
  Makes store action fun made result =>
    ∃ failure, Attempts name calls made failure ∧ result = unlessFailed failure value

/-- An activity that goes on after another makes its calls behind those of the first. -/
theorem Performs.bind {action : Run σ α} {next : α → Run σ β} {calls later : List Call}
    {value : α} {result : β} (first : Performs store name action calls value)
    (second : Performs store name (next value) later result) :
    Performs store name (action >>= next) (calls ++ later) result := by
  refine Makes.andThen first ?_ ?_
  · intro made error attempts
    exact ⟨some error, attempts.stop later, rfl⟩
  · intro made attempts
    -- The calls of the second activity come behind those that have all succeeded.
    refine second.mono fun others outcome holds => ?_
    obtain ⟨failure, further, ended⟩ := holds
    exact ⟨failure, attempts.append further, ended⟩

/-- A value is returned without a call. -/
theorem performs_pure (value : α) : Performs store name (pure value) [] value :=
  makes_pure ⟨none, .done, rfl⟩

/-- An event is reported without a call. -/
theorem performs_report (event : Event) : Performs store name (report event) [] () := by
  -- An event is no call.
  refine (makes_report event).mono fun made result holds => ?_
  obtain ⟨rfl, rfl⟩ := holds
  exact ⟨none, .done, rfl⟩

/-- One call is made where its failure is reported as it is. -/
theorem performs_call {action : Run σ Unit} {call : Call}
    (makes : Makes store action fun made result => made = [⟨call, failure? result⟩])
    (plain : ∀ error, call.blame name error = error) : Performs store name action [call] () := by
  -- One call is an attempt of itself, which is over whether or not the call fails.
  refine makes.mono fun made result holds => ?_
  obtain rfl := holds
  cases result with
  | ok => exact ⟨none, .next .done, rfl⟩
  | error error =>
    have failed : Attempts name [call] _ _ := .failed call [] error
    rw [plain error] at failed
    exact ⟨some error, failed, rfl⟩

/-- A step of a transaction is one call. -/
theorem performs_transact (step : Transaction) :
    Performs store name (transact store step) [.transact step] () :=
  performs_call (makes_transact step) fun _ => rfl

/-- Writing a ledger is one call. -/
theorem performs_swap (expected next : Ledger) :
    Performs store name (swap store expected next) [.swap expected next] () :=
  performs_call (makes_swap expected next) fun _ => rfl

end Run

end SchemaLedger
