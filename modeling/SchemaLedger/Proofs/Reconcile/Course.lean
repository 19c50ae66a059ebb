import SchemaLedger.Reconcile.Reconciler
import SchemaLedger.Proofs.Reconcile.Plan

/-! The course of a run is the history of calls by which it follows its plan, up to a failure. -/

namespace SchemaLedger

open Reconciler (replaySavepoint)

/-- The error with which a run ends when a call for a migration fails. -/
def Call.blame (name : String) : Call → MigrationError → MigrationError
  | .execute script, error => .scriptFailed name script error
  | _, error => error

/-- A value, unless a failure came before it. -/
def unlessFailed {α : Type} (failure : Option MigrationError) (value : α) :
    Except MigrationError α :=
  match failure with
  | none => .ok value
  | some error => .error error

/-- What ends with an error has failed with it. -/
theorem failed_of_error {α : Type} {failure : Option MigrationError} {value : α}
    {error : MigrationError} (ended : .error error = unlessFailed failure value) :
    failure = some error := by
  -- There is a failure, since without one the result would be a value.
  cases failure with
  | none => cases ended
  | some failed => cases ended; rfl

/-- What ends with a value has not failed, and the value is the one announced. -/
theorem succeeded_of_ok {α : Type} {failure : Option MigrationError} {value result : α}
    (ended : .ok result = unlessFailed failure value) : failure = none ∧ result = value := by
  -- There is no failure, since with one there would be no value.
  cases failure with
  | none => cases ended; exact ⟨rfl, rfl⟩
  | some failed => cases ended

/-- Calls made for a migration one after the other, up to the first that fails. -/
inductive Attempts (name : String) : List Call → List CallRecord → Option MigrationError → Prop where
  | done : Attempts name [] [] none
  | next {call : Call} {later : List Call} {made : List CallRecord} {failure : Option MigrationError}
      (rest : Attempts name later made failure) :
      Attempts name (call :: later) (⟨call, none⟩ :: made) failure
  | failed (call : Call) (later : List Call) (error : MigrationError) :
      Attempts name (call :: later) [⟨call, some error⟩] (some (call.blame name error))

/--
Calls made for a migration within a transaction.

A commit follows when all of them succeed, and a rollback when one of them fails.
-/
inductive Transacted (name : String) :
    List Call → List CallRecord → Option MigrationError → Prop where
  | committed : Transacted name [] [⟨.transact .commit, none⟩] none
  | uncommitted (error : MigrationError) :
      Transacted name [] [⟨.transact .commit, some error⟩] (some error)
  | next {call : Call} {later : List Call} {made : List CallRecord} {failure : Option MigrationError}
      (rest : Transacted name later made failure) :
      Transacted name (call :: later) (⟨call, none⟩ :: made) failure
  | rolledBack (call : Call) (later : List Call) (error : MigrationError)
      (rollback : Option MigrationError) :
      Transacted name (call :: later)
        [⟨call, some error⟩, ⟨.transact .rollback, rollback⟩] (some (call.blame name error))

/-- The calls of a replay behind a stored down script that succeeded. -/
def callsAfterRevert (current : Migration) (ledger next : Ledger) : List Call :=
  [.transact (.release replaySavepoint), .execute current.up, .swap ledger next]

/-- The calls of a replay behind a stored down script that failed. -/
def callsAfterFallback (current : Migration) (ledger next : Ledger) : List Call :=
  [.transact (.rollbackTo replaySavepoint), .transact (.release replaySavepoint),
    .execute current.down, .execute current.up, .swap ledger next]

/-- The calls of a replay, from the beginning of its transaction to the end. -/
inductive Replays (stored current : Migration) (ledger next : Ledger) :
    List CallRecord → Option MigrationError → Prop where
  | unopened (error : MigrationError) :
      Replays stored current ledger next [⟨.transact .begin, some error⟩] (some error)
  | unguarded (error : MigrationError) (rollback : Option MigrationError) :
      Replays stored current ledger next
        [⟨.transact .begin, none⟩, ⟨.transact (.savepoint replaySavepoint), some error⟩,
          ⟨.transact .rollback, rollback⟩] (some error)
  | reverted {made : List CallRecord} {failure : Option MigrationError}
      (rest : Transacted current.name (callsAfterRevert current ledger next) made failure) :
      Replays stored current ledger next
        (⟨.transact .begin, none⟩ :: ⟨.transact (.savepoint replaySavepoint), none⟩ ::
          ⟨.execute stored.down, none⟩ :: made) failure
  | fellBack (error : MigrationError) {made : List CallRecord} {failure : Option MigrationError}
      (rest : Transacted current.name (callsAfterFallback current ledger next) made failure) :
      Replays stored current ledger next
        (⟨.transact .begin, none⟩ :: ⟨.transact (.savepoint replaySavepoint), none⟩ ::
          ⟨.execute stored.down, some error⟩ :: made) failure

/-- The ledger that a move writes in place of the one before it. -/
inductive Move.Writes (ledger : Ledger) : Move → Ledger → Prop where
  | revert (orphan : Migration) : Writes ledger (.revert orphan) (ledger.remove orphan.name)
  | append {migration : Migration} {time : Instant} {next : Ledger}
      (pushed : ledger.push (migration.stamped time) = .ok next) :
      Writes ledger (.append migration) next
  | refresh (stored current : Migration) :
      Writes ledger (.refresh stored current)
        (ledger.replace { current with appliedAt := stored.appliedAt })
  | replay (stored current : Migration) (time : Instant) :
      Writes ledger (.replay stored current) (ledger.replace (current.stamped time))

/-- The calls of a move, and the error with which it ends if one of them fails. -/
inductive Move.Calls (ledger next : Ledger) :
    Move → List CallRecord → Option MigrationError → Prop where
  | revert {orphan : Migration} {made : List CallRecord} {failure : Option MigrationError}
      (attempts : Attempts orphan.name [.execute orphan.down, .swap ledger next] made failure) :
      Calls ledger next (.revert orphan) made failure
  | append {migration : Migration} {made : List CallRecord} {failure : Option MigrationError}
      (attempts : Attempts migration.name [.execute migration.up, .swap ledger next] made failure) :
      Calls ledger next (.append migration) made failure
  | refresh {stored current : Migration} {made : List CallRecord} {failure : Option MigrationError}
      (attempts : Attempts current.name [.swap ledger next] made failure) :
      Calls ledger next (.refresh stored current) made failure
  | replay {stored current : Migration} {made : List CallRecord} {failure : Option MigrationError}
      (replays : Replays stored current ledger next made failure) :
      Calls ledger next (.replay stored current) made failure

/-- The calls by which moves are made one after the other, and the ledger or error they end with. -/
inductive Follows : Ledger → List Move → List CallRecord → Except MigrationError Ledger → Prop where
  | done (ledger : Ledger) : Follows ledger [] [] (.ok ledger)
  | next {ledger next : Ledger} {move : Move} {moves : List Move} {made later : List CallRecord}
      {outcome : Except MigrationError Ledger} (writes : move.Writes ledger next)
      (calls : move.Calls ledger next made none) (rest : Follows next moves later outcome) :
      Follows ledger (move :: moves) (made ++ later) outcome
  | stopped {ledger next : Ledger} {move : Move} {made : List CallRecord} {error : MigrationError}
      (writes : move.Writes ledger next) (calls : move.Calls ledger next made (some error))
      (moves : List Move) : Follows ledger (move :: moves) made (.error error)
  | refused (ledger : Ledger) (current : Migration) (moves : List Move) :
      Follows ledger (.refuse current :: moves) [] (.error (.upChanged current.name))

/-- The calls of a run, and the report or error it ends with. -/
inductive Course (development : Bool) (migrations : List Migration)
    (loading : Except MigrationError Ledger) :
    List CallRecord → Except MigrationError Report → Prop where
  | unordered {error : MigrationError} (refused : canonicalOrder migrations = .error error) :
      Course development migrations loading [] (.error error)
  | unloaded {sorted : List Migration} {error : MigrationError}
      (ordered : canonicalOrder migrations = .ok sorted) (failed : loading = .error error) :
      Course development migrations loading [⟨.load, some error⟩] (.error error)
  | followed {sorted : List Migration} {loaded : Ledger} {made : List CallRecord}
      {outcome : Except MigrationError Ledger} (ordered : canonicalOrder migrations = .ok sorted)
      (opened : loading = .ok loaded)
      (follows : Follows loaded (Plan.moves development loaded sorted) made outcome) :
      Course development migrations loading (⟨.load, none⟩ :: made)
        (outcome.map fun _ => (Plan.orphansReport development (Status.orphans loaded sorted)).join
          (Plan.localsReport development loaded sorted))

/-- A move leaves the records under other names as they are. -/
theorem Move.Writes.get?_other {ledger next : Ledger} {move : Move} {name : String}
    (writes : move.Writes ledger next) (other : name ≠ move.name) :
    next.get? name = ledger.get? name := by
  -- Each kind of move removes, adds or exchanges the record under its own name only.
  cases writes with
  | revert orphan => exact Ledger.get?_remove other
  | append pushed => exact Ledger.get?_push pushed other
  | refresh stored current => exact Ledger.get?_replace other
  | replay stored current time => exact Ledger.get?_replace other

/-- The ledgers that moves can lead to when all of them are made. -/
inductive Moved : Ledger → List Move → Ledger → Prop where
  | start (ledger : Ledger) : Moved ledger [] ledger
  | next {ledger between last : Ledger} {move : Move} {moves : List Move}
      (writes : move.Writes ledger between) (rest : Moved between moves last) :
      Moved ledger (move :: moves) last

namespace Moved

variable {ledger between last : Ledger} {first second : List Move}

/-- Further moves go on from the ledger that the first ones led to. -/
theorem append (earlier : Moved ledger first between) (later : Moved between second last) :
    Moved ledger (first ++ second) last := by
  -- By induction on the earlier moves.
  induction earlier with
  | start => exact later
  | next writes _ ih => exact .next writes (ih later)

/-- Where moves come in two parts, some ledger stands between them. -/
theorem split (moved : Moved ledger (first ++ second) last) :
    ∃ between, Moved ledger first between ∧ Moved between second last := by
  -- The induction is on the first moves, each of which leads to the ledger for the next.
  induction first generalizing ledger with
  | nil => exact ⟨ledger, .start ledger, moved⟩
  | cons move rest ih =>
    cases moved with
    | next writes later =>
      obtain ⟨between, earlier, further⟩ := ih later
      exact ⟨between, .next writes earlier, further⟩

/-- One move leads to the ledger that it writes. -/
theorem writes_of_single {move : Move} (moved : Moved ledger [move] last) :
    move.Writes ledger last := by
  -- Nothing follows the one move, so that its ledger is the last.
  cases moved with
  | next writes rest =>
    cases rest
    exact writes

/-- Moves leave the records under other names as they are. -/
theorem get?_other {name : String} (moved : Moved ledger first last)
    (other : ∀ move ∈ first, name ≠ move.name) : last.get? name = ledger.get? name := by
  induction moved with
  | start => rfl
  | next writes _ ih =>
    -- Neither the first move nor any later one is about the name.
    rw [ih fun move member => other move (List.mem_cons_of_mem _ member)]
    exact writes.get?_other (other _ List.mem_cons_self)

/-- Reverting orphans leaves the records of all local migrations as they are. -/
theorem get?_defined {development : Bool} {migrations : List Migration}
    (moved : Moved ledger (Plan.reverts development (Status.orphans ledger migrations)) last) :
    ∀ migration ∈ migrations, last.get? migration.name = ledger.get? migration.name := by
  intro migration member
  refine moved.get?_other fun move planned same => ?_
  -- Orphans have other names than local migrations.
  obtain ⟨_, orphan, stray, rfl⟩ := Plan.mem_reverts planned
  exact (Status.mem_orphans.mp stray).2 (List.mem_map.mpr ⟨migration, member, same⟩)

end Moved

namespace Follows

variable {ledger between : Ledger} {first : List Move} {made : List CallRecord}

/-- One move is followed by its calls. -/
theorem single {next : Ledger} {move : Move} {failure : Option MigrationError}
    (writes : move.Writes ledger next) (calls : move.Calls ledger next made failure) :
    Follows ledger [move] made (unlessFailed failure next) := by
  cases failure with
  | none =>
    -- Behind a move that succeeds there is nothing more to do.
    have whole := Follows.next writes calls (.done next)
    rwa [List.append_nil] at whole
  | some error => exact .stopped writes calls []

/-- Moves that were all made are followed by further ones. -/
theorem append {second : List Move} {later : List CallRecord} {outcome : Except MigrationError Ledger}
    (earlier : Follows ledger first made (.ok between)) (rest : Follows between second later outcome) :
    Follows ledger (first ++ second) (made ++ later) outcome := by
  -- The induction is on the moves made, all of which have succeeded.
  generalize reached : (.ok between : Except MigrationError Ledger) = ended at earlier
  induction earlier with
  | done => cases reached; exact rest
  | next writes calls _ ih =>
    rw [List.append_assoc]
    exact .next writes calls (ih reached)
  | stopped => cases reached
  | refused => cases reached

/-- Behind a move that fails no further ones are made. -/
theorem stop {error : MigrationError} (failed : Follows ledger first made (.error error))
    (more : List Move) : Follows ledger (first ++ more) made (.error error) := by
  -- The further moves stand behind the one that failed, and are never come to.
  generalize reached : (.error error : Except MigrationError Ledger) = ended at failed
  induction failed with
  | done => cases reached
  | next writes calls _ ih => exact .next writes calls (ih reached)
  | stopped writes calls moves => cases reached; exact .stopped writes calls (moves ++ more)
  | refused ledger current moves => cases reached; exact .refused ledger current (moves ++ more)

/-- Moves that were all made led to the ledger they ended with. -/
theorem moved (follows : Follows ledger first made (.ok between)) :
    Moved ledger first between := by
  -- Only the ledgers matter here, and not the calls.
  generalize reached : (.ok between : Except MigrationError Ledger) = ended at follows
  induction follows with
  | done => cases reached; exact .start _
  | next writes _ _ ih => exact .next writes (ih reached)
  | stopped => cases reached
  | refused => cases reached

/-- Moves in two parts stop within the first part, or make all of it before the second. -/
theorem split {second : List Move} {outcome : Except MigrationError Ledger}
    (follows : Follows ledger (first ++ second) made outcome) :
    (∃ error, outcome = .error error ∧ Follows ledger first made (.error error)) ∨
      ∃ between earlier later, made = earlier ++ later ∧
        Follows ledger first earlier (.ok between) ∧ Follows between second later outcome := by
  -- The induction is on the first part, which is left behind move by move.
  induction first generalizing ledger made with
  | nil => exact .inr ⟨ledger, [], made, rfl, .done ledger, follows⟩
  | cons move rest ih =>
    cases follows with
    | next writes calls further =>
      rcases ih further with ⟨error, rfl, stopped⟩ | ⟨between, earlier, later, rfl, all, rest⟩
      · exact .inl ⟨error, rfl, .next writes calls stopped⟩
      · refine .inr ⟨between, _, later, ?_, .next writes calls all, rest⟩
        rw [List.append_assoc]
    | stopped writes calls => exact .inl ⟨_, rfl, .stopped writes calls rest⟩
    | refused => exact .inl ⟨_, rfl, .refused _ _ rest⟩

/-- A replay alone is followed by its calls. -/
theorem of_replay {stored current : Migration} {outcome : Except MigrationError Ledger}
    (follows : Follows ledger [.replay stored current] made outcome) :
    ∃ time failure, Replays stored current ledger (ledger.replace (current.stamped time)) made
      failure := by
  -- A replay that fails ends the moves with the calls that it has made.
  cases follows with
  | next writes calls rest =>
    -- Nothing is called behind the replay.
    cases rest
    cases writes with
    | replay _ _ time =>
      cases calls with
      | replay replays => exact ⟨time, none, by rwa [List.append_nil]⟩
  | stopped writes calls =>
    cases writes with
    | replay _ _ time =>
      cases calls with
      | replay replays => exact ⟨time, _, replays⟩

end Follows

end SchemaLedger
