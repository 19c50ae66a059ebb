import SchemaLedger.Proofs.Event
import SchemaLedger.Proofs.Reconcile.Effects
import SchemaLedger.Store.Memory

/-! What an activity tells, and the activities that tell of nothing but what they do themselves. -/

namespace SchemaLedger

/-- A store that never tells how far a run has come. -/
def Store.Discreet {σ : Type} (store : Store σ) : Prop :=
  ∀ call, ∀ event ∈ store.notes call, event.isAside = true

/-- A memory store only tells which scripts it is asked to execute. -/
theorem Memory.store_discreet : Memory.store.Discreet := by
  -- Only running a script leaves a note, and that is a line of the store's own.
  intro call event member
  cases call with
  | execute script =>
    rw [List.mem_singleton.mp member]
    rfl
  | load | swap | transact => cases member

/-- A store that takes transactions as statements tells nothing at all. -/
theorem Store.ofStatements_discreet {σ : Type} (load : σ → Except MigrationError Ledger × σ)
    (swap : Ledger → Ledger → σ → Except MigrationError Unit × σ)
    (execute : String → σ → Except MigrationError Unit × σ) :
    (Store.ofStatements load swap execute).Discreet :=
  -- A store made of three statements adds no lines.
  fun _ => List.forall_mem_nil _

namespace Run

variable {σ α β : Type} {store : Store σ}

/--
An activity tells events behind those told before, and they fit the result.

The claim holds from every session, so nothing is assumed about what the store answers.
-/
def Tells (action : Run σ α) (claim : List Event → Except MigrationError α → Prop) : Prop :=
  ∀ session, ∃ told, (action session).2.events = session.events ++ told ∧
    claim told (action session).1

/-- A value is returned without telling anything. -/
theorem tells_pure {value : α} {claim : List Event → Except MigrationError α → Prop}
    (holds : claim [] (.ok value)) : Tells (pure value : Run σ α) claim :=
  -- A value alone tells nothing.
  fun _ => ⟨[], (List.append_nil _).symm, holds⟩

/-- An event that is reported is told. -/
theorem tells_report (event : Event) :
    Tells (report event : Run σ Unit) fun told result => told = [event] ∧ result = .ok () :=
  fun _ => ⟨[event], rfl, rfl, rfl⟩

/-- What holds of the events of an activity may be weakened. -/
theorem Tells.mono {action : Run σ α} {claim weaker : List Event → Except MigrationError α → Prop}
    (tells : Tells action claim) (implied : ∀ told result, claim told result → weaker told result) :
    Tells action weaker := by
  -- What is told stays the same, and only the claim about it is weakened.
  intro session
  obtain ⟨told, events, holds⟩ := tells session
  exact ⟨told, events, implied told _ holds⟩

/-- What an activity tells comes with what is known of its calls. -/
theorem Tells.withCalls {action : Run σ α} {claim : List Event → Except MigrationError α → Prop}
    {other : List CallRecord → Except MigrationError α → Prop} (tells : Tells action claim)
    (makes : Makes store action other) :
    Tells action fun told result => claim told result ∧ ∃ made, other made result := by
  -- Both claims are about the same course, so that they hold of one result.
  intro session
  obtain ⟨told, events, holds⟩ := tells session
  obtain ⟨made, _, _, fits⟩ := makes session
  exact ⟨told, events, holds, made, fits⟩

/-- An activity that goes on after another tells its events behind those of the first. -/
theorem Tells.bind {action : Run σ α} {next : α → Run σ β}
    {claim : List Event → Except MigrationError α → Prop}
    {combined : List Event → Except MigrationError β → Prop} (first : Tells action claim)
    (stopped : ∀ told error, claim told (.error error) → combined told (.error error))
    (goesOn : ∀ told value, claim told (.ok value) →
      Tells (next value) fun later result => combined (told ++ later) result) :
    Tells (action >>= next) combined := by
  intro session
  obtain ⟨told, events, holds⟩ := first session
  -- What is done next depends on the result of the first activity only.
  have unfolded : (action >>= next) session =
      ExceptT.bindCont next (action session).1 (action session).2 := rfl
  rw [unfolded]
  cases outcome : (action session).1 with
  | error error =>
    -- After an error nothing more is told.
    rw [outcome] at holds
    exact ⟨told, events, stopped told error holds⟩
  | ok value =>
    rw [outcome] at holds
    obtain ⟨later, further, both⟩ := goesOn told value holds (action session).2
    refine ⟨told ++ later, ?_, both⟩
    rw [← List.append_assoc, ← events]
    exact further

/-- What an activity has told where it succeeds, and the value it returns then. -/
def Concludes (action : Run σ α) (claim : List Event → α → Prop) : Prop :=
  Tells action fun told result => ∀ value, result = .ok value → claim told value

/-- An activity can only conclude behind another one that has succeeded. -/
theorem Tells.thenConcludes {action : Run σ α} {next : α → Run σ β}
    {claim : List Event → Except MigrationError α → Prop} {combined : List Event → β → Prop}
    (first : Tells action claim)
    (goesOn : ∀ told value, claim told (.ok value) →
      Concludes (next value) fun later final => combined (told ++ later) final) :
    Concludes (action >>= next) combined :=
  -- Where the first action fails nothing is concluded, so that this case is free.
  first.bind (fun _ _ _ _ => nofun) goesOn

/-- A value that is returned without telling anything is a conclusion. -/
theorem concludes_pure {value : α} {claim : List Event → α → Prop} (holds : claim [] value) :
    Concludes (pure value : Run σ α) claim :=
  -- The only result is the value itself.
  tells_pure fun _ same => by cases same; exact holds

/-- What an activity concludes with may be weakened. -/
theorem Concludes.mono {action : Run σ α} {claim weaker : List Event → α → Prop}
    (concludes : Concludes action claim)
    (implied : ∀ told value, claim told value → weaker told value) : Concludes action weaker :=
  -- A conclusion is a claim about results, under which the weakening is made.
  Tells.mono concludes fun told _ holds value ended => implied told value (holds value ended)

/-- An activity that tells nothing but asides, however it ends. -/
def Quiet (action : Run σ α) : Prop :=
  Tells action fun told _ => ∀ event ∈ told, event.isAside = true

/-- A value is returned quietly. -/
theorem quiet_pure (value : α) : Quiet (pure value : Run σ α) := tells_pure (List.forall_mem_nil _)

/-- An error is raised quietly. -/
theorem quiet_throw (error : MigrationError) : Quiet (throw error : Run σ α) :=
  -- An error is told by whoever catches it, not by raising it.
  fun _ => ⟨[], (List.append_nil _).symm, List.forall_mem_nil _⟩

/-- The clock is read quietly. -/
theorem quiet_stamp (clock : Nat → Instant) : Quiet (stamp clock : Run σ Instant) :=
  -- The clock is read in silence.
  fun _ => ⟨[], (List.append_nil _).symm, List.forall_mem_nil _⟩

/-- An aside is reported quietly. -/
theorem quiet_report {event : Event} (aside : event.isAside = true) :
    Quiet (report event : Run σ Unit) := by
  -- The one event that is told is an aside.
  refine (tells_report event).mono fun told result holds => ?_
  rw [holds.1]
  exact List.forall_mem_singleton.mpr aside

/-- A discreet store is called quietly. -/
theorem quiet_invoke (discreet : store.Discreet) (call : Call)
    (action : σ → Except MigrationError α × σ) : Quiet (invoke store call action) :=
  -- A call tells what the store notes of it, and a discreet store notes asides only.
  fun _ => ⟨store.notes call, rfl, discreet call⟩

/-- Quiet activities one after the other are quiet. -/
theorem Quiet.bind {action : Run σ α} {next : α → Run σ β} (first : Quiet action)
    (second : ∀ value, Quiet (next value)) : Quiet (action >>= next) := by
  -- What is told are the events of both actions, one behind the other.
  refine Tells.bind first (fun _ _ asides => asides) fun told value asides => ?_
  refine (second value).mono fun later result others event member => ?_
  rcases List.mem_append.mp member with earlier | following
  · exact asides event earlier
  · exact others event following

/-- An attempt is as quiet as the activity itself. -/
theorem Quiet.attempt {action : Run σ α} (quiet : Quiet action) : Quiet (attempt action) := quiet

end Run

namespace Reconciler

open Run (Quiet quiet_pure quiet_throw quiet_stamp quiet_report quiet_invoke)

variable {σ : Type} {r : Reconciler σ}

/-- A script is run quietly, whether or not it fails. -/
theorem quiet_runScript (discreet : r.store.Discreet) (name script : String) :
    Quiet (r.runScript name script) := by
  -- The call is quiet, and if it fails, so is the report of the failure.
  refine (quiet_invoke discreet _ _).attempt.bind fun attempted => ?_
  cases attempted with
  | ok => exact quiet_pure _
  | error error => exact (quiet_report rfl).bind fun _ => quiet_throw _

/-- A ledger is written quietly. -/
theorem quiet_persist (discreet : r.store.Discreet) (ledger next : Ledger) :
    Quiet (r.persist ledger next) :=
  -- Writing the ledger is one call.
  (quiet_invoke discreet _ _).bind fun _ => quiet_pure _

/-- Orphans are settled quietly in either mode. -/
theorem quiet_settleOrphans (discreet : r.store.Discreet) (orphans : List Migration)
    (ledger : Ledger) (report : Report) : Quiet (r.settleOrphans ledger report orphans) := by
  -- Neither what is reverted nor what is left alone is told of like a local migration.
  induction orphans generalizing ledger report with
  | nil => exact quiet_pure _
  | cons orphan rest ih =>
    unfold Reconciler.settleOrphans
    refine (quiet_report rfl).bind fun _ => ?_
    split
    · refine (quiet_report rfl).bind fun _ => (quiet_runScript discreet _ _).bind fun _ => ?_
      exact (quiet_persist discreet _ _).bind fun _ => ih _ _
    · exact ih _ _

/-- A migration is reverted for its replay quietly, by whichever script. -/
theorem quiet_revertForReplay (discreet : r.store.Discreet) (stored current : Migration) :
    Quiet (r.revertForReplay stored current) := by
  -- The stored down script comes first; only its failure leads to the current one.
  refine (quiet_report rfl).bind fun _ => (quiet_invoke discreet _ _).bind fun _ => ?_
  refine (quiet_invoke discreet _ _).attempt.bind fun attempted => ?_
  cases attempted with
  | ok => exact quiet_invoke discreet _ _
  | error error =>
    refine (quiet_report rfl).bind fun _ => (quiet_invoke discreet _ _).bind fun _ => ?_
    exact (quiet_invoke discreet _ _).bind fun _ => quiet_runScript discreet _ _

/-- A migration is replayed quietly, whether the replay is committed or rolled back. -/
theorem quiet_replay (discreet : r.store.Discreet) (ledger : Ledger) (stored current : Migration) :
    Quiet (r.replay ledger stored current) := by
  -- All that is told within the transaction is aside.
  have inside : Quiet (r.replayInTransaction ledger stored current) := by
    refine (quiet_revertForReplay discreet stored current).bind fun _ => ?_
    refine (quiet_report rfl).bind fun _ => (quiet_runScript discreet _ _).bind fun _ => ?_
    exact (quiet_stamp _).bind fun _ => quiet_persist discreet _ _
  refine (quiet_report rfl).bind fun _ => (quiet_invoke discreet _ _).bind fun _ => ?_
  refine inside.attempt.bind fun attempted => ?_
  cases attempted with
  | ok next =>
    refine (quiet_invoke discreet _ _).bind fun _ => ?_
    exact (quiet_report rfl).bind fun _ => quiet_pure _
  | error error =>
    -- A rollback that fails is told of as well.
    refine (quiet_invoke discreet _ _).attempt.bind fun rollback => ?_
    cases rollback with
    | ok => exact quiet_throw _
    | error refused => exact (quiet_report rfl).bind fun _ => quiet_throw _

/-- The last local migration is compared with its record quietly. -/
theorem quiet_settleLast (discreet : r.store.Discreet) (ledger : Ledger) (report : Report)
    (stored current : Migration) : Quiet (r.settleLast ledger report stored current) := by
  -- The branches are those of the source: changed, redescribed or neither.
  unfold Reconciler.settleLast
  split
  · split
    · exact (quiet_replay discreet ledger stored current).bind fun _ => quiet_pure _
    · exact quiet_throw _
  · split
    · refine (quiet_report rfl).bind fun _ => ?_
      exact (quiet_persist discreet _ _).bind fun _ => quiet_pure _
    · exact quiet_pure _

/-- Applying a migration is announced first, and is quiet from then on. -/
theorem tells_apply (discreet : r.store.Discreet) (ledger : Ledger) (report : Report)
    (migration : Migration) :
    Run.Tells (r.apply ledger report migration) fun told _ =>
      ∃ asides, told = .migrationRunning migration.name migration.description :: asides ∧
        ∀ event ∈ asides, event.isAside = true := by
  refine (Run.tells_report _).bind nofun fun announced _ holds => ?_
  rw [holds.1]
  -- What follows the announcement is quiet, whether or not it succeeds.
  refine Run.Tells.mono (?_ : Quiet _) fun asides _ quiet => ⟨asides, rfl, quiet⟩
  refine (quiet_runScript discreet _ _).bind fun _ => (quiet_stamp _).bind fun time => ?_
  have added : Quiet (liftM (ledger.push (migration.stamped time)) : Run σ Ledger) := by
    cases ledger.push (migration.stamped time) with
    | error error => exact quiet_throw error
    | ok next => exact quiet_pure next
  refine added.bind fun _ => (quiet_persist discreet _ _).bind fun _ => ?_
  exact (quiet_report rfl).bind fun _ => quiet_pure _

end Reconciler

end SchemaLedger
