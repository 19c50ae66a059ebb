import SchemaLedger.Proofs.Reconcile.Outcome
import SchemaLedger.Proofs.Reconcile.Remainder

/-! A run that fails leaves a store on which a later run does the rest, and nothing again. -/

namespace SchemaLedger

/-- A migration without the time of its application. -/
def Migration.undated (migration : Migration) : Migration := { migration with appliedAt := none }

/-- The records of a ledger without the times of their application. -/
def Ledger.undated (ledger : Ledger) : List Migration := ledger.records.map Migration.undated

/-- A store in which no script fails any more. -/
def Memory.mended (memory : Memory) : Memory := { memory with failing := [] }

/-- What a move makes of records without times. -/
def Move.rewrite (move : Move) (records : List Migration) : List Migration :=
  match move with
  | .revert orphan => records.filter (·.name != orphan.name)
  | .append migration => records ++ [migration.undated]
  | .refresh _ current | .replay _ current => Ledger.replaceIn current.undated records
  | .refuse _ => records

/-- Times do not matter where a record is exchanged for another one. -/
theorem undated_replaceIn (record : Migration) (records : List Migration) :
    (Ledger.replaceIn record records).map Migration.undated =
      Ledger.replaceIn record.undated (records.map Migration.undated) := by
  -- Names decide where the record goes, and dates are no part of them.
  simp only [Ledger.replaceIn, List.map_map]
  refine List.map_congr_left fun old _ => ?_
  by_cases same : old.name = record.name <;> simp [Migration.undated, same]

/-- What a move writes is known up to the time of writing. -/
theorem Move.Writes.undated {ledger next : Ledger} {move : Move}
    (writes : move.Writes ledger next) : next.undated = move.rewrite ledger.undated := by
  -- Each way to write does to the undated ledger what the move says.
  cases writes with
  | revert orphan =>
    simp only [Ledger.undated, Ledger.remove, Move.rewrite, List.filter_map]
    rfl
  | append pushed =>
    rw [Ledger.undated, (Ledger.push_ok pushed).2, List.map_append]
    rfl
  | refresh | replay => exact undated_replaceIn _ _

/-- What moves lead to is known up to the times of writing. -/
theorem Moved.undated {ledger last : Ledger} {moves : List Move} (moved : Moved ledger moves last) :
    last.undated = moves.foldl (fun records move => move.rewrite records) ledger.undated := by
  -- The induction is on the moves, each of which rewrites the records that it finds.
  induction moved with
  | start => rfl
  | next writes _ ih => rw [ih, writes.undated, List.foldl_cons]

namespace Plan

variable {failing : List String} {done rest : List Move}

/-- A plan is what can be made of it, and the rest with what is in the way at its beginning. -/
theorem feasible_split (failing : List String) (moves : List Move) :
    ∃ rest, moves = feasible failing moves ++ rest ∧
      (∀ move ∈ feasible failing moves, move.hindrance? failing = none) ∧
      hindrance? failing moves = hindrance? failing rest := by
  -- The beginning that is feasible is cut off where the first move is hindered.
  have free : ∀ move ∈ feasible failing moves, move.hindrance? failing = none := by
    intro move member
    simpa using List.mem_takeWhile_imp member
  have whole : moves = feasible failing moves ++
      moves.dropWhile fun move => (move.hindrance? failing).isNone :=
    List.takeWhile_append_dropWhile.symm
  refine ⟨_, whole, free, ?_⟩
  -- Only the list on the left is cut, as the right side is about its rest already.
  conv_lhs => rw [whole]
  exact hindrance?_append free

/-- Moves before the last one of a plan run their scripts, whichever scripts fail. -/
theorem runs_before {development : Bool} {loaded : Ledger} {migrations : List Migration}
    {move : Move} {later : List Move}
    (planned : moves development loaded migrations = done ++ move :: later)
    (failing : List String) :
    done.flatMap (Move.runs failing) = done.flatMap Move.scripts := by
  simp only [List.flatMap]
  congr 1
  refine List.map_congr_left fun other member => ?_
  have loud : other.scripts ≠ [] := by
    intro silent
    -- A replay, a refresh or a refusal would be the last move of the plan.
    obtain ⟨front, back, rfl⟩ := List.append_of_mem member
    rw [List.append_assoc, List.cons_append] at planned
    have nothing := (last_of_silent planned silent).1
    simp at nothing
  -- Moves that are left run the same scripts whatever fails.
  cases other with
  | revert | append => rfl
  | refresh | replay | refuse => exact absurd rfl loud

end Plan

namespace Reconciler

variable {migrations sorted : List Migration} {memory : Memory} {development : Bool}
  {clock : Nat → Instant} {error : MigrationError}

/-- A run that fails has made the first moves of its plan, and would make them without failures. -/
theorem halted_inMemory (ordered : canonicalOrder migrations = .ok sorted)
    (closed : memory.inTransaction = false)
    (failed : (inMemory clock development).result migrations memory = .error error) :
    ∃ done rest between noted,
      Plan.moves development memory.recorded sorted = done ++ rest ∧
      (∀ move ∈ done, move.hindrance? [] = none) ∧ Moved memory.recorded done between ∧
      (inMemory clock development).left migrations memory =
        { memory with
          ledger := some between
          executed := memory.executed ++ done.flatMap (Move.runs [])
          failed := noted
          writes := memory.writes + done.length
          bootstrapped := memory.bootstrapped || memory.ledger.isNone } := by
  obtain ⟨between, noted, moved, left, ended⟩ :=
    run_inMemory clock development ordered closed
  rw [failed] at ended
  -- The plan is cut where the first move is hindered, and all before it have been made.
  obtain ⟨rest, plan, free, cut⟩ := Plan.feasible_split memory.failing
    (Plan.moves development memory.recorded sorted)
  rw [failed_of_error ended] at cut
  generalize Plan.feasible memory.failing (Plan.moves development memory.recorded sorted) = done
    at moved left plan free
  -- There is a move that could not be made, so none before it can have been a replay.
  have ran : done.flatMap (Move.runs memory.failing) = done.flatMap (Move.runs []) := by
    cases rest with
    | nil => cases cut
    | cons move others => rw [Plan.runs_before plan, Plan.runs_before plan]
  refine ⟨done, rest, between, noted, plan, ?_, moved, ?_⟩
  · exact fun move member => Move.free_of_free (free move member)
  · rw [left, Memory.behind, ran]

/-- Where no script fails a run makes what is free of its plan, and what it can of the rest. -/
theorem mended_inMemory {done rest : List Move} (clock : Nat → Instant)
    (ordered : canonicalOrder migrations = .ok sorted) (closed : memory.inTransaction = false)
    (planned : Plan.moves development memory.mended.recorded sorted = done ++ rest)
    (free : ∀ move ∈ done, move.hindrance? [] = none) :
    ∃ current, Moved memory.mended.recorded (done ++ Plan.feasible [] rest) current ∧
      ((inMemory clock development).left migrations memory.mended).ledger = some current ∧
      ((inMemory clock development).left migrations memory.mended).executed =
        memory.executed ++
          (done.flatMap (Move.runs []) ++ (Plan.feasible [] rest).flatMap (Move.runs [])) ∧
      failure? ((inMemory clock development).result migrations memory.mended) =
        Plan.hindrance? [] rest := by
  -- No script fails in the mended store, so that only the moves of `rest` can be hindered.
  obtain ⟨current, _, moved, left, ended⟩ :=
    run_inMemory clock development ordered (show memory.mended.inTransaction = false from closed)
  have working : memory.mended.failing = [] := rfl
  rw [working, planned, Plan.feasible_append free] at moved left
  rw [working, planned, Plan.hindrance?_append free] at ended
  refine ⟨current, moved, by rw [left]; rfl, ?_, by rw [ended, failure?_unlessFailed]⟩
  rw [left, ← List.flatMap_append]
  rfl

/--
A run that has failed can be resumed once no script fails any more.

The two runs together end like a single one on the original store without failing scripts.
They execute the same scripts in the same order, and leave the same ledger up to times.
-/
theorem resumed_as_single (closed : memory.inTransaction = false)
    (failed : (inMemory clock development).result migrations memory = .error error)
    (later single : Nat → Instant) :
    let halted := ((inMemory clock development).left migrations memory).mended
    let resumed := (inMemory later development).left migrations halted
    let whole := (inMemory single development).left migrations memory.mended
    failure? ((inMemory later development).result migrations halted) =
        failure? ((inMemory single development).result migrations memory.mended) ∧
      (∃ first rest, halted.executed = memory.executed ++ first ∧
        resumed.executed = halted.executed ++ rest ∧
        whole.executed = memory.executed ++ (first ++ rest)) ∧
      resumed.executed = whole.executed ∧
      resumed.ledger.map Ledger.undated = whole.ledger.map Ledger.undated := by
  intro halted resumed whole
  cases ordered : canonicalOrder migrations with
  | error refusal =>
    -- Without an order none of the three runs does anything.
    have same : halted = memory.mended :=
      congrArg Memory.mended (unordered_run (inMemory clock development) memory ordered).2.2
    obtain ⟨endedLater, _, nothing⟩ := unordered_run (inMemory later development) halted ordered
    obtain ⟨endedSingle, _, neither⟩ :=
      unordered_run (inMemory single development) memory.mended ordered
    have leftLater : resumed = memory.mended := nothing.trans same
    have leftSingle : whole = memory.mended := neither
    rw [endedLater, endedSingle, leftLater, leftSingle, same]
    exact ⟨rfl, ⟨[], [], by simp [Memory.mended]⟩, rfl, rfl⟩
  | ok sorted =>
    obtain ⟨done, rest, between, noted, planned, free, moved, left⟩ :=
      halted_inMemory ordered closed failed
    have shut : ((inMemory clock development).left migrations memory).inTransaction = false := by
      rw [left]
      exact closed
    have recorded : halted.recorded = between := by
      rw [show halted = _ from congrArg Memory.mended left]
      rfl
    have executed : halted.executed = memory.executed ++ done.flatMap (Move.runs []) := by
      rw [show halted = _ from congrArg Memory.mended left]
      rfl
    -- The later run plans what is left, from the ledger that the first one has written.
    have remaining : Plan.moves development halted.recorded sorted = [] ++ rest := by
      rw [recorded]
      exact moved.remainder planned (canonicalOrder_ok ordered).2
    obtain ⟨current, further, writtenLater, ranLater, endedLater⟩ :=
      mended_inMemory later ordered shut remaining (List.forall_mem_nil _)
    rw [show ((inMemory clock development).left migrations memory).mended.recorded = between from
      recorded] at further
    -- The single run makes the moves of both, one after the other.
    obtain ⟨final, straight, writtenSingle, ranSingle, endedSingle⟩ :=
      mended_inMemory single ordered closed planned free
    -- The ledgers differ in times at most, since both come about by the same moves.
    have ledgers : current.undated = final.undated :=
      (moved.append further).undated.trans straight.undated.symm
    have ran : resumed.executed =
        halted.executed ++ (Plan.feasible [] rest).flatMap (Move.runs []) := ranLater
    refine ⟨endedLater.trans endedSingle.symm, ⟨_, _, executed, ran, ranSingle⟩, ?_, ?_⟩
    · rw [ran, executed, List.append_assoc]
      exact ranSingle.symm
    · rw [show resumed.ledger = _ from writtenLater, show whole.ledger = _ from writtenSingle]
      exact congrArg some ledgers

/-- A replay that fails at the end of a run is left to the next run, which does not fall back. -/
theorem resumed_as_single_sample :
    let broken := { Memory.withLedger Sample.drifted with
      failing := ["drop people", "create users"] }
    let first := inMemory (fun _ => Sample.epoch) true
    let halted := (first.left [Sample.users, Sample.accounts] broken).mended
    broken.inTransaction = false ∧
    first.result [Sample.users, Sample.accounts] broken =
      .error (.scriptFailed "1_users" "create users" (.store "script failed: create users")) ∧
    (first.left [Sample.users, Sample.accounts] halted).executed =
      (first.left [Sample.users, Sample.accounts] broken.mended).executed := by
  intro broken first halted
  have closed : broken.inTransaction = false := rfl
  -- The current down script steps in for the stored one, but then the up script fails too.
  have failed : first.result [Sample.users, Sample.accounts] broken =
      .error (.scriptFailed "1_users" "create users" (.store "script failed: create users")) := by
    obtain ⟨_, _, _, _, ended⟩ := run_inMemory (fun _ => Sample.epoch) true
      Sample.accounts_before_users closed
    rw [show first.result _ broken = _ from ended]
    decide +kernel
  exact ⟨closed, failed, (resumed_as_single closed failed _ _).2.2.1⟩

end Reconciler

end SchemaLedger
