import SchemaLedger.Proofs.Store.Memory

/-! A memory store keeps no more than the lengths of its log, and still restores full copies of it. -/

namespace SchemaLedger

/-- All that a rollback has to restore. -/
structure Contents where
  executed : List String := []
  ledger : Option Ledger := none
  deriving DecidableEq

/-- An open transaction: a stack of savepoints upon its beginning, each with a full copy. -/
structure OpenTransaction where
  /-- The savepoints that are still active, newest first. -/
  savepoints : List (String × Contents) := []
  start : Contents
  deriving DecidableEq

/-- A store that takes a full copy of its contents wherever it may have to go back to. -/
structure NestedStore where
  contents : Contents := {}
  transaction : Option OpenTransaction := none
  /-- Scripts that fail whenever they are executed. -/
  failing : List String := []
  deriving DecidableEq

/-- What may be done to a store from outside. -/
inductive StoreAction where
  | call (call : Call)
  /-- Makes one more script fail from now on. -/
  | failOn (script : String)
  deriving DecidableEq

/-- What is seen of an action from outside: whether it succeeded, and what it left behind. -/
structure Sight where
  succeeded : Bool
  executed : List String
  ledger : Option Ledger
  inTransaction : Bool
  deriving DecidableEq

namespace NestedStore

/-- The copy at the most recent savepoint of a name, and the savepoints that are older. -/
def locate (name : String) :
    List (String × Contents) → Option (Contents × List (String × Contents))
  | [] => none
  | (other, copy) :: older => if other = name then some (copy, older) else locate name older

/-- The store behind a call about a transaction, unless the call has to be refused. -/
def transact (store : NestedStore) : Transaction → Option NestedStore
  | .begin =>
    match store.transaction with
    | none => some { store with transaction := some { start := store.contents } }
    | some _ => none
  | .commit => store.transaction.map fun _ => { store with transaction := none }
  | .rollback => store.transaction.map fun opened =>
    { store with contents := opened.start, transaction := none }
  | .savepoint name => store.transaction.map fun opened =>
    let savepoints := (name, store.contents) :: opened.savepoints
    { store with transaction := some { opened with savepoints } }
  | .rollbackTo name => store.transaction.bind fun opened =>
    (locate name opened.savepoints).map fun (copy, older) =>
      -- The savepoint that was gone back to is kept, and the later ones are dropped.
      { store with
        contents := copy
        transaction := some { opened with savepoints := (name, copy) :: older } }
  | .release name => store.transaction.bind fun opened =>
    (locate name opened.savepoints).map fun (_, older) =>
      { store with transaction := some { opened with savepoints := older } }

/-- The store behind a call, unless the call has to be refused. -/
def perform (store : NestedStore) : Call → Option NestedStore
  | .load => some { store with
    contents := { store.contents with ledger := some (store.contents.ledger.getD .empty) } }
  | .swap expected next =>
    if store.contents.ledger = some expected then
      some { store with contents := { store.contents with ledger := some next } }
    else none
  | .execute script =>
    if script ∈ store.failing then none
    else some { store with
      contents := { store.contents with executed := store.contents.executed ++ [script] } }
  | .transact step => store.transact step

/-- A refused call leaves the store as it is. -/
def act (store : NestedStore) : StoreAction → Bool × NestedStore
  | .call call => ((store.perform call).isSome, (store.perform call).getD store)
  | .failOn script => (true, { store with failing := script :: store.failing })

/-- What is seen of actions that are taken one after the other. -/
def sights (store : NestedStore) : List StoreAction → List Sight
  | [] => []
  | action :: later =>
    let (succeeded, after) := store.act action
    ⟨succeeded, after.contents.executed, after.contents.ledger, after.transaction.isSome⟩ ::
      after.sights later

end NestedStore

namespace Memory

/-- A new memory store, whose ledger may already be there. -/
def fresh : Option Ledger → Memory
  | none => {}
  | some ledger => withLedger ledger

/-- What a memory store does when it is acted upon. -/
def act (memory : Memory) : StoreAction → Bool × Memory
  | .call call =>
    ((store.answer call memory).1.isNone, (store.answer call memory).2)
  | .failOn script => (true, memory.failOn script)

/-- What is seen of actions that are taken one after the other. -/
def sights (memory : Memory) : List StoreAction → List Sight
  | [] => []
  | action :: later =>
    let (succeeded, after) := memory.act action
    ⟨succeeded, after.executed, after.ledger, after.inTransaction⟩ :: after.sights later

end Memory

/-- A copy cut down to a snapshot, which knows its log by the length only. -/
def Contents.snapshot (copy : Contents) (savepoint : Option String) : Snapshot :=
  ⟨savepoint, copy.executed.length, copy.ledger⟩

namespace OpenTransaction

/-- The snapshots that stand for the copies of a transaction. -/
def snapshots (opened : OpenTransaction) : List Snapshot :=
  opened.savepoints.map (fun savepoint => savepoint.2.snapshot (some savepoint.1)) ++
    [opened.start.snapshot none]

/-- The copies of a transaction, newest first. -/
def copies (opened : OpenTransaction) : List Contents :=
  opened.savepoints.map (·.2) ++ [opened.start]

/-- No log was shortened in between: those of older copies begin the newer ones. -/
def Grown (opened : OpenTransaction) (contents : Contents) : Prop :=
  (contents :: opened.copies).Pairwise fun newer older => older.executed <+: newer.executed

end OpenTransaction

/-- A memory store represents a nested one if its snapshots stand for copies of a growing log. -/
structure Represents (memory : Memory) (nested : NestedStore) : Prop where
  executed : memory.executed = nested.contents.executed
  ledger : memory.ledger = nested.contents.ledger
  failing : memory.failing = nested.failing
  snapshots : memory.snapshots = nested.transaction.elim [] OpenTransaction.snapshots
  grown : ∀ opened, nested.transaction = some opened → opened.Grown nested.contents

namespace OpenTransaction

variable {opened : OpenTransaction} {contents copy : Contents} {name : String}

/-- Cutting a log down to the length of an older copy gives the log of that copy. -/
theorem Grown.restored (grown : opened.Grown contents) (older : copy ∈ opened.copies) :
    contents.executed.take copy.executed.length = copy.executed :=
  (List.prefix_iff_eq_take.mp ((List.pairwise_cons.mp grown).1 copy older)).symm

/-- What was true of a log remains true of a longer one. -/
theorem Grown.extend (grown : opened.Grown contents) {longer : Contents}
    (longerLog : contents.executed <+: longer.executed) : opened.Grown longer := by
  -- What the newest copy begins is begun by a longer log as well.
  obtain ⟨newest, rest⟩ := List.pairwise_cons.mp grown
  exact List.pairwise_cons.mpr ⟨fun older member => (newest older member).trans longerLog, rest⟩

/-- A transaction begins with a log that has not grown yet. -/
theorem grown_start (contents : Contents) : Grown { start := contents } contents := by
  -- The only copy is the contents themselves.
  simp [Grown, copies]

/-- A savepoint is another copy of the log as it is. -/
theorem Grown.savepoint (grown : opened.Grown contents) (name : String) :
    Grown { opened with savepoints := (name, contents) :: opened.savepoints } contents := by
  -- The new copy is the newest, and it equals the contents.
  refine List.pairwise_cons.mpr ⟨fun older member => ?_, grown⟩
  rcases List.mem_cons.mp member with rfl | inside
  · exact List.prefix_rfl
  · exact (List.pairwise_cons.mp grown).1 older inside

variable {newer older : List (String × Contents)}

/-- Forgetting savepoints forgets their copies, and leaves the log as it is. -/
theorem Grown.released (grown : opened.Grown contents)
    (split : opened.savepoints = newer ++ (name, copy) :: older) :
    Grown { opened with savepoints := older } contents := by
  -- Dropping copies leaves those that remain in their order.
  refine List.Pairwise.sublist ?_ grown
  simp [copies, split]

/-- Going back to a savepoint also takes the log back to what it was. -/
theorem Grown.rolledBack (grown : opened.Grown contents)
    (split : opened.savepoints = newer ++ (name, copy) :: older) :
    Grown { opened with savepoints := (name, copy) :: older } copy := by
  -- The copy and the older ones are among those that were there before.
  have beneath : Grown { opened with savepoints := older } copy := by
    refine List.Pairwise.sublist ?_ grown
    simp [copies, split]
  exact beneath.savepoint name

end OpenTransaction

namespace NestedStore

variable {name : String} {copy : Contents} {savepoints older : List (String × Contents)}

/-- The savepoint that is located has the name, and the newer ones have other names. -/
theorem locate_eq_some (located : locate name savepoints = some (copy, older)) :
    ∃ newer, savepoints = newer ++ (name, copy) :: older ∧ ∀ other ∈ newer, other.1 ≠ name := by
  -- The search goes down from the newest savepoint, and so does the induction.
  induction savepoints with
  | nil => cases located
  | cons savepoint rest ih =>
    obtain ⟨other, candidate⟩ := savepoint
    by_cases same : other = name
    · simp only [locate, if_pos same, Option.some.injEq, Prod.mk.injEq] at located
      obtain ⟨rfl, rfl⟩ := located
      -- The newest savepoint has the name, and nothing is newer.
      exact ⟨[], by rw [same]; rfl, by simp⟩
    · simp only [locate, if_neg same] at located
      obtain ⟨newer, split, others⟩ := ih located
      refine ⟨(other, candidate) :: newer, by rw [split]; rfl, ?_⟩
      simpa [same] using others

end NestedStore

namespace OpenTransaction

/-- The snapshots from a savepoint on down are those of the savepoint that is located. -/
theorem snapshots_from (opened : OpenTransaction) (name : String) :
    opened.snapshots.dropWhile (·.savepoint != some name) =
      match NestedStore.locate name opened.savepoints with
      | some (copy, older) =>
        copy.snapshot (some name) :: snapshots { opened with savepoints := older }
      | none => [] := by
  obtain ⟨savepoints, start⟩ := opened
  -- The beginning of the transaction has no name, so that the search cannot end there.
  induction savepoints with
  | nil => simp [snapshots, NestedStore.locate, Contents.snapshot]
  | cons savepoint rest ih =>
    obtain ⟨other, copy⟩ := savepoint
    by_cases same : other = name
    · simp [snapshots, NestedStore.locate, Contents.snapshot, same]
    · simp only [NestedStore.locate, if_neg same]
      rw [← ih]
      simp [snapshots, Contents.snapshot, same]

end OpenTransaction

/-- A memory store answers a call as the nested store that it represents. -/
def Conforms (memory : Memory) (nested : NestedStore) (call : Call) : Prop :=
  match nested.perform call with
  | some next =>
    ∃ after, Memory.store.answer call memory = (none, after) ∧ Represents after next
  | none =>
    ∃ error after, Memory.store.answer call memory = (some error, after) ∧ Represents after nested

namespace Represents

variable {memory : Memory} {nested : NestedStore} {opened : OpenTransaction}

/-- Both stores have an open transaction, or neither has. -/
theorem inTransaction (represents : Represents memory nested) :
    memory.inTransaction = nested.transaction.isSome := by
  -- A transaction always has the copy that it started with.
  rw [Memory.inTransaction, represents.snapshots]
  cases nested.transaction <;> simp [OpenTransaction.snapshots]

/-- A snapshot of the memory is one of the contents that it represents. -/
theorem snapshot (represents : Represents memory nested) (savepoint : Option String) :
    memory.snapshot savepoint = nested.contents.snapshot savepoint := by
  -- What a snapshot keeps are the log and the ledger, in which both agree.
  simp only [Memory.snapshot, Contents.snapshot, represents.executed, represents.ledger]

/-- Outside a transaction only the contents count. -/
theorem closed (represents : Represents memory nested) :
    Represents { memory with snapshots := [] } { nested with transaction := none } where
  -- Without a transaction there are no copies that could have grown.
  executed := represents.executed
  ledger := represents.ledger
  failing := represents.failing
  snapshots := rfl
  grown := nofun

/-- A transaction may be exchanged for one with copies of the same growing log. -/
theorem exchanged (represents : Represents memory nested)
    (grown : opened.Grown nested.contents) :
    Represents { memory with snapshots := opened.snapshots }
      { nested with transaction := some opened } where
  -- Only the copies change, and how they have grown is given.
  executed := represents.executed
  ledger := represents.ledger
  failing := represents.failing
  snapshots := rfl
  grown := by
    rintro _ ⟨⟩
    exact grown

/-- Cutting the log and restoring the ledger brings back the copy that a snapshot stands for. -/
theorem restored (represents : Represents memory nested)
    (inside : nested.transaction = some opened) {copy : Contents} (among : copy ∈ opened.copies)
    (savepoint : Option String) :
    Represents { memory.restore (copy.snapshot savepoint) with snapshots := [] }
      { nested with contents := copy, transaction := none } where
  executed := by
    -- The log is cut to the length of the copy, which is where the copy ends in it.
    have cut := (represents.grown opened inside).restored among
    simpa [Memory.restore, Contents.snapshot, represents.executed] using cut
  ledger := rfl
  failing := represents.failing
  snapshots := rfl
  grown := nofun

/-- Scripts that fail from now on fail in both stores. -/
theorem failOn (represents : Represents memory nested) (script : String) :
    Represents (memory.failOn script) { nested with failing := script :: nested.failing } :=
  -- Whether a script fails is no part of what a transaction keeps.
  { represents with failing := by simp only [Memory.failOn, represents.failing] }

/-- Loading creates the same ledger in both stores, if there is none. -/
theorem load (represents : Represents memory nested) : Conforms memory nested .load := by
  refine ⟨_, Memory.answer_load memory, ?_⟩
  -- The log is as long as before, and still begins with the logs of all copies.
  exact { represents with
    ledger := by rw [represents.ledger]
    grown := fun opened inside => (represents.grown opened inside).extend List.prefix_rfl }

/-- A ledger is written where the stored one is the expected one. -/
theorem swap (represents : Represents memory nested) (expected next : Ledger) :
    Conforms memory nested (.swap expected next) := by
  have stored := represents.ledger
  by_cases same : nested.contents.ledger = some expected
  · rw [Conforms, NestedStore.perform, if_pos same]
    -- The write replaces the ledger, and the log stays as it is.
    refine ⟨_, Memory.answer_swap (stored.trans same) next, ?_⟩
    exact { represents with
      ledger := rfl
      grown := fun opened inside => (represents.grown opened inside).extend List.prefix_rfl }
  · rw [Conforms, NestedStore.perform, if_neg same]
    -- A write is refused for another reason where there is no ledger at all.
    cases present : nested.contents.ledger with
    | none =>
      refine ⟨.store Memory.Refusal.noLedger.reason, memory, ?_, represents⟩
      simp only [Store.answer, Memory.store, Memory.swap, stored, present, Memory.refuse, failure?]
    | some current =>
      have other : current ≠ expected := fun equal => same (equal ▸ present)
      refine ⟨.ledgerConflict, memory, ?_, represents⟩
      simp [Store.answer, Memory.store, Memory.swap, stored, present, other, failure?]

/-- A script that works makes the log longer, which still begins with the logs of all copies. -/
theorem execute (represents : Represents memory nested) (script : String) :
    Conforms memory nested (.execute script) := by
  by_cases fails : script ∈ nested.failing
  · rw [Conforms, NestedStore.perform, if_pos fails]
    have listed : memory.failing.contains script = true := by
      simpa [represents.failing] using fails
    -- The note of the script that failed is nothing that is seen from outside.
    exact ⟨_, _, Memory.answer_execute_of_failing listed, { represents with }⟩
  · rw [Conforms, NestedStore.perform, if_neg fails]
    have unlisted : memory.failing.contains script = false := by
      simpa [represents.failing] using fails
    -- The log grows by the script, and so has grown since each copy.
    refine ⟨_, Memory.answer_execute unlisted, ?_⟩
    exact { represents with
      executed := by rw [represents.executed]
      grown := fun opened inside =>
        (represents.grown opened inside).extend (List.prefix_append _ _) }

/-- A transaction is opened with a copy of the contents, but never within another one. -/
theorem begin (represents : Represents memory nested) :
    Conforms memory nested (.transact .begin) := by
  have seen := represents.inTransaction
  -- A transaction may be opened only where none is open, and its copy is the contents.
  cases inside : nested.transaction with
  | none =>
    have closed : memory.inTransaction = false := by rw [seen, inside]; rfl
    simp only [Conforms, NestedStore.perform, NestedStore.transact, inside]
    refine ⟨{ memory with snapshots := [memory.snapshot none] }, ?_, ?_⟩
    · simp [Store.answer, Memory.store, Memory.transact, closed, failure?]
    · rw [represents.snapshot]
      exact represents.exchanged (OpenTransaction.grown_start _)
  | some opened =>
    have running : memory.inTransaction = true := by rw [seen, inside]; rfl
    simp only [Conforms, NestedStore.perform, NestedStore.transact, inside]
    -- Inside a transaction both refuse to open another.
    refine ⟨.store Memory.Refusal.alreadyOpen.reason, memory, ?_, represents⟩
    simp [Store.answer, Memory.store, Memory.transact, running, failure?, Memory.refuse]

/-- Outside a transaction every call that needs one is refused. -/
theorem refused (represents : Represents memory nested) (outside : nested.transaction = none)
    {step : Transaction} (needs : step ≠ .begin) : Conforms memory nested (.transact step) := by
  -- Outside transactions the memory has no copies to go back to.
  have empty : memory.snapshots = [] := by rw [represents.snapshots, outside]; rfl
  have closed : memory.inTransaction = false := by rw [represents.inTransaction, outside]; rfl
  have nothing : nested.transact step = none := by
    cases step <;> simp_all [NestedStore.transact]
  simp only [Conforms, NestedStore.perform, nothing]
  -- A savepoint is missed by name, and otherwise it is the transaction that is missed.
  cases step with
  | begin => exact absurd rfl needs
  | commit | rollback | savepoint =>
    refine ⟨.store Memory.Refusal.notOpen.reason, memory, ?_, represents⟩
    simp [Store.answer, Memory.store, Memory.transact, closed, empty, Memory.refuse, failure?]
  | rollbackTo name | release name =>
    refine ⟨.store (Memory.Refusal.noSavepoint name).reason, memory, ?_, represents⟩
    simp [Store.answer, Memory.store, Memory.transact, Memory.fromSavepoint, empty, Memory.refuse,
      failure?]

/-- Within a transaction all snapshots are known from the copies. -/
theorem snapshots_inside (represents : Represents memory nested)
    (inside : nested.transaction = some opened) : memory.snapshots = opened.snapshots := by
  rw [represents.snapshots, inside]
  rfl

/-- The snapshots from a savepoint on down are those of the savepoint that is located. -/
theorem fromSavepoint (represents : Represents memory nested)
    (inside : nested.transaction = some opened) (name : String) :
    memory.fromSavepoint name =
      match NestedStore.locate name opened.savepoints with
      | some (copy, older) =>
        copy.snapshot (some name) :: OpenTransaction.snapshots { opened with savepoints := older }
      | none => [] := by
  -- Both search their copies for the newest of the name.
  rw [Memory.fromSavepoint, represents.snapshots_inside inside]
  exact opened.snapshots_from name

/-- Committing keeps the contents and forgets all copies. -/
theorem commit (represents : Represents memory nested) :
    Conforms memory nested (.transact .commit) := by
  -- Outside a transaction nothing is committed, and inside only the copies are dropped.
  cases inside : nested.transaction with
  | none => exact represents.refused inside nofun
  | some opened =>
    have running : memory.inTransaction = true := by rw [represents.inTransaction, inside]; rfl
    simp only [Conforms, NestedStore.perform, NestedStore.transact, inside, Option.map_some]
    refine ⟨{ memory with snapshots := [] }, ?_, represents.closed⟩
    simp [Store.answer, Memory.store, Memory.transact, running, failure?]

/-- Rolling back restores the copy of the beginning, whose snapshot lies beneath all others. -/
theorem rollback (represents : Represents memory nested) :
    Conforms memory nested (.transact .rollback) := by
  cases inside : nested.transaction with
  | none => exact represents.refused inside nofun
  | some opened =>
    -- Savepoints are put on top, so that the beginning stays beneath all of them.
    have bottom : memory.snapshots.getLast? = some (opened.start.snapshot none) := by
      rw [represents.snapshots_inside inside]
      simp [OpenTransaction.snapshots]
    simp only [Conforms, NestedStore.perform, NestedStore.transact, inside, Option.map_some]
    refine ⟨{ memory.restore (opened.start.snapshot none) with snapshots := [] }, ?_, ?_⟩
    · simp [Store.answer, Memory.store, Memory.transact, bottom, failure?]
    · exact represents.restored inside (by simp [OpenTransaction.copies]) none

/-- A savepoint puts one more copy on top of the others. -/
theorem savepoint (represents : Represents memory nested) (name : String) :
    Conforms memory nested (.transact (.savepoint name)) := by
  -- Outside a transaction there is nothing to divide, and inside one copy is added.
  cases inside : nested.transaction with
  | none => exact represents.refused inside nofun
  | some opened =>
    have running : memory.inTransaction = true := by rw [represents.inTransaction, inside]; rfl
    simp only [Conforms, NestedStore.perform, NestedStore.transact, inside, Option.map_some]
    refine ⟨{ memory with snapshots := memory.snapshot (some name) :: memory.snapshots }, ?_, ?_⟩
    · simp [Store.answer, Memory.store, Memory.transact, running, failure?]
    · rw [represents.snapshot, represents.snapshots_inside inside]
      exact represents.exchanged ((represents.grown opened inside).savepoint name)

/-- A savepoint that is not there is missed by both stores, which stay as they are. -/
theorem missed (represents : Represents memory nested) {opened : OpenTransaction} {name : String}
    (inside : nested.transaction = some opened)
    (absent : NestedStore.locate name opened.savepoints = none) {step : Transaction}
    (needs : step = .rollbackTo name ∨ step = .release name) :
    Conforms memory nested (.transact step) := by
  have found := represents.fromSavepoint inside name
  rw [absent] at found
  -- Both steps look for the savepoint before they do anything.
  have nothing : nested.transact step = none := by
    rcases needs with rfl | rfl <;> simp [NestedStore.transact, inside, absent]
  simp only [Conforms, NestedStore.perform, nothing]
  refine ⟨.store (Memory.Refusal.noSavepoint name).reason, memory, ?_, represents⟩
  rcases needs with rfl | rfl <;>
    simp [Store.answer, Memory.store, Memory.transact, found, Memory.refuse, failure?]

/-- Going back to a savepoint restores its copy, which stays on top of the older ones. -/
theorem rollbackTo (represents : Represents memory nested) (name : String) :
    Conforms memory nested (.transact (.rollbackTo name)) := by
  cases inside : nested.transaction with
  | none => exact represents.refused inside nofun
  | some opened =>
    cases located : NestedStore.locate name opened.savepoints with
    | none => exact represents.missed inside located (.inl rfl)
    | some place =>
      obtain ⟨copy, older⟩ := place
      have found := represents.fromSavepoint inside name
      rw [located] at found
      obtain ⟨newer, split, _⟩ := NestedStore.locate_eq_some located
      simp only [Conforms, NestedStore.perform, NestedStore.transact, inside, Option.bind_some,
        located]
      let kept : OpenTransaction := { opened with savepoints := (name, copy) :: older }
      refine ⟨{ memory.restore (copy.snapshot (some name)) with snapshots := kept.snapshots },
        ?_, ?_⟩
      · simp [Store.answer, Memory.store, Memory.transact, found, failure?, kept,
          OpenTransaction.snapshots]
      · have among : copy ∈ opened.copies := by simp [OpenTransaction.copies, split]
        -- The log is cut as by a rollback, but the transaction goes on.
        exact (represents.restored inside among (some name)).exchanged
          ((represents.grown opened inside).rolledBack split)

/-- Releasing a savepoint forgets its copy and the newer ones, and nothing of the contents. -/
theorem release (represents : Represents memory nested) (name : String) :
    Conforms memory nested (.transact (.release name)) := by
  cases inside : nested.transaction with
  | none => exact represents.refused inside nofun
  | some opened =>
    cases located : NestedStore.locate name opened.savepoints with
    | none => exact represents.missed inside located (.inr rfl)
    | some place =>
      obtain ⟨copy, older⟩ := place
      have found := represents.fromSavepoint inside name
      rw [located] at found
      obtain ⟨newer, split, _⟩ := NestedStore.locate_eq_some located
      simp only [Conforms, NestedStore.perform, NestedStore.transact, inside, Option.bind_some,
        located]
      let kept : OpenTransaction := { opened with savepoints := older }
      refine ⟨{ memory with snapshots := kept.snapshots }, ?_, ?_⟩
      · simp [Store.answer, Memory.store, Memory.transact, found, failure?, kept]
      · -- Only copies are lost, and the log has grown since each of those that are left.
        exact represents.exchanged ((represents.grown opened inside).released split)

/-- Every call of a memory store is answered as the nested store answers it. -/
theorem conforms (represents : Represents memory nested) (call : Call) :
    Conforms memory nested call := by
  -- Each kind of call conforms for a reason of its own.
  cases call with
  | load => exact represents.load
  | swap expected next => exact represents.swap expected next
  | execute script => exact represents.execute script
  | transact step =>
    cases step with
    | begin => exact represents.begin
    | commit => exact represents.commit
    | rollback => exact represents.rollback
    | savepoint name => exact represents.savepoint name
    | rollbackTo name => exact represents.rollbackTo name
    | release name => exact represents.release name

/-- One action has the same success in both stores, and leaves stores that still agree. -/
theorem act (represents : Represents memory nested) (action : StoreAction) :
    (memory.act action).1 = (nested.act action).1 ∧
      Represents (memory.act action).2 (nested.act action).2 := by
  -- A script that is to fail from now on is noted by both.
  cases action with
  | failOn script => exact ⟨rfl, represents.failOn script⟩
  | call call =>
    have conforms := represents.conforms call
    simp only [Conforms] at conforms
    -- A failing call leaves both as they were, but for the note that the memory makes.
    cases performed : nested.perform call with
    | none =>
      rw [performed] at conforms
      obtain ⟨error, after, answered, still⟩ := conforms
      simp only [Memory.act, NestedStore.act, answered, performed]
      exact ⟨rfl, still⟩
    | some next =>
      rw [performed] at conforms
      obtain ⟨after, answered, further⟩ := conforms
      simp only [Memory.act, NestedStore.act, answered, performed]
      exact ⟨rfl, further⟩

/-- Whatever is done to both stores, the same is seen of them after each action. -/
theorem sights (represents : Represents memory nested) (actions : List StoreAction) :
    memory.sights actions = nested.sights actions := by
  -- Each action leaves stores that represent each other, from which the later ones start.
  induction actions generalizing memory nested with
  | nil => rfl
  | cons action later ih =>
    obtain ⟨succeeded, further⟩ := represents.act action
    simp only [Memory.sights, NestedStore.sights, succeeded, further.executed, further.ledger,
      further.inTransaction, ih further]

end Represents

namespace Memory

/-- A new memory store represents a nested store with the same ledger. -/
theorem fresh_represents (ledger : Option Ledger) :
    Represents (fresh ledger) { contents := { ledger } } := by
  -- No call has been made, so that there are neither scripts nor copies.
  cases ledger <;> exact ⟨rfl, rfl, rfl, rfl, nofun⟩

/-- A call that fails leaves the memory as it is, but for the note of a script that failed. -/
theorem answer_failed (memory : Memory) (call : Call) :
    (store.answer call memory).1 = none ∨
      ∃ failed, (store.answer call memory).2 = { memory with failed } := by
  cases call with
  | load => exact .inl (by rw [answer_load])
  | swap expected next =>
    simp only [Store.answer, store, swap]
    -- Of the three outcomes only the write itself changes the memory.
    split
    · split
      · exact .inl rfl
      · exact .inr ⟨memory.failed, rfl⟩
    · exact .inr ⟨memory.failed, rfl⟩
  | execute script =>
    by_cases fails : memory.failing.contains script = true
    · exact .inr ⟨_, by rw [answer_execute_of_failing fails]⟩
    · exact .inl (by rw [answer_execute (by simpa using fails)])
  | transact step =>
    -- Each case either succeeds or hands the memory back.
    cases step <;> simp only [Store.answer, store, transact] <;> split
    all_goals first | exact .inl rfl | exact .inr ⟨memory.failed, rfl⟩

/--
A memory store is seen to do what a nested store does that takes full copies.

Whatever fails leaves the log, the ledger and the transaction as they are.
-/
theorem behaves_as_nested (ledger : Option Ledger) (actions : List StoreAction) :
    (fresh ledger).sights actions = NestedStore.sights { contents := { ledger } } actions ∧
    ∀ (memory : Memory) (call : Call), (store.answer call memory).1 ≠ none →
      (store.answer call memory).2.executed = memory.executed ∧
      (store.answer call memory).2.ledger = memory.ledger ∧
      (store.answer call memory).2.inTransaction = memory.inTransaction := by
  -- The memories represent nested stores from the start on, and each action keeps that.
  refine ⟨(fresh_represents ledger).sights actions, fun memory call failed => ?_⟩
  rcases answer_failed memory call with succeeded | ⟨noted, same⟩
  · exact absurd succeeded failed
  · -- A failing call changes at most the note of scripts that have failed.
    rw [same]
    exact ⟨rfl, rfl, rfl⟩

/-- Of two savepoints with one name the newer is gone back to, and the older once it is released. -/
theorem behaves_as_nested_sample :
    (fresh none).sights [.call (.transact .begin), .call (.transact (.savepoint "p")),
        .call (.execute "a"), .call (.transact (.savepoint "p")), .call (.execute "b"),
        .call (.transact (.rollbackTo "p")), .call (.transact (.release "p")),
        .call (.transact (.rollbackTo "p")), .failOn "c", .call (.execute "c"),
        .call (.transact .rollback)] =
      [⟨true, [], none, true⟩, ⟨true, [], none, true⟩, ⟨true, ["a"], none, true⟩,
        ⟨true, ["a"], none, true⟩, ⟨true, ["a", "b"], none, true⟩, ⟨true, ["a"], none, true⟩,
        ⟨true, ["a"], none, true⟩, ⟨true, [], none, true⟩, ⟨true, [], none, true⟩,
        ⟨false, [], none, true⟩, ⟨true, [], none, false⟩] ∧
    (store.answer (.transact .commit) {}).1 ≠ none ∧
    (store.answer (.transact .commit) {}).2.executed = [] ∧
    (store.answer (.transact .commit) {}).2.ledger = none ∧
    (store.answer (.transact .commit) {}).2.inTransaction = false := by
  -- A commit outside a transaction is refused.
  have refused : (store.answer (.transact .commit) {}).1 ≠ none := by decide
  exact ⟨(behaves_as_nested none _).1.trans (by decide), refused,
    (behaves_as_nested none []).2 {} (.transact .commit) refused⟩

end Memory

end SchemaLedger
