import SchemaLedger.Proofs.Store.Answers
import SchemaLedger.Store.Memory

/-! A store that others write to between calls, and what keeps their writes from being lost. -/

namespace SchemaLedger

/-- The state of a store with other writers, and how many calls it has answered so far. -/
structure Shared (σ : Type) where
  state : σ
  turn : Nat := 0

/-- The state that the next call meets, once the others have had their turn. -/
def Shared.met {σ : Type} (others : Nat → σ → σ) (shared : Shared σ) : σ :=
  others shared.turn shared.state

namespace Store

variable {σ α : Type}

/-- An answer given in the state that the others leave behind. -/
def served (others : Nat → σ → σ) (action : σ → α × σ) (shared : Shared σ) : α × Shared σ :=
  let (answer, state) := action (shared.met others)
  (answer, ⟨state, shared.turn + 1⟩)

/-- A store to which others may do anything before each call. -/
def shared (store : Store σ) (others : Nat → σ → σ) : Store (Shared σ) where
  load := served others store.load
  swap := fun expected next => served others (store.swap expected next)
  execute := fun script => served others (store.execute script)
  transact := fun step => served others (store.transact step)
  notes := store.notes

/-- A store writes only in place of the expected ledger, and a refused write changes nothing. -/
structure ComparesAndSwaps (store : Store σ) (stored : σ → Option Ledger) : Prop where
  swapped : ∀ expected next state, (store.swap expected next state).1 = .ok () →
    stored state = some expected ∧ stored (store.swap expected next state).2 = some next
  refused : ∀ expected next state error, (store.swap expected next state).1 = .error error →
    stored (store.swap expected next state).2 = stored state

/-- The state that a store is left in by calls. -/
def after (store : Store σ) (state : σ) (calls : List CallRecord) : σ :=
  calls.foldl (fun reached record => (store.answer record.call reached).2) state

/-- Every call of a history is answered in the state that the calls before it left. -/
theorem Answers.answered {store : Store σ} {start final : σ} {before later : List CallRecord}
    {call : Call} {failure : Option MigrationError}
    (answers : store.Answers start (before ++ ⟨call, failure⟩ :: later) final) :
    (store.answer call (store.after start before)).1 = failure := by
  -- The induction is on the calls before, each of which leaves a state to start from.
  induction before generalizing start with
  | nil =>
    cases answers with
    | next answered _ =>
      show (store.answer call start).1 = failure
      rw [answered]
  | cons record before ih =>
    cases answers with
    | @next _ _ _ other _ _ answered rest =>
      -- The calls behind the first one start in the state that its answer came with.
      show (store.answer call (store.after (store.answer other start).2 before)).1 = failure
      rw [answered]
      exact ih rest

/-- One more call leaves the state that its answer comes with. -/
theorem after_concat (store : Store σ) (start : σ) (before : List CallRecord) (record : CallRecord) :
    store.after start (before ++ [record]) =
      (store.answer record.call (store.after start before)).2 := by
  -- The records are answered from the left, so that the last one comes last.
  simp [after]

/-- A write of a shared store replaces what the others have left only if that is expected. -/
theorem ComparesAndSwaps.served {store : Store σ} {stored : σ → Option Ledger}
    (fair : store.ComparesAndSwaps stored) {others : Nat → σ → σ} {reached : Shared σ}
    {expected next : Ledger} {answer : Option MigrationError}
    (answered : ((store.shared others).answer (.swap expected next) reached).1 = answer) :
    (answer = none → stored (reached.met others) = some expected ∧
      stored ((store.shared others).answer (.swap expected next) reached).2.state = some next) ∧
    (stored (reached.met others) ≠ some expected → answer ≠ none ∧
      stored ((store.shared others).answer (.swap expected next) reached).2.state =
        stored (reached.met others)) := by
  -- The store gives its answer in the state that the others have left behind.
  have left_behind : ((store.shared others).answer (.swap expected next) reached).2.state =
      (store.swap expected next (reached.met others)).2 := rfl
  have same : failure? (store.swap expected next (reached.met others)).1 = answer := answered
  rw [left_behind]
  -- A write that succeeds has found what it expected, and any other changes nothing.
  cases outcome : (store.swap expected next (reached.met others)).1 with
  | ok =>
    obtain ⟨found, replaced⟩ := fair.swapped _ _ _ outcome
    exact ⟨fun _ => ⟨found, replaced⟩, fun differs => absurd found differs⟩
  | error error =>
    rw [outcome] at same
    refine ⟨fun succeeded => ?_, fun _ => ⟨?_, fair.refused _ _ _ _ outcome⟩⟩
    · rw [succeeded] at same
      cases same
    · rw [← same]
      simp [failure?]

end Store

/-- A store in memory compares and swaps its ledger. -/
theorem Memory.store_comparesAndSwaps : Memory.store.ComparesAndSwaps Memory.ledger where
  swapped := by
    intro expected next memory written
    -- A write succeeds only where a ledger is present and is the expected one.
    simp only [Memory.store, Memory.swap] at written ⊢
    cases present : memory.ledger with
    | none => simp [present, Memory.refuse] at written
    | some current =>
      by_cases same : current = expected
      · simp [same]
      · simp [present, same] at written
  refused := by
    intro expected next memory error refused
    -- A memory that refuses is handed back as it was.
    simp only [Memory.store, Memory.swap] at refused ⊢
    cases present : memory.ledger with
    | none => simp [Memory.refuse, present]
    | some current =>
      by_cases same : current = expected
      · simp [present, same] at refused
      · simp [same, present]

end SchemaLedger
