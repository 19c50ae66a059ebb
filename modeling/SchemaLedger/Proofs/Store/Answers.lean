import SchemaLedger.Reconcile.Session

/-! A history of calls is one that a store gives when it answers them one after the other. -/

namespace SchemaLedger.Store

variable {σ : Type}

/-- The answer of a store to a call: the failure, if there is one, and the state it leaves. -/
def answer (store : Store σ) : Call → σ → Option MigrationError × σ
  | .load, state => (failure? (store.load state).1, (store.load state).2)
  | .swap expected next, state =>
    (failure? (store.swap expected next state).1, (store.swap expected next state).2)
  | .execute script, state =>
    (failure? (store.execute script state).1, (store.execute script state).2)
  | .transact step, state =>
    (failure? (store.transact step state).1, (store.transact step state).2)

/-- Calls that a store answers one after the other, from one of its states to another. -/
inductive Answers (store : Store σ) : σ → List CallRecord → σ → Prop where
  | silent (state : σ) : Answers store state [] state
  | next {before between after : σ} {call : Call} {failure : Option MigrationError}
      {later : List CallRecord} (answered : store.answer call before = (failure, between))
      (rest : Answers store between later after) :
      Answers store before (⟨call, failure⟩ :: later) after

/-- A history goes on where an earlier one ended. -/
theorem Answers.append {store : Store σ} {before between after : σ} {first second : List CallRecord}
    (earlier : store.Answers before first between) (later : store.Answers between second after) :
    store.Answers before (first ++ second) after := by
  -- The state in which the first history ends is carried along by its calls.
  induction earlier with
  | silent => exact later
  | next answered _ ih => exact .next answered (ih later)

/-- A history in two parts has a state in between. -/
theorem Answers.split {store : Store σ} {before after : σ} {first second : List CallRecord}
    (answers : store.Answers before (first ++ second) after) :
    ∃ between, store.Answers before first between ∧ store.Answers between second after := by
  -- The induction is on the first part, each call of which leaves a state for the next.
  induction first generalizing before with
  | nil => exact ⟨before, .silent before, answers⟩
  | cons record rest ih =>
    cases answers with
    | next answered later =>
      obtain ⟨between, earlier, further⟩ := ih later
      exact ⟨between, .next answered earlier, further⟩

end SchemaLedger.Store
