import SchemaLedger.Store.Basic

/-! A session keeps the state of a store while it is called, with all calls and events so far. -/

namespace SchemaLedger

/-- A call with the error that it failed with, if it did. -/
structure CallRecord where
  call : Call
  failure : Option MigrationError
  deriving DecidableEq

/-- The state of a store and what has happened since the session began. -/
structure Session (σ : Type) where
  state : σ
  calls : List CallRecord := []
  events : List Event := []
  /-- How many time stamps have been taken. -/
  stamps : Nat := 0

/-- An activity on a store, which may end with an error and leaves a session in any case. -/
abbrev Run (σ α : Type) := ExceptT MigrationError (StateM (Session σ)) α

/-- The error of a result, if it is one. -/
def failure? {α : Type} : Except MigrationError α → Option MigrationError
  | .ok _ => none
  | .error error => some error

namespace Run

variable {σ α : Type}

/-- Calls the store, and keeps a record of the call. -/
def invoke (store : Store σ) (call : Call) (action : σ → Except MigrationError α × σ) : Run σ α :=
  fun session =>
    let (result, state) := action session.state
    (result, { session with
      state
      -- A call that fails is recorded like any other, and may have changed the state.
      calls := session.calls ++ [⟨call, failure? result⟩]
      events := session.events ++ store.notes call })

/-- Loads the ledger of the store. -/
def load (store : Store σ) : Run σ Ledger := invoke store .load store.load

/-- Writes a ledger in place of the expected one. -/
def swap (store : Store σ) (expected next : Ledger) : Run σ Unit :=
  invoke store (.swap expected next) (store.swap expected next)

/-- Executes a script. -/
def execute (store : Store σ) (script : String) : Run σ Unit :=
  invoke store (.execute script) (store.execute script)

/-- Opens, closes or divides a transaction. -/
def transact (store : Store σ) (step : Transaction) : Run σ Unit :=
  invoke store (.transact step) (store.transact step)

/-- Reports an event. -/
def report (event : Event) : Run σ Unit := fun session =>
  (.ok (), { session with events := session.events ++ [event] })

/-- Takes a time stamp from a clock that is read once for each stamp. -/
def stamp (clock : Nat → Instant) : Run σ Instant := fun session =>
  (.ok (clock session.stamps), { session with stamps := session.stamps + 1 })

/-- An activity whose error is a result like any other. -/
def attempt (action : Run σ α) : Run σ (Except MigrationError α) := fun session =>
  let (result, session) := action session
  (.ok result, session)

end Run

end SchemaLedger
