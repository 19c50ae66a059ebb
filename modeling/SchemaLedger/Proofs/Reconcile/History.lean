import SchemaLedger.Reconcile.Session

/-! What a history of calls tells: the ledger written last, the scripts run and the open transaction. -/

namespace SchemaLedger

namespace CallRecord

/-- The ledger that is stored after a call, as far as its caller knows. -/
def ledgerAfter (ledger : Ledger) : CallRecord → Ledger
  | ⟨.swap _ next, none⟩ => next
  | _ => ledger

/-- A transaction is open after a call, given whether one was open before it. -/
def leavesOpen (isOpen : Bool) : CallRecord → Bool
  | ⟨.transact .begin, none⟩ => true
  | ⟨.transact .commit, _⟩ | ⟨.transact .rollback, _⟩ => false
  | _ => isOpen

/-- The script that a call has executed for good, because no transaction was open. -/
def lastingScripts (isOpen : Bool) : CallRecord → List String
  | ⟨.execute script, none⟩ => if isOpen then [] else [script]
  | _ => []

/-- The text that a call sends where transactions are statements like any other. -/
def sentTexts : CallRecord → List String
  | ⟨.execute script, _⟩ => [script]
  | ⟨.transact step, _⟩ => [step.statement]
  | _ => []

/-- The ledger that a call expects and the one it offers in its place. -/
def offers : CallRecord → List (Ledger × Ledger)
  | ⟨.swap expected next, _⟩ => [(expected, next)]
  | _ => []

end CallRecord

namespace History

/-- The ledger written last, which is the given one as long as none is written. -/
def written (ledger : Ledger) (calls : List CallRecord) : Ledger :=
  calls.foldl CallRecord.ledgerAfter ledger

/-- A transaction is open at the end of a history, given whether one was open at its start. -/
def openAfter (isOpen : Bool) (calls : List CallRecord) : Bool :=
  calls.foldl CallRecord.leavesOpen isOpen

/-- The scripts executed outside transactions, in order. -/
def lasting (isOpen : Bool) : List CallRecord → List String
  | [] => []
  | record :: later => record.lastingScripts isOpen ++ lasting (record.leavesOpen isOpen) later

/-- The texts sent, in order, where transactions are statements like any other. -/
def sent (calls : List CallRecord) : List String := calls.flatMap CallRecord.sentTexts

/-- The writes attempted, each with the ledger it expects. -/
def swaps (calls : List CallRecord) : List (Ledger × Ledger) := calls.flatMap CallRecord.offers

/-- Every write expects the ledger of the write before it, and the first one the given ledger. -/
def Chained (ledger : Ledger) : List (Ledger × Ledger) → Prop
  | [] => True
  | (expected, next) :: later => expected = ledger ∧ Chained next later

variable {ledger : Ledger} {isOpen : Bool} {first second : List CallRecord}

/-- What is written last is known from the end of the history. -/
@[simp] theorem written_append :
    written ledger (first ++ second) = written (written ledger first) second :=
  List.foldl_append

/-- Whether a transaction is open is known from the end of the history. -/
@[simp] theorem openAfter_append :
    openAfter isOpen (first ++ second) = openAfter (openAfter isOpen first) second :=
  List.foldl_append

/-- Scripts that last come in the order of the history. -/
@[simp] theorem lasting_append :
    lasting isOpen (first ++ second) =
      lasting isOpen first ++ lasting (openAfter isOpen first) second := by
  -- By induction on the first list, with the transaction open or closed before it.
  induction first generalizing isOpen with
  | nil => rfl
  | cons record rest ih => simp [lasting, openAfter, ih]

/-- Texts are sent in the order of the history. -/
@[simp] theorem sent_append : sent (first ++ second) = sent first ++ sent second :=
  List.flatMap_append

/-- Writes come in the order of the history. -/
@[simp] theorem swaps_append : swaps (first ++ second) = swaps first ++ swaps second :=
  List.flatMap_append

/-- Loading the ledger writes none. -/
theorem written_load {failure : Option MigrationError} :
    written ledger (⟨.load, failure⟩ :: first) = written ledger first := rfl

/-- Loading the ledger neither opens a transaction nor closes one. -/
theorem openAfter_load {failure : Option MigrationError} :
    openAfter isOpen (⟨.load, failure⟩ :: first) = openAfter isOpen first := rfl

/-- Loading the ledger executes no script. -/
theorem lasting_load {failure : Option MigrationError} :
    lasting isOpen (⟨.load, failure⟩ :: first) = lasting isOpen first := rfl

/-- Loading the ledger attempts no write. -/
theorem swaps_load {failure : Option MigrationError} :
    swaps (⟨.load, failure⟩ :: first) = swaps first := rfl

/-- Where no write is attempted, the ledger written last stays the same. -/
theorem written_of_no_swaps {calls : List CallRecord} (none : swaps calls = []) :
    written ledger calls = ledger := by
  -- The induction keeps the ledger from one call to the next.
  induction calls with
  | nil => rfl
  | cons record rest ih =>
    obtain ⟨offers, later⟩ := List.append_eq_nil_iff.mp none
    have kept : record.ledgerAfter ledger = ledger := by
      -- Only a write changes what is stored, and this call is none.
      rcases record with ⟨call, failure⟩
      cases call with
      | swap expected next => cases offers
      | _ => rfl
    show written (record.ledgerAfter ledger) rest = ledger
    rw [kept]
    exact ih later

/-- The ledger written last is the given one, or one that a write offered. -/
theorem written_cases (ledger : Ledger) (calls : List CallRecord) :
    written ledger calls = ledger ∨ ∃ expected, (expected, written ledger calls) ∈ swaps calls := by
  -- The induction is on the calls, so that the ledger is the one left by those before.
  induction calls generalizing ledger with
  | nil => exact .inl rfl
  | cons record rest ih =>
    have later : written ledger (record :: rest) = written (record.ledgerAfter ledger) rest := rfl
    rw [later]
    rcases ih (record.ledgerAfter ledger) with same | ⟨expected, member⟩
    · -- Nothing is written later, so this call decides.
      rw [same]
      rcases record with ⟨call, failure⟩
      cases call with
      | swap expected next =>
        cases failure with
        | none => exact .inr ⟨expected, List.mem_append_left _ List.mem_cons_self⟩
        | some error => exact .inl rfl
      | _ => exact .inl rfl
    · exact .inr ⟨expected, List.mem_append_right _ member⟩

/-- Scripts that are only executed within a transaction do not last. -/
theorem lasting_of_open {calls : List CallRecord}
    (inside : ∀ before script after, calls = before ++ ⟨.execute script, none⟩ :: after →
      openAfter isOpen before = true) : lasting isOpen calls = [] := by
  induction calls generalizing isOpen with
  | nil => rfl
  | cons record rest ih =>
    have head : record.lastingScripts isOpen = [] := by
      -- A script that this call executes stands at the very start, where a transaction is open.
      rcases record with ⟨call, failure⟩
      cases call with
      | execute script =>
        cases failure with
        | none =>
          have opened : isOpen = true := inside [] script rest rfl
          simp [CallRecord.lastingScripts, opened]
        | some error => rfl
      | _ => rfl
    -- What stands behind this call stands behind it in the whole history as well.
    have tail : lasting (record.leavesOpen isOpen) rest = [] :=
      ih fun before script after cut => inside (record :: before) script after (by simp [cut])
    simp [lasting, head, tail]

end History

end SchemaLedger
