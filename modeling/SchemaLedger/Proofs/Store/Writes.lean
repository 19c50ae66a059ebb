import SchemaLedger.Proofs.Store.Frames

/-! A memory store counts the writes of its ledger, and goes on counting those that are undone. -/

namespace SchemaLedger

/-- Something that was done writes the ledger. -/
def Deed.writesLedger : Deed → Bool
  | .act (.call call) => call.writesLedger
  | _ => false

namespace Journal

/-- The entries that are undone by what is done. -/
def undone (journal : Journal) (deed : Deed) : List (Nat × Call) :=
  match journal.target? deed with
  | some mark => journal.standing.filter (mark.time ≤ ·.1)
  | none => []

variable {journal : Journal} {deed : Deed}

/-- What goes on from where it is undoes nothing. -/
theorem undone_eq_nil (onward : journal.target? deed = none) : journal.undone deed = [] := by
  simp only [undone, onward]

/-- The writes of a journal are before the mark that is gone back to, or they are undone. -/
theorem writes_eq_add {mark : Mark} (found : journal.target? deed = some mark) :
    journal.writes = (journal.before mark.time).countP (·.2.writesLedger) +
      (journal.undone deed).countP (·.2.writesLedger) := by
  have later : journal.undone deed =
      journal.standing.filter fun entry => !decide (entry.1 < mark.time) := by
    simp only [undone, found]
    -- Nothing is both before the mark and undone, and nothing is neither.
    exact List.filter_congr fun entry _ => by simp [← decide_not]
  rw [later]
  exact List.countP_eq_countP_filter_add _ _ _

end Journal

namespace Framed

variable {memory after : Memory} {journal next : Journal} {frames framesAfter : List Frame}
  {deed : Deed}

/-- The memory loses no write, and its journal those that are undone. -/
theorem writes_advance (advance : Advance memory journal frames deed after next framesAfter) :
    after.writes + journal.writes =
      memory.writes + next.writes + (journal.undone deed).countP (·.2.writesLedger) := by
  -- Writes and the journal grow together, except that going back takes entries from the journal
  -- only.
  cases advance with
  | wait _ written onward =>
    rw [written, Journal.undone_eq_nil onward]
    rfl
  | forget _ written =>
    rw [written]
    rfl
  | @goOn call _ _ _ onward _ written entered =>
    have entry : next.writes = journal.writes + if call.writesLedger then 1 else 0 := by
      simp [Journal.writes, entered, List.countP_singleton]
    rw [written, entry, Journal.undone_eq_nil onward, List.countP_nil]
    omega
  | @goBack _ _ _ _ target found _ _ written undone =>
    -- What is undone are the entries behind the mark, which the journal loses.
    have split := Journal.writes_eq_add found
    have remaining : next.writes =
        (journal.before target.time).countP (·.2.writesLedger) := by
      rw [Journal.writes, undone]
    rw [written, remaining, split, Nat.add_assoc]
    rfl

end Framed

namespace Memory

/-- No call takes back a write of the ledger. -/
def UndoesNoWrite (memory : Memory) (deeds : List Deed) : Prop :=
  ∀ begun deed, begun ++ [deed] <+: deeds →
    ∀ entry ∈ (memory.journal begun).undone deed, entry.2.writesLedger = false

instance (memory : Memory) (deeds : List Deed) : Decidable (memory.UndoesNoWrite deeds) :=
  decidable_of_iff _ forall_step_iff.symm

/-- What is done adds to the writes of a memory if it succeeds in writing the ledger. -/
theorem writes_perform (memory : Memory) (deed : Deed) :
    (memory.perform deed).2.writes = memory.writes +
      if (memory.perform deed).1 && deed.writesLedger then 1 else 0 := by
  -- Only a call can write, and only if it succeeds.
  rcases deed with (call | script) | _
  · rcases memory.answer_cases call with ⟨after, answered⟩ | ⟨error, failed, answered⟩
    · simpa [perform, act, answered, Deed.writesLedger] using (answer_succeeded answered).2.2
    · simp [perform, act, answered]
  · rfl
  · rfl

/-- All writes that ever succeeded are counted. -/
theorem writes_reached (memory : Memory) (deeds : List Deed) :
    (memory.reached deeds).writes = memory.writes +
      (memory.history deeds).countP fun done => done.2 && done.1.writesLedger := by
  -- Both sides are counted from the first deed on, and grow by the last one.
  induction deeds using List.reverseRecOn with
  | nil => rfl
  | append_singleton deeds deed ih =>
    rw [reached_concat, history_concat, writes_perform, ih, List.countP_append,
      List.countP_singleton, Nat.add_assoc]

variable (ledger : Option Ledger)

/-- Writes that were not undone are counted, and no others as long as no write is undone. -/
theorem writes_journal : ∀ deeds : List Deed,
    ∃ frames, Framed ((fresh ledger).reached deeds) ((fresh ledger).journal deeds) frames ∧
      ((fresh ledger).journal deeds).writes ≤ ((fresh ledger).reached deeds).writes ∧
      (((fresh ledger).reached deeds).writes = ((fresh ledger).journal deeds).writes ↔
        (fresh ledger).UndoesNoWrite deeds) := by
  refine holds_of_advance ledger ?_ ?_
  · -- A new memory has written nothing, and its journal is empty.
    have none : (fresh ledger).writes = 0 := by cases ledger <;> rfl
    exact ⟨Nat.zero_le _, iff_of_true none forall_step_nil⟩
  · rintro deeds deed frames framesAfter - advance ⟨fewer, same⟩
    have balance := Framed.writes_advance advance
    refine ⟨by omega, ?_⟩
    -- The two numbers differ by the writes undone so far, to which this deed adds its own.
    have undone : (((fresh ledger).journal deeds).undone deed).countP (·.2.writesLedger) = 0 ↔
        ∀ entry ∈ ((fresh ledger).journal deeds).undone deed, entry.2.writesLedger = false := by
      simp only [List.countP_eq_zero, Bool.not_eq_true]
    simp only [UndoesNoWrite, forall_step_concat] at same ⊢
    rw [← same, ← undone]
    omega

/--
The counter of a store has all writes of its ledger that ever succeeded.

It is right until a rollback takes back one of them, and too high ever after.
-/
theorem writes_exact_iff (deeds : List Deed) :
    ((fresh ledger).reached deeds).writes =
      (((fresh ledger).history deeds).countP fun done => done.2 && done.1.writesLedger) ∧
    ((fresh ledger).journal deeds).writes ≤ ((fresh ledger).reached deeds).writes ∧
    (((fresh ledger).reached deeds).writes = ((fresh ledger).journal deeds).writes ↔
      (fresh ledger).UndoesNoWrite deeds) := by
  -- A new memory has written nothing, so that all writes belong to the deeds.
  have none : (fresh ledger).writes = 0 := by cases ledger <;> rfl
  obtain ⟨frames, -, fewer, same⟩ := writes_journal ledger deeds
  refine ⟨?_, fewer, same⟩
  rw [writes_reached, none, Nat.zero_add]

/-- A write in front of a savepoint is not undone by going back to it, and is counted once. -/
theorem writes_exact_iff_sample :
    let deeds : List Deed := [.act (.call .load), .act (.call (.transact .begin)),
      .act (.call (.swap .empty .empty)), .act (.call (.transact (.savepoint "tags"))),
      .act (.call (.execute "create tags")), .act (.call (.transact (.rollbackTo "tags"))),
      .act (.call (.transact .commit))]
    (fresh none).UndoesNoWrite deeds ∧
      ((fresh none).reached deeds).writes = ((fresh none).journal deeds).writes ∧
      ((fresh none).journal deeds).writes = 1 := by
  intro deeds
  -- The savepoint is taken behind the write, which going back to it therefore leaves.
  have undone : (fresh none).UndoesNoWrite deeds := by decide
  exact ⟨undone, (writes_exact_iff none deeds).2.2.mpr undone, by decide⟩

/-- A write is still counted when it was rolled back and the ledger is again what it was before. -/
theorem undone_write_counted :
    let users : Migration :=
      { name := "1_users", up := "create users", down := "drop users", description := "users" }
    let next : Ledger := ⟨[users], by decide⟩
    let deeds : List Deed := [.act (.call (.transact .begin)),
      .act (.call (.swap .empty next)), .act (.call (.transact .rollback))]
    let store := fresh (some .empty)
    (store.reached deeds).ledger = some .empty ∧ (store.reached deeds).writes = 1 ∧
      (store.journal deeds).writes = 0 ∧
      (store.reached deeds).writes ≠ (store.journal deeds).writes := by
  decide

end Memory

end SchemaLedger
