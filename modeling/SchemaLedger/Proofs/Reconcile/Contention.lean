import SchemaLedger.Proofs.Reconcile.Calls
import SchemaLedger.Proofs.Store.Shared

/-! A run never overwrites a ledger that others have written since it last loaded or wrote one. -/

namespace SchemaLedger

open History

/-- The calls of a move do not load the ledger. -/
theorem Move.Calls.not_load {ledger next : Ledger} {move : Move} {made : List CallRecord}
    {failure : Option MigrationError} (calls : move.Calls ledger next made failure) :
    ∀ record ∈ made, record.call ≠ .load := by
  -- Outside a replay the calls are written out, and none of them loads.
  rcases calls.shape with ⟨script, error, _, rfl, _⟩ | ⟨script, _, rfl⟩ | ⟨_, _, _, rfl⟩ |
    ⟨_, _, _, replays⟩
  · simp
  · simp
  · simp
  · rcases replays.bracketed with ⟨error, rfl⟩ | ⟨body, closing, rfl, inner, closes⟩
    · simp
    · intro record member
      rcases List.mem_cons.mp member with rfl | member
      · simp
      rcases List.mem_append.mp member with inside | last
      · -- A call that loads the ledger may not stand within a transaction.
        intro same
        have allowed := inner record inside
        rw [same] at allowed
        cases allowed
      · obtain rfl := List.mem_singleton.mp last
        rcases closes with same | same <;> simp [same]

/-- Moves are made without loading the ledger. -/
theorem Follows.not_load {ledger : Ledger} {moves : List Move} {made : List CallRecord}
    {outcome : Except MigrationError Ledger} (follows : Follows ledger moves made outcome) :
    ∀ record ∈ made, record.call ≠ .load := by
  -- Each call belongs to one of the moves.
  induction follows with
  | done | refused => exact fun record member => by cases member
  | next _ calls _ ih =>
    intro record member
    rcases List.mem_append.mp member with first | later
    · exact calls.not_load record first
    · exact ih record later
  | stopped _ calls => exact calls.not_load

namespace Reconciler

variable {σ : Type} (r : Reconciler σ) (migrations : List Migration) (state : σ)

/-- A run loads the ledger first and once, unless the migrations cannot be ordered. -/
theorem loads_first :
    (∀ error, canonicalOrder migrations = .error error →
      r.calls migrations state = [] ∧ r.result migrations state = .error error) ∧
    ∀ sorted, canonicalOrder migrations = .ok sorted →
      ∃ made, r.calls migrations state = ⟨.load, failure? (r.store.load state).1⟩ :: made ∧
        (∀ error, (r.store.load state).1 = .error error → made = []) ∧
        ∀ record ∈ made, record.call ≠ .load := by
  obtain ⟨final, _, course⟩ := r.calls_course migrations state
  generalize r.calls migrations state = calls at course
  generalize r.result migrations state = result at course
  -- Which of the two holds is decided by the course that the run takes.
  cases course with
  | unordered refused =>
    refine ⟨fun error failed => ?_, fun sorted ordered => ?_⟩
    · rw [refused] at failed
      cases failed
      exact ⟨rfl, rfl⟩
    · rw [refused] at ordered
      cases ordered
  | unloaded ordered failed =>
    refine ⟨fun error refused => ?_, fun sorted _ => ⟨[], ?_, fun _ _ => rfl, ?_⟩⟩
    · rw [ordered] at refused
      cases refused
    · rw [failed]
      rfl
    · exact fun record member => by cases member
  | @followed _ _ made _ ordered opened follows =>
    refine ⟨fun error refused => ?_, fun sorted _ => ⟨made, ?_, fun error failed => ?_, ?_⟩⟩
    · rw [ordered] at refused
      cases refused
    · rw [opened]
      rfl
    · rw [opened] at failed
      cases failed
    · exact follows.not_load

variable {r migrations state}

/-- A write expects the ledger written last, and a write that fails ends the run with its error. -/
theorem swap_placed {loaded : Ledger} (opened : (r.store.load state).1 = .ok loaded)
    {before after : List CallRecord} {expected next : Ledger} {answer : Option MigrationError}
    (cut : r.calls migrations state = before ++ ⟨.swap expected next, answer⟩ :: after) :
    expected = written loaded before ∧
    ∀ error, answer = some error → r.result migrations state = .error error ∧
      ((openAfter false before = false ∧ after = []) ∨
        (openAfter false before = true ∧ ∃ rollback, after = [⟨.transact .rollback, rollback⟩])) := by
  have member : ⟨.swap expected next, answer⟩ ∈ r.calls migrations state := by simp [cut]
  obtain ⟨sorted, again, ordered, reopened⟩ := opened_of_mem member (by simp)
  -- The ledger is loaded only once.
  obtain rfl : again = loaded := by
    rw [opened] at reopened
    cases reopened
    rfl
  obtain ⟨seen, outcome, rfl, place, ended⟩ := placed ordered opened cut (by simp)
  cases place with
  | @place done later move current offered earlier inner rest tail failure planned past future
      reached writes calls goesOn ends =>
    -- The calls before belong to moves that have been written, or to the move of this write.
    obtain ⟨rfl, rfl, same⟩ := calls.of_swap
    have within : openAfter false (⟨.load, none⟩ :: seen) = openAfter false inner := by
      rw [openAfter_load, past, openAfter_append, reached.closed]
    refine ⟨by rw [written_load, past, written_append, reached.written, same], ?_⟩
    intro error claimed
    obtain rfl := claimed
    obtain ⟨reported, closing⟩ := calls.of_failed_swap
    obtain ⟨rfl, failed⟩ := ends error reported
    rw [within, future, List.append_nil]
    exact ⟨ended error failed, closing⟩

/-- A reconciler of a store to which others may do anything before each call. -/
def shared (r : Reconciler σ) (others : Nat → σ → σ) : Reconciler (Shared σ) :=
  ⟨r.store.shared others, r.clock, r.development⟩

/--
A run never overwrites what others have written, as long as the store compares and swaps.

The ledger is loaded once and first, and every write expects the ledger of the write before it.
A conflict ends the run, behind a rollback if a transaction is open.
So a write replaces only the ledger that the run itself has loaded or written last.
Where others have left a different one, the write fails and leaves it in place.
-/
theorem never_overwrites_others (r : Reconciler σ) (migrations : List Migration) (state : σ)
    (others : Nat → σ → σ) {stored : σ → Option Ledger}
    (fair : r.store.ComparesAndSwaps stored) :
    ((∀ error, canonicalOrder migrations = .error error →
      (r.shared others).calls migrations ⟨state, 0⟩ = []) ∧
    ∀ sorted, canonicalOrder migrations = .ok sorted → ∃ made,
      (r.shared others).calls migrations ⟨state, 0⟩ =
        ⟨.load, failure? (r.store.load (others 0 state)).1⟩ :: made ∧
      (∀ error, (r.store.load (others 0 state)).1 = .error error → made = []) ∧
      ∀ record ∈ made, record.call ≠ .load) ∧
    ∀ loaded, (r.store.load (others 0 state)).1 = .ok loaded →
      Chained loaded (swaps ((r.shared others).calls migrations ⟨state, 0⟩)) ∧
      (∀ before expected next after, (r.shared others).calls migrations ⟨state, 0⟩ =
          before ++ ⟨.swap expected next, some .ledgerConflict⟩ :: after →
        (r.shared others).result migrations ⟨state, 0⟩ = .error .ledgerConflict ∧
        ((openAfter false before = false ∧ after = []) ∨ (openAfter false before = true ∧
          ∃ rollback, after = [⟨.transact .rollback, rollback⟩]))) ∧
      ∀ before expected next answer after, (r.shared others).calls migrations ⟨state, 0⟩ =
          before ++ ⟨.swap expected next, answer⟩ :: after →
        ∃ found left,
          found = stored (((r.store.shared others).after ⟨state, 0⟩ before).met others) ∧
          left = stored ((r.store.shared others).after ⟨state, 0⟩
            (before ++ [⟨.swap expected next, answer⟩])).state ∧
          (answer = none → found = some (written loaded before) ∧ left = some next) ∧
          (found ≠ some (written loaded before) → answer ≠ none ∧ left = found) := by
  obtain ⟨refused, accepted⟩ := (r.shared others).loads_first migrations ⟨state, 0⟩
  refine ⟨⟨fun error failed => (refused error failed).1, accepted⟩, fun loaded opened => ?_⟩
  have reopened : ((r.shared others).store.load ⟨state, 0⟩).1 = .ok loaded := opened
  refine ⟨?_, ?_, ?_⟩
  · cases ordered : canonicalOrder migrations with
    | error error =>
      rw [(refused error ordered).1]
      trivial
    | ok sorted =>
      obtain ⟨made, outcome, _, called, follows, _⟩ := follows_plan ordered reopened
      -- Each write expects what the one before it has written.
      rw [called, swaps_load]
      exact follows.chained
  · intro before expected next after cut
    exact (swap_placed reopened cut).2 _ rfl
  · intro before expected next answer after cut
    -- The run expects the ledger that it has loaded or written last.
    obtain ⟨rfl, _⟩ := swap_placed reopened cut
    -- The answer to the write is the one of the store in the state the calls before have left.
    obtain ⟨final, answers, _⟩ := (r.shared others).calls_course migrations ⟨state, 0⟩
    rw [cut] at answers
    have answered : ((r.store.shared others).answer (.swap (written loaded before) next)
        ((r.store.shared others).after ⟨state, 0⟩ before)).1 = answer := answers.answered
    refine ⟨_, _, rfl, rfl, ?_⟩
    rw [Store.after_concat]
    exact fair.served answered

/-- A run in whose middle another writer empties the ledger ends with a conflict, behind a rollback
where the write that meets the other ledger is the one of a replay. -/
theorem never_overwrites_others_sample :
    let recorded : Ledger := ⟨[Sample.people], by decide⟩
    let applying := (Sample.reconciler false).shared Sample.emptied
    let replaying := (Sample.reconciler true).shared Sample.emptied
    Memory.store.ComparesAndSwaps Memory.ledger ∧
    (Memory.store.load (Sample.emptied 0 (Memory.withLedger Sample.ledger))).1 =
      .ok Sample.ledger ∧
    applying.result [Sample.users] ⟨Memory.withLedger Sample.ledger, 0⟩ =
      .error .ledgerConflict ∧
    (Memory.store.load (Sample.emptied 0 (Memory.withLedger recorded))).1 = .ok recorded ∧
    replaying.result [Sample.users] ⟨Memory.withLedger recorded, 0⟩ = .error .ledgerConflict ∧
    ∃ before next rollback, openAfter false before = true ∧
      replaying.calls [Sample.users] ⟨Memory.withLedger recorded, 0⟩ =
        before ++ [⟨.swap recorded next, some .ledgerConflict⟩,
          ⟨.transact .rollback, rollback⟩] := by
  intro recorded applying replaying
  -- The script has been run when the write meets the ledger of the other writer.
  have cut : ∃ next after, applying.calls [Sample.users] ⟨Memory.withLedger Sample.ledger, 0⟩ =
      [⟨.load, none⟩, ⟨.execute "create users", none⟩] ++
        ⟨.swap Sample.ledger next, some .ledgerConflict⟩ :: after :=
    ⟨⟨[Sample.legacy, Sample.users.stamped Sample.epoch], by decide⟩, [], by decide +kernel⟩
  obtain ⟨next, after, cut⟩ := cut
  have outside := never_overwrites_others (Sample.reconciler false) [Sample.users]
    (Memory.withLedger Sample.ledger) Sample.emptied Memory.store_comparesAndSwaps
  -- The transaction of the replay is open when its write meets that ledger.
  have replayed : ∃ next after, replaying.calls [Sample.users] ⟨Memory.withLedger recorded, 0⟩ =
      [⟨.load, none⟩, ⟨.transact .begin, none⟩, ⟨.transact (.savepoint replaySavepoint), none⟩,
        ⟨.execute "drop people", none⟩, ⟨.transact (.release replaySavepoint), none⟩,
        ⟨.execute "create users", none⟩] ++
        ⟨.swap recorded next, some .ledgerConflict⟩ :: after :=
    ⟨⟨[Sample.users.stamped Sample.epoch], by decide⟩, [⟨.transact .rollback, none⟩],
      by decide +kernel⟩
  obtain ⟨offered, closing, replayed⟩ := replayed
  have inside := never_overwrites_others (Sample.reconciler true) [Sample.users]
    (Memory.withLedger recorded) Sample.emptied Memory.store_comparesAndSwaps
  obtain ⟨failed, ends⟩ := (inside.2 recorded rfl).2.1 _ _ _ _ replayed
  -- A failed write leaves two ways to end, of which only a rollback is open here.
  rcases ends with ⟨closed, -⟩ | ⟨unfinished, rollback, rfl⟩
  · cases closed
  · exact ⟨Memory.store_comparesAndSwaps, rfl,
      ((outside.2 Sample.ledger rfl).2.1 _ _ _ _ cut).1, rfl, failed,
      _, offered, rollback, unfinished, replayed⟩

end Reconciler

end SchemaLedger
