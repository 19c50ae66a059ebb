import SchemaLedger.Proofs.Reconcile.Course
import SchemaLedger.Proofs.Reconcile.History

/-! The calls of a replay: one transaction, which is closed once and writes one ledger at most. -/

namespace SchemaLedger

open Reconciler (replaySavepoint)

/-- A call that may stand within a transaction: it neither loads nor opens or closes anything. -/
def Call.isInner : Call → Bool
  | .load | .transact .begin | .transact .commit | .transact .rollback => false
  | _ => true

/-- Answers to calls that all succeeded. -/
def succeeded (calls : List Call) : List CallRecord := calls.map fun call => ⟨call, none⟩

/-- A call that divides a transaction at most leaves it open, or closed, as it was. -/
theorem CallRecord.leavesOpen_of_inner {record : CallRecord} (inner : record.call.isInner = true)
    (isOpen : Bool) : record.leavesOpen isOpen = isOpen := by
  -- Only the three steps that are no inner calls would change anything.
  rcases record with ⟨call, failure⟩
  cases call with
  | transact step => cases step <;> first | rfl | cases inner
  | _ => rfl

/-- A transaction stays open, or closed, as long as no call opens or closes one. -/
theorem History.openAfter_of_inner {calls : List CallRecord} {isOpen : Bool}
    (inner : ∀ record ∈ calls, record.call.isInner = true) : openAfter isOpen calls = isOpen := by
  -- The induction passes the transaction on from call to call, open or not.
  induction calls with
  | nil => rfl
  | cons record rest ih =>
    have kept := record.leavesOpen_of_inner (inner record List.mem_cons_self) isOpen
    show openAfter (record.leavesOpen isOpen) rest = isOpen
    rw [kept]
    exact ih fun other member => inner other (List.mem_cons_of_mem _ member)

namespace Attempts

variable {name : String} {made : List CallRecord} {failure : Option MigrationError}

/-- A single call is made in any case, and decides how the attempt ends. -/
theorem of_swap {ledger next : Ledger} (attempts : Attempts name [.swap ledger next] made failure) :
    made = [⟨.swap ledger next, failure⟩] := by
  cases attempts with
  | next rest =>
    -- Nothing is left to be called once the write has succeeded.
    cases rest
    rfl
  | failed => rfl

/-- A ledger is written behind a script, provided that the script succeeds. -/
theorem of_script {script : String} {ledger next : Ledger}
    (attempts : Attempts name [.execute script, .swap ledger next] made failure) :
    (∃ error, made = [⟨.execute script, some error⟩] ∧
      failure = some (.scriptFailed name script error)) ∨
    made = [⟨.execute script, none⟩, ⟨.swap ledger next, failure⟩] := by
  -- The script fails and is the only call, or the write is attempted as well.
  cases attempts with
  | next rest => exact .inr (by rw [rest.of_swap])
  | failed call later error => exact .inl ⟨error, rfl, rfl⟩

end Attempts

namespace Transacted

variable {name : String} {calls : List Call} {made : List CallRecord}
  {failure : Option MigrationError}

/-- A transaction that does not fail makes all the calls and is committed. -/
theorem made_of_success (transacted : Transacted name calls made none) :
    made = succeeded calls ++ [⟨.transact .commit, none⟩] := by
  -- The induction is on the calls, each of which must have succeeded.
  generalize outcome : (none : Option MigrationError) = ended at transacted
  induction transacted with
  | committed => rfl
  | uncommitted => cases outcome
  | next _ ih => rw [ih outcome]; rfl
  | rolledBack => cases outcome

/-- A transaction makes the calls in order, up to some point, and is then closed by one more. -/
theorem calls_prefix (transacted : Transacted name calls made failure) :
    ∃ body closing, made = body ++ [closing] ∧ body.map (·.call) <+: calls ∧
      (closing.call = .transact .commit ∨ closing.call = .transact .rollback) := by
  -- The induction passes by the calls that succeed, and ends with a commit or a rollback.
  induction transacted with
  | committed => exact ⟨[], _, rfl, List.prefix_rfl, .inl rfl⟩
  | uncommitted error => exact ⟨[], _, rfl, List.prefix_rfl, .inl rfl⟩
  | @next call later made failure _ ih =>
    obtain ⟨body, closing, rfl, ordered, closes⟩ := ih
    exact ⟨⟨call, none⟩ :: body, closing, rfl, by simpa using ordered, closes⟩
  | rolledBack call later error rollback =>
    exact ⟨[⟨call, some error⟩], _, rfl, by simp, .inr rfl⟩

/-- A transaction attempts the writes among its calls, up to some point. -/
theorem swaps_prefix (transacted : Transacted name calls made failure) :
    History.swaps made <+: History.swaps (succeeded calls) := by
  -- The call that fails still attempts its write, and those behind it are never made.
  induction transacted with
  | committed | uncommitted => exact List.prefix_rfl
  | next _ ih => exact List.prefix_append_right_inj _ |>.mpr ih
  | rolledBack call later error rollback =>
    cases call with
    | swap expected next => exact ⟨History.swaps (succeeded later), rfl⟩
    | _ => exact List.nil_prefix

/-- Behind a call that fails there is only a rollback, and the failure is the one reported. -/
theorem failed_last (transacted : Transacted name calls made failure)
    {before after : List CallRecord} {call : Call} {error : MigrationError}
    (cut : made = before ++ ⟨call, some error⟩ :: after) :
    (after = [] ∧ (call = .transact .commit ∨ call = .transact .rollback)) ∨
      (failure = some (call.blame name error) ∧
        ∃ rollback, after = [⟨.transact .rollback, rollback⟩]) := by
  -- A commit that fails is the last call.
  induction transacted generalizing before with
  | committed =>
    -- A commit that succeeds is no call that fails.
    cases before <;> simp_all
  | uncommitted refused =>
    cases before with
    | nil =>
      simp only [List.nil_append, List.cons.injEq] at cut
      obtain ⟨same, rfl⟩ := cut
      cases same
      exact .inl ⟨rfl, .inl rfl⟩
    | cons head rest => simp at cut
  | next _ ih =>
    cases before with
    | nil => simp at cut
    | cons head rest =>
      simp only [List.cons_append, List.cons.injEq] at cut
      exact ih cut.2
  | rolledBack other later refused rollback =>
    -- Either the call that failed is meant, or the rollback behind it.
    cases before with
    | nil =>
      simp only [List.nil_append, List.cons.injEq] at cut
      obtain ⟨same, rfl⟩ := cut
      cases same
      exact .inr ⟨rfl, rollback, rfl⟩
    | cons head rest =>
      simp only [List.cons_append, List.cons.injEq] at cut
      cases rest with
      | nil =>
        simp only [List.nil_append, List.cons.injEq] at cut
        obtain ⟨_, same, rfl⟩ := cut
        cases same
        exact .inl ⟨rfl, .inr rfl⟩
      | cons head rest => simp at cut

/-- A transaction fails with the error of one of its calls. -/
theorem blamed {error : MigrationError} (transacted : Transacted name calls made (some error)) :
    ∃ call cause, ⟨call, some cause⟩ ∈ made ∧ error = call.blame name cause := by
  -- Calls that succeed are not to blame.
  -- The induction looks for the call that failed.
  generalize outcome : some error = ended at transacted
  induction transacted with
  | committed => cases outcome
  | uncommitted refused =>
    cases outcome
    exact ⟨.transact .commit, error, List.mem_cons_self, rfl⟩
  | next _ ih =>
    obtain ⟨call, cause, member, same⟩ := ih outcome
    exact ⟨call, cause, List.mem_cons_of_mem _ member, same⟩
  | rolledBack call later refused rollback =>
    cases outcome
    exact ⟨call, refused, List.mem_cons_self, rfl⟩

end Transacted

namespace Replays

variable {stored current : Migration} {ledger next : Ledger} {made : List CallRecord}
  {failure : Option MigrationError}

/-- A replay opens a transaction, makes calls within it and closes it once. -/
theorem bracketed (replays : Replays stored current ledger next made failure) :
    (∃ error, made = [⟨.transact .begin, some error⟩]) ∨
    ∃ body closing, made = ⟨.transact .begin, none⟩ :: (body ++ [closing]) ∧
      (∀ record ∈ body, record.call.isInner = true) ∧
      (closing.call = .transact .commit ∨ closing.call = .transact .rollback) := by
  -- A replay that cannot set its savepoint is rolled back at once.
  -- The calls behind the stored down script are inner ones, whichever of the two lists is taken.
  have behind : ∀ {calls others ended}, (∀ call ∈ calls, call.isInner = true) →
      Transacted current.name calls others ended → ∀ answer : Option MigrationError,
      ∃ body closing, ⟨.transact (.savepoint replaySavepoint), none⟩ ::
          ⟨.execute stored.down, answer⟩ :: others = body ++ [closing] ∧
        (∀ record ∈ body, record.call.isInner = true) ∧
        (closing.call = .transact .commit ∨ closing.call = .transact .rollback) := by
    intro calls others ended allowed transacted answer
    obtain ⟨body, closing, rfl, ordered, closes⟩ := transacted.calls_prefix
    refine ⟨⟨.transact (.savepoint replaySavepoint), none⟩ :: ⟨.execute stored.down, answer⟩ ::
      body, closing, rfl, ?_, closes⟩
    intro record member
    rcases List.mem_cons.mp member with rfl | member
    · rfl
    rcases List.mem_cons.mp member with rfl | member
    · rfl
    exact allowed _ (ordered.subset (List.mem_map.mpr ⟨record, member, rfl⟩))
  cases replays with
  | unopened error => exact .inl ⟨error, rfl⟩
  | unguarded error rollback =>
    exact .inr ⟨[⟨.transact (.savepoint replaySavepoint), some error⟩], _, rfl,
      by simp [Call.isInner], .inr rfl⟩
  | reverted rest =>
    obtain ⟨body, closing, same, inner, closes⟩ :=
      behind (by simp [callsAfterRevert, Call.isInner]) rest none
    exact .inr ⟨body, closing, by rw [same], inner, closes⟩
  | fellBack error rest =>
    obtain ⟨body, closing, same, inner, closes⟩ :=
      behind (by simp [callsAfterFallback, Call.isInner]) rest (some error)
    exact .inr ⟨body, closing, by rw [same], inner, closes⟩

/-- A transaction is open before each call of a replay but the first. -/
theorem open_within {inner rest : List CallRecord} {record : CallRecord}
    (replays : Replays stored current ledger next (inner ++ record :: rest) failure) :
    inner = [] ∧ record.call = .transact .begin ∨ History.openAfter false inner = true := by
  rcases replays.bracketed with ⟨error, cut⟩ | ⟨body, closing, cut, allowed, _⟩
  · -- A transaction that cannot be opened leaves no other call.
    cases inner with
    | nil => simp at cut; simp [cut]
    | cons head inner => simp at cut
  · cases inner with
    | nil =>
      simp only [List.nil_append, List.cons.injEq] at cut
      exact .inl ⟨rfl, by rw [cut.1]⟩
    | cons head inner =>
      simp only [List.cons_append, List.cons.injEq] at cut
      obtain ⟨rfl, cut⟩ := cut
      -- The call at hand is the closing one or stands before it, so those before it are inner.
      have early : inner <+: body := by
        refine List.prefix_of_prefix_length_le ⟨record :: rest, cut⟩ ⟨[closing], rfl⟩ ?_
        have lengths := congrArg List.length cut
        simp only [List.length_append, List.length_cons, List.length_nil] at lengths
        omega
      exact .inr (History.openAfter_of_inner fun other member => allowed other (early.subset member))

/-- No transaction is open behind a replay. -/
theorem closed (replays : Replays stored current ledger next made failure) :
    History.openAfter false made = false := by
  -- A transaction that was not opened need not be closed.
  rcases replays.bracketed with ⟨error, rfl⟩ | ⟨body, ⟨call, answer⟩, rfl, _, closes⟩
  · rfl
  · -- The last call closes the transaction, even if it fails.
    rw [← List.cons_append, History.openAfter_append]
    rcases closes with rfl | rfl <;> rfl

/-- A replay fails with the error of one of its calls. -/
theorem blamed {error : MigrationError}
    (replays : Replays stored current ledger next made (some error)) :
    ∃ call cause, ⟨call, some cause⟩ ∈ made ∧ error = call.blame current.name cause := by
  -- Either the transaction or the savepoint could not be set up, or a later call has failed.
  cases replays with
  | unopened => exact ⟨.transact .begin, error, List.mem_cons_self, rfl⟩
  | unguarded _ rollback =>
    exact ⟨.transact (.savepoint replaySavepoint), error, by simp, rfl⟩
  | reverted rest | fellBack _ rest =>
    obtain ⟨call, cause, member, same⟩ := rest.blamed
    exact ⟨call, cause, by simp [member], same⟩

/-- None of the scripts of a replay is executed outside its transaction. -/
theorem lasting_eq_nil {inner rest : List CallRecord}
    (replays : Replays stored current ledger next (inner ++ rest) failure) :
    History.lasting false inner = [] := by
  -- Scripts are not the first call, and the transaction is open before all others.
  refine History.lasting_of_open fun before script after cut => ?_
  subst cut
  rw [List.append_assoc] at replays
  rcases replays.open_within with ⟨_, impossible⟩ | opened
  · cases impossible
  · exact opened

/-- A replay attempts at most one write. -/
theorem swaps_cases (replays : Replays stored current ledger next made failure) :
    History.swaps made = [] ∨ History.swaps made = [(ledger, next)] := by
  -- Both lists of calls end with the same write, and hold no other.
  have behind : ∀ {calls others ended}, History.swaps (succeeded calls) = [(ledger, next)] →
      Transacted current.name calls others ended →
      History.swaps others = [] ∨ History.swaps others = [(ledger, next)] := by
    intro calls others ended single transacted
    have ordered := transacted.swaps_prefix
    rw [single] at ordered
    rcases List.prefix_cons_iff.mp ordered with none | ⟨more, same, nothing⟩
    · exact .inl none
    · exact .inr (by rw [same, List.prefix_nil.mp nothing])
  cases replays with
  | unopened | unguarded => exact .inl rfl
  | reverted rest | fellBack _ rest =>
    -- The calls in front of these write nothing.
    have single := behind rfl rest
    exact single

/-- A replay that does not fail has written its ledger. -/
theorem written_of_success (replays : Replays stored current ledger next made none) :
    History.written ledger made = next := by
  cases replays with
  | reverted rest | fellBack _ rest =>
    -- Whichever list of calls has been made, the write stands right before the commit.
    rw [rest.made_of_success]
    rfl

/--
What follows a call of a replay that fails.

Nothing follows where no transaction was opened, or where it was closed by the call itself.
A failure of the stored down script is undone, and any other failure is followed by a rollback.
-/
theorem after_failure {inner rest : List CallRecord} {call : Call} {error : MigrationError}
    (replays : Replays stored current ledger next (inner ++ ⟨call, some error⟩ :: rest) failure) :
    (inner = [] ∧ call = .transact .begin ∧ rest = []) ∨
    (rest = [] ∧ (call = .transact .commit ∨ call = .transact .rollback)) ∨
    (call = .execute stored.down ∧ ∃ answer later,
      rest = ⟨.transact (.rollbackTo replaySavepoint), answer⟩ :: later) ∨
    (failure = some (call.blame current.name error) ∧
      ∃ rollback, rest = [⟨.transact .rollback, rollback⟩]) := by
  -- The failing call is searched for among the calls of each kind of replay.
  generalize whole : inner ++ ⟨call, some error⟩ :: rest = made at replays
  cases replays with
  | unopened refused =>
    cases inner with
    | nil =>
      simp only [List.nil_append, List.cons.injEq, CallRecord.mk.injEq] at whole
      exact .inl ⟨rfl, whole.1.1, whole.2⟩
    | cons head inner => simp at whole
  | unguarded refused rollback =>
    -- The savepoint and the rollback behind it are the only calls that can have failed.
    rcases inner with _ | ⟨first, _ | ⟨second, _ | ⟨third, inner⟩⟩⟩
    · simp at whole
    · -- The savepoint has failed, and is followed by the rollback.
      simp only [List.cons_append, List.nil_append, List.cons.injEq, CallRecord.mk.injEq,
        Option.some.injEq] at whole
      obtain ⟨_, ⟨rfl, rfl⟩, rfl⟩ := whole
      exact .inr (.inr (.inr ⟨rfl, rollback, rfl⟩))
    · simp only [List.cons_append, List.nil_append, List.cons.injEq, CallRecord.mk.injEq] at whole
      obtain ⟨_, _, ⟨rfl, _⟩, rfl⟩ := whole
      exact .inr (.inl ⟨rfl, .inr rfl⟩)
    · simp at whole
  | reverted transacted =>
    rcases inner with _ | ⟨first, _ | ⟨second, _ | ⟨third, inner⟩⟩⟩
    · simp at whole
    · simp at whole
    · simp at whole
    · simp only [List.cons_append, List.cons.injEq] at whole
      rcases transacted.failed_last whole.2.2.2.symm with ⟨last, closes⟩ | reported
      · exact .inr (.inl ⟨last, closes⟩)
      · exact .inr (.inr (.inr reported))
  | fellBack refused transacted =>
    rcases inner with _ | ⟨first, _ | ⟨second, _ | ⟨third, inner⟩⟩⟩
    · simp at whole
    · simp at whole
    · -- The stored down script failed, and the first of the calls behind it undoes that.
      simp only [List.cons_append, List.nil_append, List.cons.injEq, CallRecord.mk.injEq] at whole
      obtain ⟨_, _, ⟨rfl, _⟩, rfl⟩ := whole
      cases transacted with
      | next others => exact .inr (.inr (.inl ⟨rfl, _, _, rfl⟩))
      | rolledBack => exact .inr (.inr (.inl ⟨rfl, _, _, rfl⟩))
    · simp only [List.cons_append, List.cons.injEq] at whole
      rcases transacted.failed_last whole.2.2.2.symm with ⟨last, closes⟩ | reported
      · exact .inr (.inl ⟨last, closes⟩)
      · exact .inr (.inr (.inr reported))

end Replays

end SchemaLedger
