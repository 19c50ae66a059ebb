import SchemaLedger.Proofs.Reconcile.Calls

/-! A run opens one transaction at most, for a replay at its end, and follows its protocol. -/

namespace SchemaLedger

open History
open Reconciler (replaySavepoint)

/-- A call closes the transaction it is made in, even if it fails. -/
def Call.closes : Call → Bool
  | .transact .commit | .transact .rollback => true
  | _ => false

/-- What closes a transaction is a step of it. -/
theorem Call.step_of_closes {call : Call} (closes : call.closes = true) :
    ∃ step, call = .transact step := by
  -- Commit and rollback are steps of a transaction, and other calls close nothing.
  cases call with
  | transact step => exact ⟨step, rfl⟩
  | _ => cases closes

/-- No call is a step of a transaction. -/
def Stepless (calls : List CallRecord) : Prop :=
  ∀ record ∈ calls, ∀ step, record.call ≠ .transact step

/-- Without steps of a transaction none is opened, and none is closed. -/
theorem Stepless.openAfter {calls : List CallRecord} {isOpen : Bool} (stepless : Stepless calls) :
    openAfter isOpen calls = isOpen := by
  -- None of the calls changes whether a transaction is open.
  induction calls with
  | nil => rfl
  | cons record rest ih =>
    have kept : record.leavesOpen isOpen = isOpen := by
      -- A call that is no step of a transaction leaves it as it is.
      rcases record with ⟨call, failure⟩
      cases call with
      | transact step => exact absurd rfl (stepless _ List.mem_cons_self step)
      | _ => rfl
    show History.openAfter (record.leavesOpen isOpen) rest = isOpen
    rw [kept]
    exact ih fun other member => stepless other (List.mem_cons_of_mem _ member)

/-- Without steps of a transaction none is attempted to be opened or closed. -/
theorem Stepless.counts {calls : List CallRecord} (stepless : Stepless calls) :
    calls.countP (·.call = .transact .begin) = 0 ∧
      calls.countP (· = ⟨.transact .begin, none⟩) = 0 ∧ calls.countP (·.call.closes) = 0 := by
  -- Whatever is counted in one of these ways is a step of a transaction.
  refine ⟨List.countP_eq_zero.mpr fun record member counted => ?_,
    List.countP_eq_zero.mpr fun record member counted => ?_,
    List.countP_eq_zero.mpr fun record member counted => ?_⟩
  · exact stepless record member .begin (of_decide_eq_true counted)
  · exact stepless record member .begin (by rw [of_decide_eq_true counted])
  · obtain ⟨step, same⟩ := Call.step_of_closes counted
    exact stepless record member step same

/-- Only a replay takes steps of a transaction. -/
theorem Move.Calls.replay_of_step {ledger next : Ledger} {move : Move} {made : List CallRecord}
    {failure : Option MigrationError} (calls : move.Calls ledger next made failure)
    {record : CallRecord} (member : record ∈ made) {step : Transaction}
    (same : record.call = .transact step) :
    ∃ stored current, move = .replay stored current ∧
      Replays stored current ledger next made failure := by
  -- The other moves only execute scripts and write ledgers.
  rcases calls.shape with ⟨script, error, _, rfl, _⟩ | ⟨script, _, rfl⟩ | ⟨_, _, _, rfl⟩ | replays
  · obtain rfl := List.mem_singleton.mp member
    cases same
  · simp only [List.mem_cons, List.not_mem_nil, or_false] at member
    rcases member with rfl | rfl <;> cases same
  · obtain rfl := List.mem_singleton.mp member
    cases same
  · exact replays

/-- Moves among which there is no replay take no steps of a transaction. -/
theorem Follows.stepless {ledger : Ledger} {moves : List Move} {made : List CallRecord}
    {outcome : Except MigrationError Ledger} (follows : Follows ledger moves made outcome)
    (plain : ∀ stored current, .replay stored current ∉ moves) : Stepless made := by
  -- A step would have to belong to one of the moves, which would be a replay.
  induction follows with
  | done | refused => exact fun record member => by cases member
  | next _ calls _ ih =>
    intro record member step same
    rcases List.mem_append.mp member with first | later
    · obtain ⟨stored, current, rfl, _⟩ := calls.replay_of_step first same
      exact plain stored current List.mem_cons_self
    · exact ih (fun stored current planned => plain stored current
        (List.mem_cons_of_mem _ planned)) record later step same
  | stopped _ calls =>
    intro record member step same
    -- A step among the calls of a move makes it a replay, which is none of the moves.
    obtain ⟨stored, current, rfl, _⟩ := calls.replay_of_step member same
    exact plain stored current List.mem_cons_self

/-- Moves among which there is neither a replay nor a refusal fail with the last of their calls. -/
theorem Follows.failed_last {ledger : Ledger} {moves : List Move} {made : List CallRecord}
    {error : MigrationError} (failed : Follows ledger moves made (.error error))
    (plain : ∀ stored current, .replay stored current ∉ moves)
    (permitted : ∀ current, .refuse current ∉ moves) :
    ∃ before call cause, made = before ++ [⟨call, some cause⟩] := by
  -- The moves before the one that fails have succeeded, and their calls come first.
  generalize reached : (.error error : Except MigrationError Ledger) = ended at failed
  induction failed with
  | done => cases reached
  | @next _ _ _ _ made _ _ _ _ _ ih =>
    obtain ⟨before, call, cause, rfl⟩ := ih
      (fun stored current planned => plain stored current (List.mem_cons_of_mem _ planned))
      (fun current planned => permitted current (List.mem_cons_of_mem _ planned)) reached
    exact ⟨made ++ before, call, cause, by rw [List.append_assoc]⟩
  | stopped _ calls =>
    -- Either the script has failed, or the write behind it.
    rcases calls.shape with ⟨script, cause, _, rfl, _⟩ | ⟨script, _, rfl⟩ | ⟨_, _, _, rfl⟩ |
      ⟨stored, current, rfl, _⟩
    · exact ⟨[], _, cause, rfl⟩
    · exact ⟨[⟨.execute script, none⟩], _, _, rfl⟩
    · exact ⟨[], _, _, rfl⟩
    · exact absurd List.mem_cons_self (plain stored current)
  | refused _ current => exact absurd List.mem_cons_self (permitted current)

/-- The transaction of a replay is opened by the first of its calls. -/
theorem Replays.begins {stored current : Migration} {ledger next : Ledger}
    {inner rest : List CallRecord} {answer failure : Option MigrationError}
    (replays : Replays stored current ledger next (inner ++ ⟨.transact .begin, answer⟩ :: rest)
      failure) : inner = [] := by
  cases inner with
  | nil => rfl
  | cons head inner =>
    -- With another call in front the step would be a second one of its kind.
    rcases replays.bracketed with ⟨error, cut⟩ | ⟨body, closing, cut, allowed, closes⟩
    · simp at cut
    · rw [List.cons_append, List.cons.injEq] at cut
      -- Neither the calls within the transaction nor the one that closes it open another one.
      have member : ⟨.transact .begin, answer⟩ ∈ body ++ [closing] := by
        rw [← cut.2]
        exact List.mem_append_right _ List.mem_cons_self
      rcases List.mem_append.mp member with inside | last
      · cases allowed _ inside
      · rw [← List.mem_singleton.mp last] at closes
        rcases closes with other | other <;> cases other

/-- A replay begins by opening its transaction. -/
theorem Replays.opens {stored current : Migration} {ledger next : Ledger}
    {made : List CallRecord} {failure : Option MigrationError}
    (replays : Replays stored current ledger next made failure) :
    ∃ answer, ⟨.transact .begin, answer⟩ ∈ made := by
  -- A replay begins with the step, whether the step itself fails or not.
  rcases replays.bracketed with ⟨error, rfl⟩ | ⟨body, closing, rfl, -⟩
  · exact ⟨some error, by simp⟩
  · exact ⟨none, by simp⟩

/-- A replay opens its transaction first, and closes it exactly if it could be opened. -/
theorem Replays.counts {stored current : Migration} {ledger next : Ledger} {made : List CallRecord}
    {failure : Option MigrationError} (replays : Replays stored current ledger next made failure) :
    made.countP (·.call = .transact .begin) = 1 ∧
      made.countP (·.call.closes) = made.countP (· = ⟨.transact .begin, none⟩) := by
  rcases replays.bracketed with ⟨error, rfl⟩ | ⟨body, closing, rfl, inner, closes⟩
  · exact ⟨rfl, rfl⟩
  · -- The calls in between neither open a transaction nor close one.
    have between : ∀ {kind : CallRecord → Bool},
        (∀ record, kind record = true → record.call.isInner = false) → body.countP kind = 0 := by
      intro kind outer
      refine List.countP_eq_zero.mpr fun record member counted => ?_
      have allowed := inner record member
      rw [outer record counted] at allowed
      cases allowed
    have opening : body.countP (·.call = .transact .begin) = 0 :=
      between fun record same => by rw [of_decide_eq_true same]; rfl
    have opened : body.countP (· = ⟨.transact .begin, none⟩) = 0 :=
      between fun record same => by rw [of_decide_eq_true same]; rfl
    have closed : body.countP (·.call.closes) = 0 := by
      refine between fun record same => ?_
      generalize record.call = call at same
      cases call with
      | transact step => cases step <;> first | rfl | cases same
      | _ => cases same
    -- So only the first call and the last one are counted.
    rcases closing with ⟨call, answer⟩
    simp only [List.countP_cons, List.countP_append, List.countP_nil, opening, opened, closed]
    rcases closes with rfl | rfl <;> simp [Call.closes]

namespace Plan

variable {ledger : Ledger} {migrations : List Migration} {stored current : Migration}

/-- The moves that a run makes in development before it comes to the last migration. -/
def passes (ledger : Ledger) (migrations : List Migration) : List Move :=
  (Status.orphans ledger migrations).map .revert ++ (pending ledger migrations).map .append

/-- In development a changed migration is replayed behind the reverts and the applications. -/
theorem moves_of_replay (final : migrations.getLast? = some current)
    (found : ledger.get? current.name = some stored) (differs : stored.up ≠ current.up) :
    moves true ledger migrations = passes ledger migrations ++ [.replay stored current] := by
  have drifted : last true ledger migrations = [.replay stored current] := by
    simp [last, final, found, drift, differs]
  -- The plan joins its parts from the right, and the replay is the last of them.
  rw [moves, locals, drifted, ← List.append_assoc]
  rfl

/-- Loading the ledger opens no transaction, and neither do the moves before a replay. -/
theorem stepless_passes {made : List CallRecord} {outcome : Except MigrationError Ledger}
    (follows : Follows ledger (passes ledger migrations) made outcome) :
    Stepless (⟨.load, none⟩ :: made) := by
  -- Only replays take steps of a transaction, and a pass holds none.
  have plain : ∀ stored current, .replay stored current ∉ passes ledger migrations := by
    simp [passes]
  intro record member step same
  rcases List.mem_cons.mp member with rfl | inside
  · cases same
  · exact follows.stepless plain record inside step same

end Plan

namespace Reconciler

variable {σ : Type} (r : Reconciler σ) (migrations : List Migration) (state : σ)

/--
A replay that a run makes at its end.

Only development allows it, and only for a last local migration with another up script than recorded.
-/
structure EndsWithReplay (before made : List CallRecord) : Prop where
  whole : r.calls migrations state = before ++ made
  allowed : r.development = true
  stepless : Stepless before
  replayed : ∃ sorted loaded current stored time failure,
    canonicalOrder migrations = .ok sorted ∧ (r.store.load state).1 = .ok loaded ∧
    sorted.getLast? = some current ∧ loaded.get? current.name = some stored ∧
    stored.up ≠ current.up ∧
    Replays stored current (written loaded before)
      ((written loaded before).replace (current.stamped time)) made failure ∧
    ∀ error, failure = some error → r.result migrations state = .error error

/-- A run takes no steps of a transaction, or it ends with a replay. -/
theorem stepless_or_replay :
    Stepless (r.calls migrations state) ∨
      ∃ before made, r.EndsWithReplay migrations state before made := by
  -- If there is any step at all, the place of its call shows that a replay is under way.
  by_cases steps : ∃ record ∈ r.calls migrations state, ∃ step, record.call = .transact step
  swap
  · exact .inl fun record member step same => steps ⟨record, member, step, same⟩
  obtain ⟨record, member, step, same⟩ := steps
  -- A step of a transaction is taken only once the ledger is loaded.
  have later : record.call ≠ .load := by
    rw [same]
    simp
  obtain ⟨sorted, loaded, ordered, opened⟩ := opened_of_mem member later
  obtain ⟨before, after, cut⟩ := List.append_of_mem member
  obtain ⟨seen, outcome, rfl, place, ended⟩ :=
    placed ordered opened cut later
  cases place with
  | @place done later move current next earlier inner rest tail failure planned past future reached
      writes calls goesOn ends =>
    obtain ⟨stored, latest, rfl, replays⟩ :=
      calls.replay_of_step (List.mem_append_right _ List.mem_cons_self) same
    -- The replay is the last move of the plan, and only applications and reverts come before it.
    obtain ⟨rfl, single, front⟩ := Plan.last_of_silent planned rfl
    have quiet : tail = [] := by
      -- Nothing is called behind the last move, whether or not it fails.
      cases failure with
      | none =>
        cases goesOn rfl
        rfl
      | some error => exact (ends error rfl).1
    have plain : ∀ stored current, Move.replay stored current ∉ done := by
      intro other another planned
      rw [front] at planned
      rcases List.mem_append.mp planned with reverting | applying
      · obtain ⟨_, _, _, impossible⟩ := Plan.mem_reverts reverting
        cases impossible
      · obtain ⟨_, _, impossible⟩ := List.mem_map.mp applying
        cases impossible
    -- The replay is planned only for a change that development allows.
    obtain ⟨allowed, lastOne, found, changed⟩ := Plan.of_last_eq_replay single
    have current_written : written loaded (⟨.load, none⟩ :: earlier) = current := by
      rw [written_load, reached.written]
    refine .inr ⟨⟨.load, none⟩ :: earlier, inner ++ record :: rest, ?_, ?_, ?_, ?_⟩
    · rw [cut, past, future, quiet, List.append_nil, List.cons_append, List.cons_append,
        List.append_assoc]
    · exact allowed
    · intro other member step same
      rcases List.mem_cons.mp member with rfl | inside
      · cases same
      · exact reached.stepless plain other inside step same
    · cases writes with
      | replay _ _ time =>
        subst current_written
        exact ⟨sorted, loaded, latest, stored, time, failure, ordered, opened, lastOne, found,
          changed, replays, fun error failed => ended error (ends error failed).2⟩

/--
The replay of a run follows the protocol of its transaction, whatever fails.

The transaction is opened at most once, at the end of the run, and it is closed exactly once.
Behind a call that fails within it nothing is run before a rollback, of all of it or of a part.
-/
theorem replay_protocol :
    (Stepless (r.calls migrations state) ∨
      ∃ before made, r.EndsWithReplay migrations state before made) ∧
    (r.calls migrations state).countP (·.call = .transact .begin) ≤ 1 ∧
    (r.calls migrations state).countP (·.call.closes) =
      (r.calls migrations state).countP (· = ⟨.transact .begin, none⟩) ∧
    openAfter false (r.calls migrations state) = false ∧
    ∀ before call error after,
      r.calls migrations state = before ++ ⟨call, some error⟩ :: after →
      openAfter false before = true →
      (after = [] ∧ (call = .transact .commit ∨ call = .transact .rollback)) ∨
      (∃ answer later, after = ⟨.transact (.rollbackTo replaySavepoint), answer⟩ :: later) ∨
      ∃ answer, after = [⟨.transact .rollback, answer⟩] := by
  refine ⟨r.stepless_or_replay migrations state, ?_⟩
  rcases r.stepless_or_replay migrations state with stepless | ⟨earlier, made, ends⟩
  · obtain ⟨none_opening, none_opened, none_closed⟩ := stepless.counts
    refine ⟨by omega, by omega, stepless.openAfter, ?_⟩
    intro before call error after cut inside
    -- No transaction is ever open, so no call fails within one.
    have outside : Stepless before := fun record member =>
      stepless record (by rw [cut]; exact List.mem_append_left _ member)
    rw [outside.openAfter] at inside
    cases inside
  · -- Only the calls of the replay count, because those before it are no steps.
    obtain ⟨sorted, loaded, current, stored, time, failure, _, _, _, _, _, replays, _⟩ :=
      ends.replayed
    obtain ⟨one, closed⟩ := replays.counts
    obtain ⟨none_opening, none_opened, none_closed⟩ := ends.stepless.counts
    rw [ends.whole]
    simp only [List.countP_append, openAfter_append, ends.stepless.openAfter]
    refine ⟨by omega, by omega, replays.closed, ?_⟩
    intro before call error after cut inside
    -- A failing call within the transaction can only be one of the replay.
    rcases List.append_eq_append_iff.mp cut with ⟨inner, rfl, rfl⟩ | ⟨between, rfl, _⟩
    · rw [openAfter_append, ends.stepless.openAfter] at inside
      rcases replays.after_failure with ⟨rfl, _, _⟩ | closing | ⟨_, undone⟩ | ⟨_, rolledBack⟩
      · cases inside
      · exact .inl closing
      · exact .inr (.inl undone)
      · exact .inr (.inr rolledBack)
    · -- Before the replay no transaction is open.
      have outside : Stepless before := fun record member =>
        ends.stepless record (List.mem_append_left _ member)
      rw [outside.openAfter] at inside
      cases inside

/--
A run in development replays a last migration whose up script has changed since it was recorded.

Only a call that fails can keep it from that, and such a call ends the run outside any transaction.
-/
theorem changed_replayed {sorted : List Migration} {loaded : Ledger} {stored current : Migration}
    (development : r.development = true) (ordered : canonicalOrder migrations = .ok sorted)
    (opened : (r.store.load state).1 = .ok loaded) (final : sorted.getLast? = some current)
    (found : loaded.get? current.name = some stored) (differs : stored.up ≠ current.up) :
    (∃ before made, r.EndsWithReplay migrations state before made ∧
      ∃ answer, ⟨.transact .begin, answer⟩ ∈ made) ∨
    Stepless (r.calls migrations state) ∧
      ∃ before call error, r.calls migrations state = before ++ [⟨call, some error⟩] := by
  obtain ⟨made, outcome, report, called, follows, -⟩ := follows_plan ordered opened
  rw [development, Plan.moves_of_replay final found differs] at follows
  rcases follows.split with ⟨error, -, stopped⟩ | ⟨between, first, second, rfl, passed, replayed⟩
  · -- The replay has not been come to, and what came before it has failed.
    obtain ⟨before, call, cause, rfl⟩ :=
      stopped.failed_last (by simp [Plan.passes]) (by simp [Plan.passes])
    rw [called]
    exact .inr ⟨Plan.stepless_passes stopped, ⟨.load, none⟩ :: before, call, cause, rfl⟩
  · obtain ⟨time, failure, replays⟩ := replayed.of_replay
    obtain ⟨answer, begun⟩ := replays.opens
    have member : ⟨.transact .begin, answer⟩ ∈ r.calls migrations state := by
      rw [called]
      exact List.mem_cons_of_mem _ (List.mem_append_right _ begun)
    rcases r.stepless_or_replay migrations state with stepless | ⟨before, inner, ends⟩
    · exact absurd rfl (stepless _ member .begin)
    · refine .inl ⟨before, inner, ends, answer, ?_⟩
      rw [ends.whole] at member
      -- The transaction is not opened before the replay.
      exact (List.mem_append.mp member).resolve_left fun early =>
        absurd rfl (ends.stepless _ early .begin)

/-- A changed migration is replayed behind the revert of an orphan. -/
example : ⟨.transact .begin, none⟩ ∈
    (Sample.reconciler true).calls [Sample.users] (Memory.withLedger Sample.drifted) := by
  decide +kernel

end Reconciler

end SchemaLedger
