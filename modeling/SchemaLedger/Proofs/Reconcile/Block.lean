import SchemaLedger.Proofs.Reconcile.Transaction

/-! The calls of one move: a script and the write that records it, a lone write, or a replay. -/

namespace SchemaLedger

/-- The scripts that a move runs for good, outside transactions. -/
def Move.scripts : Move → List String
  | .revert orphan => [orphan.down]
  | .append migration => [migration.up]
  | .refresh _ _ | .replay _ _ | .refuse _ => []

namespace Move.Calls

variable {ledger next : Ledger} {move : Move} {made inner rest : List CallRecord}
  {failure : Option MigrationError}

/-- The calls of a move come in one of four shapes, of which the first one is cut short. -/
theorem shape (calls : move.Calls ledger next made failure) :
    (∃ script error, move.scripts = [script] ∧ made = [⟨.execute script, some error⟩] ∧
      failure = some (.scriptFailed move.name script error)) ∨
    (∃ script, move.scripts = [script] ∧
      made = [⟨.execute script, none⟩, ⟨.swap ledger next, failure⟩]) ∨
    (∃ stored current, move = .refresh stored current ∧ made = [⟨.swap ledger next, failure⟩]) ∨
    ∃ stored current, move = .replay stored current ∧
      Replays stored current ledger next made failure := by
  -- Reverts and applications look alike once their scripts are known.
  cases calls with
  | @revert orphan _ _ attempts =>
    rcases attempts.of_script with ⟨error, same, failed⟩ | same
    · exact .inl ⟨orphan.down, error, rfl, same, failed⟩
    · exact .inr (.inl ⟨orphan.down, rfl, same⟩)
  | @append migration _ _ attempts =>
    rcases attempts.of_script with ⟨error, same, failed⟩ | same
    · exact .inl ⟨migration.up, error, rfl, same, failed⟩
    · exact .inr (.inl ⟨migration.up, rfl, same⟩)
  | refresh attempts => exact .inr (.inr (.inl ⟨_, _, rfl, attempts.of_swap⟩))
  | replay replays => exact .inr (.inr (.inr ⟨_, _, rfl, replays⟩))

/-- A move attempts at most one write, of its ledger in place of the one before it. -/
theorem swaps_cases (calls : move.Calls ledger next made failure) :
    History.swaps made = [] ∨ History.swaps made = [(ledger, next)] := by
  -- Only a script that fails keeps a move outside transactions from its write.
  rcases calls.shape with ⟨script, error, _, rfl, _⟩ | ⟨script, _, rfl⟩ | ⟨_, _, _, rfl⟩ |
    ⟨_, _, _, replays⟩
  · exact .inl rfl
  · exact .inr rfl
  · exact .inr rfl
  · exact replays.swaps_cases

/-- A move that does not fail has written its ledger. -/
theorem written_of_success (calls : move.Calls ledger next made none) :
    History.written ledger made = next := by
  -- A script that fails would have made the move fail.
  rcases calls.shape with ⟨_, _, _, _, impossible⟩ | ⟨script, _, rfl⟩ | ⟨_, _, _, rfl⟩ |
    ⟨_, _, _, replays⟩
  · cases impossible
  · rfl
  · rfl
  · exact replays.written_of_success

/-- A move that does not fail has attempted its write. -/
theorem swaps_of_success (calls : move.Calls ledger next made none) :
    History.swaps made = [(ledger, next)] := by
  -- What has been written has been attempted.
  rcases calls.shape with ⟨_, _, _, _, impossible⟩ | ⟨script, _, rfl⟩ | ⟨_, _, _, rfl⟩ |
    ⟨_, _, _, replays⟩
  · cases impossible
  · rfl
  · rfl
  · cases replays with
    | reverted rest | fellBack _ rest => rw [rest.made_of_success]; rfl

/-- A move fails with the error of one of its calls. -/
theorem blamed {error : MigrationError} (calls : move.Calls ledger next made (some error)) :
    ∃ call cause name, ⟨call, some cause⟩ ∈ made ∧ error = call.blame name cause := by
  -- Either the script fails, or the write does, or a call of the replay.
  rcases calls.shape with ⟨script, cause, _, rfl, same⟩ | ⟨script, _, rfl⟩ | ⟨_, _, _, rfl⟩ |
    ⟨_, current, _, replays⟩
  · cases same
    exact ⟨.execute script, cause, move.name, List.mem_cons_self, rfl⟩
  · exact ⟨.swap ledger next, error, move.name, by simp, rfl⟩
  · exact ⟨.swap ledger next, error, move.name, by simp, rfl⟩
  · obtain ⟨call, cause, member, same⟩ := replays.blamed
    exact ⟨call, cause, current.name, member, same⟩

/-- No transaction is open behind a move. -/
theorem closed (calls : move.Calls ledger next made failure) :
    History.openAfter false made = false := by
  -- Only a replay opens a transaction, and it closes it again.
  rcases calls.shape with ⟨script, error, _, rfl, _⟩ | ⟨script, _, rfl⟩ | ⟨_, _, _, rfl⟩ |
    ⟨_, _, _, replays⟩
  · rfl
  · rfl
  · rfl
  · exact replays.closed

/-- A move that does not fail has run its scripts, and no other ones for good. -/
theorem lasting_of_success (calls : move.Calls ledger next made none) :
    History.lasting false made = move.scripts := by
  -- Neither a refresh nor a replay has scripts of this kind.
  rcases calls.shape with ⟨_, _, _, _, impossible⟩ | ⟨script, same, rfl⟩ | ⟨_, _, rfl, rfl⟩ |
    ⟨_, _, rfl, replays⟩
  · cases impossible
  · exact same.symm
  · rfl
  · rw [← List.append_nil made] at replays
    exact replays.lasting_eq_nil

/-- A script that is run for good is recorded by the next call, behind which nothing follows. -/
theorem of_execute {script : String}
    (calls : move.Calls ledger next (inner ++ ⟨.execute script, none⟩ :: rest) failure)
    (outside : History.openAfter false inner = false) :
    move.scripts = [script] ∧ inner = [] ∧ rest = [⟨.swap ledger next, failure⟩] := by
  -- Of the four shapes only a script with its write has such a call.
  rcases calls.shape with ⟨_, error, _, cut, _⟩ | ⟨_, same, cut⟩ | ⟨_, _, _, cut⟩ |
    ⟨_, _, _, replays⟩
  · cases inner <;> simp at cut
  · rcases inner with _ | ⟨first, _ | ⟨second, inner⟩⟩
    · -- The script is the first of two calls, and the write is the second.
      simp only [List.nil_append, List.cons.injEq, CallRecord.mk.injEq, Call.execute.injEq] at cut
      obtain ⟨⟨rfl, _⟩, rfl⟩ := cut
      exact ⟨same, rfl, rfl⟩
    · simp at cut
    · simp at cut
  · cases inner <;> simp at cut
  · -- A script of a replay would stand within its transaction.
    rcases replays.open_within with ⟨_, impossible⟩ | opened
    · cases impossible
    · rw [opened] at outside
      cases outside

/-- A write is the only one of its move, and offers its ledger in place of the one before it. -/
theorem of_swap {expected offered : Ledger} {answer : Option MigrationError}
    (calls : move.Calls ledger next (inner ++ ⟨.swap expected offered, answer⟩ :: rest) failure) :
    expected = ledger ∧ offered = next ∧ History.written ledger inner = ledger := by
  have split : History.swaps (inner ++ ⟨.swap expected offered, answer⟩ :: rest) =
      History.swaps inner ++ (expected, offered) :: History.swaps rest :=
    History.swaps_append
  -- There is at most one write, so nothing is written before it.
  rcases calls.swaps_cases with none | single
  · rw [split] at none
    simp at none
  · rw [split] at single
    rcases List.append_eq_singleton_iff.mp single with ⟨none_before, same⟩ | ⟨_, impossible⟩
    · simp only [List.cons.injEq, Prod.mk.injEq] at same
      exact ⟨same.1.1, same.1.2, History.written_of_no_swaps none_before⟩
    · cases impossible

/-- A write stands within the transaction of a replay, or it is the last call of its move. -/
theorem swap_cases {expected offered : Ledger} {answer : Option MigrationError}
    (calls : move.Calls ledger next (inner ++ ⟨.swap expected offered, answer⟩ :: rest) failure) :
    (History.openAfter false inner = false ∧ rest = [] ∧ failure = answer ∧
      ((∃ script, move.scripts = [script] ∧ inner = [⟨.execute script, none⟩]) ∨
        ∃ stored current, move = .refresh stored current ∧ inner = [])) ∨
    (History.openAfter false inner = true ∧ ∃ stored current, Replays stored current ledger next
      (inner ++ ⟨.swap expected offered, answer⟩ :: rest) failure) := by
  rcases calls.shape with ⟨_, error, _, cut, _⟩ | ⟨script, same, cut⟩ | ⟨_, _, same, cut⟩ |
    ⟨stored, current, _, replays⟩
  · cases inner <;> simp at cut
  · -- The write is the second of two calls, and the script is the first.
    rcases inner with _ | ⟨first, _ | ⟨second, inner⟩⟩
    · simp at cut
    · simp only [List.cons_append, List.nil_append, List.cons.injEq, CallRecord.mk.injEq] at cut
      obtain ⟨rfl, ⟨_, rfl⟩, rfl⟩ := cut
      exact .inl ⟨rfl, rfl, rfl, .inl ⟨script, same, rfl⟩⟩
    · simp at cut
  · -- A refresh is a lone write.
    cases inner with
    | nil =>
      simp only [List.nil_append, List.cons.injEq, CallRecord.mk.injEq] at cut
      obtain ⟨⟨_, rfl⟩, rfl⟩ := cut
      exact .inl ⟨rfl, rfl, rfl, .inr ⟨_, _, same, rfl⟩⟩
    | cons first inner => simp at cut
  · -- A write does not open the transaction of its replay, so it stands within.
    rcases replays.open_within with ⟨_, impossible⟩ | opened
    · cases impossible
    · exact .inr ⟨opened, stored, current, replays⟩

/-- A write that fails ends its move with its own error, behind a rollback if one is needed. -/
theorem of_failed_swap {expected offered : Ledger} {error : MigrationError}
    (calls : move.Calls ledger next (inner ++ ⟨.swap expected offered, some error⟩ :: rest)
      failure) :
    failure = some error ∧ ((History.openAfter false inner = false ∧ rest = []) ∨
      (History.openAfter false inner = true ∧
        ∃ rollback, rest = [⟨.transact .rollback, rollback⟩])) := by
  rcases calls.swap_cases with ⟨outside, last, reported, _⟩ | ⟨opened, _, _, replays⟩
  · exact ⟨reported, .inl ⟨outside, last⟩⟩
  · -- A write neither opens nor closes a transaction, and it is no script.
    rcases replays.after_failure with ⟨_, impossible, _⟩ | ⟨_, impossible⟩ | ⟨impossible, _⟩ |
      ⟨reported, closing⟩
    · cases impossible
    · simp at impossible
    · cases impossible
    · exact ⟨reported, .inr ⟨opened, closing⟩⟩

/-- At any point of a move its write is still to come, or its scripts have been run. -/
theorem at_point (calls : move.Calls ledger next (inner ++ rest) failure) :
    (History.written ledger inner = ledger ∧ (History.lasting false inner).length ≤ 1) ∨
      (History.written ledger inner = next ∧ History.lasting false inner = move.scripts) := by
  rcases calls.shape with ⟨_, error, _, cut, _⟩ | ⟨script, same, cut⟩ | ⟨_, _, rfl, cut⟩ |
    ⟨stored, current, rfl, replays⟩
  · -- A script that fails changes nothing.
    rcases List.append_eq_singleton_iff.mp cut with ⟨rfl, _⟩ | ⟨rfl, _⟩
    · exact .inl ⟨rfl, by simp [History.lasting]⟩
    · exact .inl ⟨rfl, by simp [History.lasting, CallRecord.lastingScripts]⟩
  · -- The point is before the script, between it and the write, or behind both.
    rcases inner with _ | ⟨first, _ | ⟨second, inner⟩⟩
    · exact .inl ⟨rfl, by simp [History.lasting]⟩
    · simp only [List.cons_append, List.nil_append, List.cons.injEq] at cut
      obtain ⟨rfl, _⟩ := cut
      exact .inl ⟨rfl, by simp [History.lasting, CallRecord.lastingScripts]⟩
    · simp only [List.cons_append, List.cons.injEq, List.append_eq_nil_iff] at cut
      obtain ⟨rfl, rfl, rfl, _⟩ := cut
      cases failure with
      | none => exact .inr ⟨rfl, same.symm⟩
      | some error => exact .inl ⟨rfl, by simp [History.lasting, CallRecord.lastingScripts]⟩
  · -- A refresh runs no script, so only its write counts.
    rcases List.append_eq_singleton_iff.mp cut with ⟨rfl, _⟩ | ⟨rfl, _⟩
    · exact .inl ⟨rfl, by simp [History.lasting]⟩
    · cases failure with
      | none => exact .inr ⟨rfl, rfl⟩
      | some error => exact .inl ⟨rfl, by simp [History.lasting, CallRecord.lastingScripts]⟩
  · -- Nothing that a replay runs lasts by itself, so only its write has to be looked at.
    have silent := replays.lasting_eq_nil
    rcases History.written_cases ledger inner with kept | ⟨expected, member⟩
    · exact .inl ⟨kept, by simp [silent]⟩
    · have offered : (expected, History.written ledger inner) ∈ History.swaps (inner ++ rest) := by
        rw [History.swaps_append]
        exact List.mem_append_left _ member
      rcases replays.swaps_cases with none | single
      · rw [none] at offered
        cases offered
      · rw [single, List.mem_singleton, Prod.mk.injEq] at offered
        exact .inr ⟨offered.2, silent⟩

end Move.Calls

end SchemaLedger
