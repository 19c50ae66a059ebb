import SchemaLedger.Proofs.Reconcile.Block

/-! A run may be looked at after any of its calls: some moves are made, and one may be under way. -/

namespace SchemaLedger

namespace Follows

variable {ledger current : Ledger} {moves : List Move} {made : List CallRecord}
  {outcome : Except MigrationError Ledger}

/-- Moves that were all made have written the ledger they ended with. -/
theorem written (follows : Follows ledger moves made (.ok current)) :
    History.written ledger made = current := by
  -- Each move hands on the ledger that it has written.
  generalize reached : (.ok current : Except MigrationError Ledger) = ended at follows
  induction follows with
  | done => cases reached; rfl
  | next _ calls _ ih =>
    rw [History.written_append, calls.written_of_success]
    exact ih reached
  | stopped => cases reached
  | refused => cases reached

/-- Moves that were all made have run their scripts, and no other ones for good. -/
theorem lasting (follows : Follows ledger moves made (.ok current)) :
    History.lasting false made = moves.flatMap Move.scripts := by
  -- No transaction is open between two moves, so their scripts just add up.
  generalize reached : (.ok current : Except MigrationError Ledger) = ended at follows
  induction follows with
  | done => rfl
  | next _ calls _ ih =>
    rw [History.lasting_append, calls.closed, calls.lasting_of_success, ih reached,
      List.flatMap_cons]
  | stopped => cases reached
  | refused => cases reached

/-- No transaction is open behind moves, however they ended. -/
theorem closed (follows : Follows ledger moves made outcome) :
    History.openAfter false made = false := by
  -- Each move closes the transaction it has opened, even if it fails.
  induction follows with
  | done | refused => rfl
  | next _ calls _ ih => rw [History.openAfter_append, calls.closed, ih]
  | stopped _ calls => exact calls.closed

/-- Moves fail with the error of a call, or because the next one is refused. -/
theorem blamed {error : MigrationError} (failed : Follows ledger moves made (.error error)) :
    (∃ call cause name, ⟨call, some cause⟩ ∈ made ∧ error = call.blame name cause) ∨
      ∃ migration, .refuse migration ∈ moves ∧ error = .upChanged migration.name := by
  -- The moves before the last one attempted have all succeeded.
  generalize reached : (.error error : Except MigrationError Ledger) = ended at failed
  induction failed with
  | done => cases reached
  | next _ _ _ ih =>
    rcases ih reached with ⟨call, cause, name, member, same⟩ | ⟨migration, planned, same⟩
    · exact .inl ⟨call, cause, name, List.mem_append_right _ member, same⟩
    · exact .inr ⟨migration, List.mem_cons_of_mem _ planned, same⟩
  | stopped _ calls =>
    cases reached
    exact .inl calls.blamed
  | refused _ migration =>
    cases reached
    exact .inr ⟨migration, List.mem_cons_self, rfl⟩

/-- Every write expects the ledger of the write before it. -/
theorem chained (follows : Follows ledger moves made outcome) :
    History.Chained ledger (History.swaps made) := by
  -- The ledger that a move writes is the one that the next move starts from.
  induction follows with
  | done | refused => trivial
  | next _ calls _ ih =>
    rw [History.swaps_append, calls.swaps_of_success]
    exact ⟨rfl, ih⟩
  | stopped _ calls =>
    rcases calls.swaps_cases with none | single
    · rw [none]
      trivial
    · rw [single]
      exact ⟨rfl, trivial⟩

end Follows

/-- Where moves stand when some of their calls have been seen and the others are still to come. -/
inductive Point (ledger : Ledger) (moves : List Move) (outcome : Except MigrationError Ledger)
    (seen unseen : List CallRecord) : Prop where
  /-- One move is under way, and whether others follow depends on how it ends. -/
  | within {done later : List Move} {move : Move} {current next : Ledger}
      {earlier inner rest tail : List CallRecord} {failure : Option MigrationError}
      (planned : moves = done ++ move :: later) (past : seen = earlier ++ inner)
      (future : unseen = rest ++ tail) (reached : Follows ledger done earlier (.ok current))
      (writes : move.Writes current next) (calls : move.Calls current next (inner ++ rest) failure)
      (goesOn : failure = none → Follows next later tail outcome)
      (ends : ∀ error, failure = some error → tail = [] ∧ outcome = .error error)
      (latest : rest = [] → unseen = [])
  /-- All moves have been made. -/
  | finished {current : Ledger} (past : Follows ledger moves seen (.ok current))
      (future : unseen = []) (ended : outcome = .ok current)
  /-- The next move is refused. -/
  | refused {done later : List Move} {current : Ledger} {migration : Migration}
      (planned : moves = done ++ .refuse migration :: later)
      (past : Follows ledger done seen (.ok current)) (future : unseen = [])
      (ended : outcome = .error (.upChanged migration.name))

namespace Point

variable {ledger next : Ledger} {move : Move} {moves : List Move} {made seen unseen : List CallRecord}
  {outcome : Except MigrationError Ledger}

/-- A point among later moves is a point among all of them. -/
theorem behind (writes : move.Writes ledger next) (calls : move.Calls ledger next made none)
    (point : Point next moves outcome seen unseen) :
    Point ledger (move :: moves) outcome (made ++ seen) unseen := by
  -- The move made before is only put in front of what is already done.
  cases point with
  | within planned past future reached further inside goesOn ends latest =>
    refine .within (by rw [planned, List.cons_append]) ?_ future (.next writes calls reached)
      further inside goesOn ends latest
    rw [past, List.append_assoc]
  | finished past future ended => exact .finished (.next writes calls past) future ended
  | refused planned past future ended =>
    exact .refused (by rw [planned, List.cons_append]) (.next writes calls past) future ended

/-- However the calls of moves are divided, the moves stand at some point in between. -/
theorem of_follows (follows : Follows ledger moves (seen ++ unseen) outcome) :
    Point ledger moves outcome seen unseen := by
  -- The induction is on the moves, which are passed by as long as all of their calls are seen.
  generalize whole : seen ++ unseen = made at follows
  induction follows generalizing seen with
  | done ledger =>
    obtain ⟨rfl, rfl⟩ := List.append_eq_nil_iff.mp whole
    exact .finished (.done ledger) rfl rfl
  | @next ledger next move moves made later outcome writes calls rest ih =>
    -- The seen calls end within the first move or go beyond it.
    rcases List.append_eq_append_iff.mp whole with ⟨between, rfl, rfl⟩ | ⟨between, rfl, same⟩
    · by_cases boundary : between = []
      · -- Seen calls that end with the move are taken for a point before the next one.
        subst boundary
        rw [List.append_nil] at calls
        have start := @ih [] rfl
        have point := start.behind writes calls
        rwa [List.append_nil] at point
      · exact .within (List.nil_append _).symm rfl rfl (.done ledger) writes calls (fun _ => rest)
          (fun _ impossible => by cases impossible) fun none => absurd none boundary
    · -- The seen calls reach into the later moves.
      exact (ih same.symm).behind writes calls
  | @stopped ledger next move made error writes calls moves =>
    subst whole
    -- Nothing follows the move that failed.
    exact .within (List.nil_append _).symm rfl (List.append_nil _).symm (.done ledger) writes calls
      (fun impossible => by cases impossible) (fun _ same => by cases same; exact ⟨rfl, rfl⟩) id
  | refused ledger current moves =>
    obtain ⟨rfl, rfl⟩ := List.append_eq_nil_iff.mp whole
    exact .refused (List.nil_append _).symm (.done ledger) rfl rfl

end Point

/-- The place of a call among those of moves: the move that makes it, and what comes around it. -/
inductive Placed (ledger : Ledger) (moves : List Move) (outcome : Except MigrationError Ledger)
    (before : List CallRecord) (record : CallRecord) (after : List CallRecord) : Prop where
  | place {done later : List Move} {move : Move} {current next : Ledger}
      {earlier inner rest tail : List CallRecord} {failure : Option MigrationError}
      (planned : moves = done ++ move :: later) (past : before = earlier ++ inner)
      (future : after = rest ++ tail) (reached : Follows ledger done earlier (.ok current))
      (writes : move.Writes current next)
      (calls : move.Calls current next (inner ++ record :: rest) failure)
      (goesOn : failure = none → Follows next later tail outcome)
      (ends : ∀ error, failure = some error → tail = [] ∧ outcome = .error error)

/-- Every call has its place among the moves that are made. -/
theorem Follows.placed {ledger : Ledger} {moves : List Move} {before after : List CallRecord}
    {record : CallRecord} {outcome : Except MigrationError Ledger}
    (follows : Follows ledger moves (before ++ record :: after) outcome) :
    Placed ledger moves outcome before record after := by
  -- At the point before a call that is made, neither all moves are made nor is one refused.
  cases Point.of_follows follows with
  | @within done later move current next earlier inner rest tail failure planned past future reached
      writes calls goesOn ends latest =>
    -- The move under way has a call left, which is the one at hand.
    cases rest with
    | nil => cases latest rfl
    | cons head rest =>
      simp only [List.cons_append, List.cons.injEq] at future
      obtain ⟨rfl, future⟩ := future
      exact .place planned past future reached writes calls goesOn ends
  | finished past future ended => cases future
  | refused planned past future ended => cases future

end SchemaLedger
