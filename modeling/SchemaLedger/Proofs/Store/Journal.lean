import Mathlib.Data.List.Induction
import SchemaLedger.Proofs.Store.Nesting

/-! A journal tells what was done to a memory store and has not been undone, from the successes
of the calls and the order in which they were made. -/

namespace SchemaLedger

/-- What may be done to a memory store from outside, which includes forgetting its log. -/
inductive Deed where
  | act (action : StoreAction)
  | clear
  deriving DecidableEq

namespace Call

/-- The script that a call executes. -/
def script? : Call → Option String
  | .execute script => some script
  | _ => none

/-- A call writes the ledger. -/
def writesLedger : Call → Bool
  | .swap _ _ => true
  | _ => false

section Frames

variable {β : Type} (savepoint : β → Option String) (opened : Option String → β)

/--
The frames of a transaction behind a call.

They are its savepoints that are still active, newest first, and then its beginning.
-/
def framesBehind (frames : List β) : Call → List β
  -- A transaction only begins where no other is open, so that there are no frames before.
  | .transact .begin => [opened none]
  | .transact .commit | .transact .rollback => []
  | .transact (.savepoint name) => opened (some name) :: frames
  -- A savepoint that was gone back to is still there, and one that was released is not.
  | .transact (.rollbackTo name) => frames.dropWhile (savepoint · != some name)
  | .transact (.release name) => (frames.dropWhile (savepoint · != some name)).tail
  | .load | .swap _ _ | .execute _ => frames

/-- The frame that a call goes back to, if it is one that undoes other calls. -/
def target? (frames : List β) : Call → Option β
  -- The beginning of the transaction lies beneath all savepoints.
  | .transact .rollback => frames.getLast?
  | .transact (.rollbackTo name) => (frames.dropWhile (savepoint · != some name)).head?
  | _ => none

end Frames

end Call

/-- A point to which a rollback may go back. -/
structure Mark where
  /-- The savepoint that was set there, unless it is the beginning of a transaction. -/
  savepoint : Option String
  time : Nat
  /-- The scripts that counted as executed at that time. -/
  scripts : List String
  deriving DecidableEq

/-- An account of what was done to a store. -/
structure Journal where
  /-- How much was done so far. -/
  time : Nat := 0
  /-- The calls that succeeded and were not undone, oldest first, each with its time. -/
  standing : List (Nat × Call) := []
  /-- The points of the open transaction to which a rollback may go back, newest first. -/
  marks : List Mark := []
  /-- The time at which the log was last cleared. -/
  cleared : Nat := 0
  deriving DecidableEq

namespace Journal

/-- The scripts among some entries that were executed since the log was cleared. -/
def counted (cleared : Nat) (entries : List (Nat × Call)) : List String :=
  entries.filterMap fun entry => if cleared ≤ entry.1 then entry.2.script? else none

/-- The scripts that were executed since the log was cleared, and were not undone. -/
def scripts (journal : Journal) : List String := counted journal.cleared journal.standing

/-- The entries before a time. -/
def before (journal : Journal) (time : Nat) : List (Nat × Call) :=
  journal.standing.filter (·.1 < time)

/-- How many writes of the ledger were not undone. -/
def writes (journal : Journal) : Nat := journal.standing.countP (·.2.writesLedger)

/-- A mark set at this moment. -/
def mark (journal : Journal) (savepoint : Option String) : Mark :=
  ⟨savepoint, journal.time, journal.scripts⟩

/-- The mark that is gone back to by what is done. -/
def target? (journal : Journal) : Deed → Option Mark
  | .act (.call call) => call.target? Mark.savepoint journal.marks
  | _ => none

/-- A call that goes back to a mark undoes all that was done since, and any other is entered. -/
def standingBehind (journal : Journal) (call : Call) : List (Nat × Call) :=
  match journal.target? (.act (.call call)) with
  | some mark => journal.before mark.time
  | none => journal.standing ++ [(journal.time, call)]

/-- What the journal says behind something that was done, which changes nothing if it failed. -/
def note (journal : Journal) : Deed → Bool → Journal
  | .act (.call call), true => { journal with
    time := journal.time + 1
    standing := journal.standingBehind call
    marks := call.framesBehind Mark.savepoint journal.mark journal.marks }
  | .clear, true => { journal with time := journal.time + 1, cleared := journal.time }
  | _, _ => { journal with time := journal.time + 1 }

/-- The journal of what was done one after the other, each with its success. -/
def ofHistory (history : List (Deed × Bool)) : Journal :=
  history.foldl (fun journal done => journal.note done.1 done.2) {}

end Journal

section Prefixes

variable {α : Type} {xs : List α} {x : α}

/-- The beginnings of a longer list are those of the shorter one and the list itself. -/
theorem forall_prefix_concat {P : List α → Prop} :
    (∀ begun, begun <+: xs ++ [x] → P begun) ↔
      (∀ begun, begun <+: xs → P begun) ∧ P (xs ++ [x]) := by
  -- A beginning of the longer list is one of the shorter, or all of it.
  constructor
  · intro holds
    exact ⟨fun begun within => holds begun (within.trans (List.prefix_append _ _)),
      holds _ List.prefix_rfl⟩
  · rintro ⟨before, whole⟩ begun within
    rcases List.prefix_concat_iff.mp within with rfl | shorter
    · exact whole
    · exact before begun shorter

/-- The steps of a longer list are those of the shorter one and the last. -/
theorem forall_step_concat {P : List α → α → Prop} :
    (∀ begun last, begun ++ [last] <+: xs ++ [x] → P begun last) ↔
      (∀ begun last, begun ++ [last] <+: xs → P begun last) ∧ P xs x := by
  -- A step of the longer list is one of the shorter, or the last.
  constructor
  · intro holds
    exact ⟨fun begun last within => holds begun last (within.trans (List.prefix_append _ _)),
      holds _ _ List.prefix_rfl⟩
  · rintro ⟨before, latest⟩ begun last within
    rcases List.prefix_concat_iff.mp within with same | shorter
    · obtain ⟨rfl, lastOnes⟩ := List.append_inj' same rfl
      rw [List.singleton_inj.mp lastOnes]
      exact latest
    · exact before begun last shorter

/-- There is no step in an empty list. -/
theorem forall_step_nil {P : List α → α → Prop} :
    ∀ begun last, begun ++ [last] <+: [] → P begun last := by
  -- A beginning of nothing has no last element.
  intro begun last within
  cases (List.append_eq_nil_iff.mp (List.prefix_nil.mp within)).2

/-- The steps of a list are found by their positions. -/
theorem forall_step_iff {P : List α → α → Prop} :
    (∀ begun last, begun ++ [last] <+: xs → P begun last) ↔
      ∀ (n : Nat) (within : n < xs.length), P (xs.take n) xs[n] := by
  -- The element at a place is the last of the beginning that ends there.
  constructor
  · intro holds n within
    apply holds
    rw [List.take_append_getElem within]
    exact List.take_prefix _ _
  · rintro holds begun last ⟨rest, rfl⟩
    have found := holds begun.length (by simp)
    simpa using found

end Prefixes

namespace Memory

/-- What a memory store does: whether it succeeds, and what it leaves behind. -/
def perform (memory : Memory) : Deed → Bool × Memory
  | .act action => memory.act action
  | .clear => (true, memory.clearExecuted)

/-- The memory behind what is done one after the other. -/
def reached (memory : Memory) (deeds : List Deed) : Memory :=
  deeds.foldl (fun reached deed => (reached.perform deed).2) memory

/-- What is done one after the other, each with its success. -/
def history (memory : Memory) : List Deed → List (Deed × Bool)
  | [] => []
  | deed :: later => (deed, (memory.perform deed).1) :: (memory.perform deed).2.history later

/-- The journal of what is done one after the other. -/
def journal (memory : Memory) (deeds : List Deed) : Journal :=
  Journal.ofHistory (memory.history deeds)

/-- One more deed is done to the memory that those before it have left. -/
theorem reached_concat (memory : Memory) (deeds : List Deed) (deed : Deed) :
    memory.reached (deeds ++ [deed]) = ((memory.reached deeds).perform deed).2 := by
  -- The last deed is done where those before it have led.
  simp [reached]

/-- One more deed is the last one of a history. -/
theorem history_concat (memory : Memory) (deeds : List Deed) (deed : Deed) :
    memory.history (deeds ++ [deed]) =
      memory.history deeds ++ [(deed, ((memory.reached deeds).perform deed).1)] := by
  -- A history begins with the first deed, and only the memory behind it is passed on.
  induction deeds generalizing memory with
  | nil => rfl
  | cons first later ih =>
    rw [List.cons_append, history, history, ih, List.cons_append]
    rfl

/-- One more deed is noted in the journal with its success. -/
theorem journal_concat (memory : Memory) (deeds : List Deed) (deed : Deed) :
    memory.journal (deeds ++ [deed]) =
      (memory.journal deeds).note deed ((memory.reached deeds).perform deed).1 := by
  -- The history grows by its last deed, which the journal notes.
  simp [journal, Journal.ofHistory, history_concat]

end Memory

/-- In a journal time goes on, and nothing in it happens later than now. -/
structure Journal.Chronological (journal : Journal) : Prop where
  past : ∀ entry ∈ journal.standing, entry.1 < journal.time
  ascending : journal.standing.Pairwise fun earlier later => earlier.1 < later.1
  cleared : journal.cleared ≤ journal.time

namespace Journal

variable {journal : Journal}

/-- A call that succeeds is entered behind all others, or takes back the later ones. -/
theorem Chronological.standingBehind (chronological : journal.Chronological) (call : Call) :
    (∀ entry ∈ journal.standingBehind call, entry.1 < journal.time + 1) ∧
      (journal.standingBehind call).Pairwise fun earlier later => earlier.1 < later.1 := by
  obtain ⟨past, ascending, -⟩ := chronological
  rw [Journal.standingBehind]
  cases journal.target? (.act (.call call)) with
  | some mark =>
    -- What is left of the journal is in order, and all of it is past.
    refine ⟨fun entry member => ?_, ascending.sublist List.filter_sublist⟩
    have earlier := past entry (List.mem_filter.mp member).1
    omega
  | none =>
    -- The call is entered with the present time, which is behind that of all others.
    constructor
    · intro entry member
      rcases List.mem_append.mp member with earlier | latest
      · have earlier := past entry earlier
        omega
      · rw [List.mem_singleton.mp latest]
        exact Nat.lt_succ_self _
    · refine List.pairwise_append.mpr ⟨ascending, List.pairwise_singleton _ _, ?_⟩
      intro entry member latest same
      rw [List.mem_singleton.mp same]
      exact past entry member

/-- Whatever is noted, a journal keeps its chronology. -/
theorem Chronological.note (chronological : journal.Chronological) (deed : Deed)
    (succeeded : Bool) : (journal.note deed succeeded).Chronological := by
  obtain ⟨past, ascending, cleared⟩ := chronological
  -- Most of what may be noted only lets the time go on.
  have later : ∀ entry ∈ journal.standing, entry.1 < journal.time + 1 := by
    intro entry member
    have earlier := past entry member
    omega
  have waiting : Chronological { journal with time := journal.time + 1 } :=
    ⟨later, ascending, Nat.le_succ_of_le cleared⟩
  cases deed with
  | clear =>
    cases succeeded with
    | true => exact ⟨later, ascending, Nat.le_succ _⟩
    | false => exact waiting
  | act action =>
    cases action with
    | failOn script => exact waiting
    | call call =>
      cases succeeded with
      | true =>
        -- A call that succeeds may be entered, or undo what is behind its mark.
        have entered := Chronological.standingBehind ⟨past, ascending, cleared⟩ call
        exact ⟨entered.1, entered.2, Nat.le_succ_of_le cleared⟩
      | false => exact waiting

end Journal

end SchemaLedger
