import Mathlib.Data.List.Infix
import SchemaLedger.Proofs.Store.Frames

/-! A rollback cuts the log of a memory store to a length, even if it was cleared in between. -/

namespace SchemaLedger

namespace Journal

/-- What is done goes back behind the last clearing of the log, with scripts both then and now. -/
def Overshoots (journal : Journal) (deed : Deed) : Prop :=
  ∃ mark ∈ journal.target? deed,
    mark.time < journal.cleared ∧ mark.scripts ≠ [] ∧ journal.scripts ≠ []

instance (journal : Journal) (deed : Deed) : Decidable (journal.Overshoots deed) :=
  inferInstanceAs (Decidable (∃ mark ∈ journal.target? deed, _))

variable {journal : Journal} {deed : Deed}

/-- What goes on from where it is does not overshoot. -/
theorem not_overshoots (onward : journal.target? deed = none) : ¬ journal.Overshoots deed := by
  -- Without a mark to go back to there is nothing to overshoot.
  rintro ⟨mark, found, -⟩
  rw [onward] at found
  cases found

/-- Whether something overshoots is told by what it goes back to. -/
theorem overshoots_iff {mark : Mark} (found : journal.target? deed = some mark) :
    journal.Overshoots deed ↔
      mark.time < journal.cleared ∧ mark.scripts ≠ [] ∧ journal.scripts ≠ [] := by
  -- There is one mark to go back to, and so no other to speak of.
  constructor
  · rintro ⟨other, same, overshoots⟩
    rw [found] at same
    cases same
    exact overshoots
  · intro overshoots
    exact ⟨mark, found, overshoots⟩

/-- Scripts among further entries come last. -/
theorem counted_append (cleared : Nat) (entries further : List (Nat × Call)) :
    counted cleared (entries ++ further) = counted cleared entries ++ counted cleared further :=
  List.filterMap_append

/-- A call that was made after the log was cleared counts with its script. -/
theorem counted_singleton {cleared time : Nat} (since : cleared ≤ time) (call : Call) :
    counted cleared [(time, call)] = call.script?.toList := by
  -- Of calls since the log was cleared only those with a script are counted.
  simp only [counted, List.filterMap_cons, if_pos since, List.filterMap_nil]
  cases call.script? <;> rfl

/-- What was done before the log was cleared does not count. -/
theorem counted_eq_nil {cleared : Nat} {entries : List (Nat × Call)}
    (before : ∀ entry ∈ entries, entry.1 < cleared) : counted cleared entries = [] := by
  -- Such an entry was made before the clearing, whichever call it is of.
  refine List.filterMap_eq_nil_iff.mpr fun entry member => ?_
  have earlier := before entry member
  rw [if_neg (by omega)]

/-- Fewer entries have fewer scripts among them. -/
theorem counted_sublist (cleared : Nat) {entries others : List (Nat × Call)}
    (sublist : entries.Sublist others) :
    (counted cleared entries).Sublist (counted cleared others) :=
  sublist.filterMap _

/-- In a journal in order, what is before some time comes first. -/
theorem Chronological.before_prefix (chronological : journal.Chronological) (time : Nat) :
    journal.before time <+: journal.standing := by
  -- The times ascend, so that the entries before a time are not interrupted by others.
  have ascending := chronological.ascending
  rw [before]
  generalize journal.standing = entries at ascending
  induction entries with
  | nil => exact List.prefix_rfl
  | cons entry later ih =>
    obtain ⟨first, ascending⟩ := List.pairwise_cons.mp ascending
    by_cases earlier : entry.1 < time
    · rw [List.filter_cons_of_pos (by simpa using earlier)]
      exact List.prefix_cons_inj entry |>.mpr (ih ascending)
    · -- None of the later ones can be before that time either.
      have none : (entry :: later).filter (·.1 < time) = [] := by
        refine List.filter_eq_nil_iff.mpr fun other member => ?_
        rcases List.mem_cons.mp member with rfl | further
        · simpa using earlier
        · have after := first other further
          simp only [decide_eq_true_eq]
          omega
      rw [none]
      exact List.nil_prefix

/-- What is before some time is part of the whole. -/
theorem before_sublist (journal : Journal) (time : Nat) :
    (journal.before time).Sublist journal.standing :=
  List.filter_sublist

/-- All that is in a journal is before now. -/
theorem Chronological.before_now (chronological : journal.Chronological) :
    journal.before journal.time = journal.standing :=
  List.filter_eq_self.mpr fun entry member => by simpa using chronological.past entry member

variable {next : Journal} {call : Call}

/-- A call that is entered now is not before any time up to now. -/
theorem before_entered (entered : next.standing = journal.standing ++ [(journal.time, call)])
    {time : Nat} (past : time ≤ journal.time) : next.before time = journal.before time := by
  -- The new entry is made now, and so not before any earlier time.
  have later : ¬ journal.time < time := by omega
  simp [before, entered, later]

/-- What was undone down to some time is still there before it. -/
theorem before_undone {time : Nat} (undone : next.standing = journal.before time) {earlier : Nat}
    (below : earlier ≤ time) : next.before earlier = journal.before earlier := by
  rw [before, undone, before, List.filter_filter]
  -- What is left was made before a time, and asking for an earlier one leaves nothing out.
  refine List.filter_congr fun entry _ => ?_
  by_cases within : entry.1 < earlier
  · have before : entry.1 < time := by omega
    simp [within, before]
  · simp [within]

/-- A call that is entered counts with its script from then on. -/
theorem Chronological.scripts_entered (chronological : journal.Chronological)
    (entered : next.standing = journal.standing ++ [(journal.time, call)])
    (cleared : next.cleared = journal.cleared) :
    next.scripts = journal.scripts ++ call.script?.toList := by
  -- The log was cleared before now, so that the new entry is counted.
  rw [scripts, entered, cleared, counted_append, counted_singleton chronological.cleared]
  rfl

end Journal

/-- A log has all scripts in it that count, and a frame goes back to those that counted before. -/
structure Covers (memory : Memory) (journal : Journal) (frames : List Frame) : Prop where
  now : journal.scripts.Sublist memory.executed
  behind : ∀ frame ∈ frames, (Journal.counted journal.cleared (journal.before frame.time)).Sublist
    (memory.executed.take frame.length)

/--
A log has the scripts in it that count, and no others.

A frame has the length of the log at its time, and goes back to it unless the log was cleared since.
-/
structure Exact (memory : Memory) (journal : Journal) (frames : List Frame) : Prop where
  now : memory.executed = journal.scripts
  lengths : ∀ frame ∈ frames, frame.length = frame.scripts.length
  behind : ∀ frame ∈ frames, journal.cleared ≤ frame.time →
    Journal.counted journal.cleared (journal.before frame.time) = frame.scripts

namespace Framed

variable {memory after : Memory} {journal next : Journal} {frames framesAfter : List Frame}
  {deed : Deed}

/-- Whatever is done, no script that counts is missing from the log. -/
theorem covers (framed : Framed memory journal frames) (chronological : journal.Chronological)
    (advance : Advance memory journal frames deed after next framesAfter)
    (covers : Covers memory journal frames) : Covers after next framesAfter := by
  -- Log and journal grow by the same scripts, and a cut leaves what counted at the frame.
  cases advance with
  | wait kept =>
    refine ⟨?_, ?_⟩
    · rw [kept]
      exact covers.now
    · rw [kept]
      exact covers.behind
  | forget emptied =>
    -- Everything in the journal is older than the clearing.
    have gone {entries : List (Nat × Call)} (sublist : entries.Sublist journal.standing) :
        Journal.counted journal.time entries = [] :=
      Journal.counted_eq_nil fun entry member => chronological.past entry (sublist.subset member)
    refine ⟨?_, fun frame _ => ?_⟩
    · show (Journal.counted journal.time journal.standing).Sublist _
      rw [gone (List.Sublist.refl _)]
      exact List.nil_sublist _
    · show (Journal.counted journal.time (journal.before frame.time)).Sublist _
      rw [gone (journal.before_sublist frame.time)]
      exact List.nil_sublist _
  | goOn _ logged _ entered cleared opened =>
    refine ⟨?_, fun frame member => ?_⟩
    · rw [chronological.scripts_entered entered cleared, logged]
      exact covers.now.append_right _
    · rw [cleared]
      rcases opened frame member with older | ⟨name, rfl⟩
      · rw [Journal.before_entered entered (Nat.le_of_lt (framed.recent frame older))]
        have longer : memory.executed <+: after.executed := logged ▸ List.prefix_append _ _
        exact (covers.behind frame older).trans (longer.take _).sublist
      · -- The new frame remembers the length that the log has got now.
        show (Journal.counted journal.cleared (next.before journal.time)).Sublist
          (after.executed.take memory.executed.length)
        rw [Journal.before_entered entered (Nat.le_refl _), chronological.before_now, logged,
          List.take_left]
        exact covers.now
  | @goBack _ _ _ _ target _ among restored _ undone cleared remaining =>
    -- Going back restores the log to what was covered at the frame.
    have reached : (Journal.counted journal.cleared (journal.before target.time)).Sublist
        after.executed := by
      rw [restored]
      exact covers.behind target among
    refine ⟨?_, fun frame member => ?_⟩
    · rw [Journal.scripts, undone, cleared]
      exact reached
    · obtain ⟨older, below⟩ := remaining frame member
      rw [Journal.before_undone undone below, cleared, restored, List.take_take]
      -- The shorter of the two lengths is the one that remains of the log.
      rcases Nat.le_total frame.length target.length with shorter | longer
      · rw [Nat.min_eq_left shorter]
        exact covers.behind frame older
      · rw [Nat.min_eq_right longer]
        have fewer := next.before_sublist frame.time
        rw [Journal.before_undone undone below, undone] at fewer
        exact (Journal.counted_sublist _ fewer).trans (covers.behind target among)

/-- A log that has been exact remains so with each deed that does not overshoot. -/
theorem executed_iff (chronological : journal.Chronological)
    (advance : Advance memory journal frames deed after next framesAfter)
    (agrees : Exact memory journal frames) :
    after.executed = next.scripts ↔ ¬ journal.Overshoots deed := by
  -- Only going back can make a difference, where a length stands for what it was measured on.
  cases advance with
  | wait kept _ onward =>
    exact iff_of_true (kept.trans agrees.now) (Journal.not_overshoots onward)
  | forget emptied =>
    refine iff_of_true ?_ (Journal.not_overshoots rfl)
    rw [emptied]
    exact (Journal.counted_eq_nil chronological.past).symm
  | goOn onward logged _ entered cleared =>
    refine iff_of_true ?_ (Journal.not_overshoots onward)
    rw [logged, agrees.now, chronological.scripts_entered entered cleared]
  | @goBack _ _ _ _ target found among restored _ undone cleared =>
    have counts : next.scripts = Journal.counted journal.cleared (journal.before target.time) := by
      rw [Journal.scripts, undone, cleared]
    rw [Journal.overshoots_iff found, restored, agrees.now, agrees.lengths target among, counts]
    by_cases since : journal.cleared ≤ target.time
    · -- What counted at the frame is still the beginning of what counts.
      have begins : target.scripts <+: journal.scripts := by
        rw [← agrees.behind target among since]
        exact (chronological.before_prefix target.time).filterMap _
      rw [agrees.behind target among since, ← List.prefix_iff_eq_take.mp begins]
      refine iff_of_true rfl fun overshoots => ?_
      exact absurd overshoots.1 (Nat.not_lt.mpr since)
    · -- Nothing counts that was executed before the log was cleared, and the log has to be empty.
      have gone : Journal.counted journal.cleared (journal.before target.time) = [] := by
        refine Journal.counted_eq_nil fun entry member => ?_
        have earlier := of_decide_eq_true (List.mem_filter.mp member).2
        omega
      have past : target.time < journal.cleared := by omega
      rw [gone, List.take_eq_nil_iff, List.length_eq_zero_iff]
      show _ ↔ ¬ (target.time < journal.cleared ∧ target.scripts ≠ [] ∧ journal.scripts ≠ [])
      by_cases empty : target.scripts = []
      · simp [empty]
      · simp [empty, past]

/-- As long as a log is exact, the lengths that its frames remember are the right ones. -/
theorem exact_of_executed (framed : Framed memory journal frames)
    (chronological : journal.Chronological)
    (advance : Advance memory journal frames deed after next framesAfter)
    (agrees : Exact memory journal frames) (still : after.executed = next.scripts) :
    Exact after next framesAfter := by
  refine ⟨still, ?_, ?_⟩
  · intro frame member
    cases advance with
    | wait => exact agrees.lengths frame member
    | forget => exact agrees.lengths frame member
    | goOn _ _ _ _ _ opened =>
      rcases opened frame member with older | ⟨name, rfl⟩
      · exact agrees.lengths frame older
      · -- A new frame remembers the present length, which is that of what counts.
        exact congrArg List.length agrees.now
    | goBack _ _ _ _ _ _ remaining => exact agrees.lengths frame (remaining frame member).1
  · intro frame member since
    cases advance with
    | wait => exact agrees.behind frame member since
    | forget =>
      -- No frame is as late as the clearing.
      exact absurd (framed.recent frame member) (Nat.not_lt.mpr since)
    | goOn _ _ _ entered cleared opened =>
      rw [cleared] at since ⊢
      rcases opened frame member with older | ⟨name, rfl⟩
      · rw [Journal.before_entered entered (Nat.le_of_lt (framed.recent frame older))]
        exact agrees.behind frame older since
      · show Journal.counted journal.cleared (next.before journal.time) = journal.scripts
        rw [Journal.before_entered entered (Nat.le_refl _), chronological.before_now]
        rfl
    | goBack _ _ _ _ undone cleared remaining =>
      rw [cleared] at since ⊢
      -- A frame beneath the one gone back to has lost nothing.
      obtain ⟨older, below⟩ := remaining frame member
      rw [Journal.before_undone undone below]
      exact agrees.behind frame older since

/-- A call does not overshoot where no frame is older than the last clearing. -/
theorem not_overshoots (framed : Framed memory journal frames)
    (since : ∀ frame ∈ frames, journal.cleared ≤ frame.time) (deed : Deed) :
    ¬ journal.Overshoots deed := by
  -- The mark belongs to one of the frames, none of which is older than the clearing.
  rintro ⟨mark, found, past, -⟩
  rcases deed with (call | script) | _
  · rw [(framed.target? call).1] at found
    obtain ⟨frame, target, rfl⟩ := Option.map_eq_some_iff.mp found
    have among := (Call.target?_eq_some (Frame.opened memory journal) target).2.1
    exact Nat.not_lt.mpr (since frame among) past
  · cases found
  · cases found

/-- No frame is older than the last clearing, as long as no log is cleared in a transaction. -/
theorem since_cleared (framed : Framed memory journal frames)
    (chronological : journal.Chronological)
    (advance : Advance memory journal frames deed after next framesAfter)
    (outside : deed = .clear → memory.inTransaction = false)
    (since : ∀ frame ∈ frames, journal.cleared ≤ frame.time) :
    ∀ frame ∈ framesAfter, next.cleared ≤ frame.time := by
  -- Either the log is cleared and there are no frames, or the clearing stays where it was.
  intro frame member
  cases advance with
  | wait => exact since frame member
  | forget =>
    -- Outside of a transaction there are no frames at all.
    have closed := outside rfl
    simp only [Memory.inTransaction, framed.snapshots, Bool.not_eq_false', List.isEmpty_iff,
      List.map_eq_nil_iff] at closed
    rw [closed] at member
    cases member
  | goOn _ _ _ _ cleared opened =>
    rw [cleared]
    rcases opened frame member with older | ⟨name, rfl⟩
    · exact since frame older
    · exact chronological.cleared
  | goBack _ _ _ _ _ cleared remaining =>
    rw [cleared]
    exact since frame (remaining frame member).1

end Framed

namespace Memory

/-- At every moment the log has the scripts in it that count, and no others. -/
def AlwaysExact (memory : Memory) (deeds : List Deed) : Prop :=
  ∀ begun, begun <+: deeds → (memory.reached begun).executed = (memory.journal begun).scripts

/-- No call overshoots at its moment. -/
def NeverOvershoots (memory : Memory) (deeds : List Deed) : Prop :=
  ∀ begun deed, begun ++ [deed] <+: deeds → ¬ (memory.journal begun).Overshoots deed

/-- The log is never cleared within a transaction. -/
def ClearsOutside (memory : Memory) (deeds : List Deed) : Prop :=
  ∀ begun deed, begun ++ [deed] <+: deeds → deed = .clear →
    (memory.reached begun).inTransaction = false

instance (memory : Memory) (deeds : List Deed) : Decidable (memory.NeverOvershoots deeds) :=
  decidable_of_iff _ forall_step_iff.symm

instance (memory : Memory) (deeds : List Deed) : Decidable (memory.ClearsOutside deeds) :=
  decidable_of_iff _ forall_step_iff.symm

variable (ledger : Option Ledger) {deeds : List Deed}

/-- The log of a store has all scripts in it that count. -/
theorem scripts_sublist (deeds : List Deed) :
    ((fresh ledger).journal deeds).scripts.Sublist ((fresh ledger).reached deeds).executed := by
  -- The start covers an empty log, and every deed keeps what is covered.
  have start : Covers (fresh ledger) {} [] := ⟨List.nil_sublist _, nofun⟩
  obtain ⟨frames, -, covers⟩ := holds_of_advance ledger
    (P := fun deeds => Covers ((fresh ledger).reached deeds) ((fresh ledger).journal deeds))
    start (fun framed advance covers => framed.covers (chronological _ _) advance covers) deeds
  exact covers.now

/-- Where nothing is done, the log is empty as it should be. -/
theorem alwaysExact_nil : (fresh ledger).AlwaysExact [] := by
  -- Nothing has been done, and nothing has been logged.
  intro begun within
  rw [List.prefix_nil.mp within]
  cases ledger <;> rfl

/-- As long as the log is exact its frames are exact too, and a call that overshoots ends that. -/
theorem exact_frames : ∀ deeds : List Deed,
    ∃ frames, Framed ((fresh ledger).reached deeds) ((fresh ledger).journal deeds) frames ∧
      ((fresh ledger).AlwaysExact deeds ↔ (fresh ledger).NeverOvershoots deeds) ∧
      ((fresh ledger).AlwaysExact deeds →
        Exact ((fresh ledger).reached deeds) ((fresh ledger).journal deeds) frames) := by
  refine holds_of_advance ledger ?_ ?_
  · refine ⟨iff_of_true (alwaysExact_nil ledger) forall_step_nil, fun always => ?_⟩
    exact ⟨always [] List.prefix_rfl, nofun, nofun⟩
  · rintro deeds deed frames framesAfter framed advance ⟨same, agrees⟩
    have ordered := chronological (fresh ledger) deeds
    simp only [AlwaysExact, NeverOvershoots, forall_prefix_concat, forall_step_concat]
    refine ⟨?_, fun ⟨before, still⟩ => ?_⟩
    · -- Only what overshoots makes a log wrong that was exact so far.
      have latest := fun always => Framed.executed_iff ordered advance (agrees always)
      exact (and_congr_right latest).trans (and_congr_left fun _ => same)
    · exact framed.exact_of_executed ordered advance (agrees before) still

/-- If the log is cleared outside of transactions only, no frame is older than the last clearing. -/
theorem frames_since_cleared : ∀ deeds : List Deed,
    ∃ frames, Framed ((fresh ledger).reached deeds) ((fresh ledger).journal deeds) frames ∧
      ((fresh ledger).ClearsOutside deeds →
        ∀ frame ∈ frames, ((fresh ledger).journal deeds).cleared ≤ frame.time) := by
  -- No frame is there at the start, and a clearing outside transactions finds none.
  refine holds_of_advance ledger (fun _ => nofun) ?_
  intro deeds deed frames framesAfter framed advance since outside
  obtain ⟨before, last⟩ := forall_step_concat.mp outside
  exact framed.since_cleared (chronological _ _) advance last (since before)

/-- A call can only overshoot if the log was cleared in a transaction. -/
theorem neverOvershoots_of_clearsOutside (outside : (fresh ledger).ClearsOutside deeds) :
    (fresh ledger).NeverOvershoots deeds := by
  intro begun deed within
  -- What holds of all deeds holds of those up to the call in question.
  have before : (fresh ledger).ClearsOutside begun := fun earlier last inside =>
    outside earlier last (inside.trans ((List.prefix_append _ _).trans within))
  obtain ⟨frames, framed, since⟩ := frames_since_cleared ledger begun
  exact framed.not_overshoots (since before) deed

/--
The log of a memory store has all scripts in it that count.

It has no others at any time unless some rollback goes back behind the last clearing of the log, from
scripts to scripts. This never happens where the log is cleared outside of transactions only.
-/
theorem log_exact_iff (deeds : List Deed) :
    ((fresh ledger).journal deeds).scripts.Sublist ((fresh ledger).reached deeds).executed ∧
    ((fresh ledger).AlwaysExact deeds ↔ (fresh ledger).NeverOvershoots deeds) ∧
    ((fresh ledger).ClearsOutside deeds → (fresh ledger).AlwaysExact deeds) := by
  -- All three parts are read off the frames, which tell what each going back overshoots.
  obtain ⟨frames, -, same, -⟩ := exact_frames ledger deeds
  exact ⟨scripts_sublist ledger deeds, same,
    fun outside => same.mpr (neverOvershoots_of_clearsOutside ledger outside)⟩

/-- A log that was cleared outside of a transaction is cut where a savepoint was set in one. -/
theorem log_exact_iff_sample :
    let deeds : List Deed := [.act (.call (.execute "create users")), .clear,
      .act (.call (.transact .begin)), .act (.call (.execute "create posts")),
      .act (.call (.transact (.savepoint "tags"))), .act (.call (.execute "create tags")),
      .act (.call (.transact (.rollbackTo "tags"))), .act (.call (.transact .commit))]
    (fresh none).ClearsOutside deeds ∧ (fresh none).AlwaysExact deeds ∧
      ((fresh none).reached deeds).executed = ["create posts"] := by
  intro deeds
  -- The log is cleared before the transaction is opened, and not within it.
  have outside : (fresh none).ClearsOutside deeds := by decide
  exact ⟨outside, (log_exact_iff none deeds).2.2 outside, by decide⟩

/--
A script stays in the log although it was rolled back.

The rollback cuts the log to a length that it had with another script, before it was cleared.
-/
theorem undone_script_remains :
    let deeds : List Deed := [.act (.call (.execute "create users")),
      .act (.call (.transact .begin)), .clear, .act (.call (.execute "create posts")),
      .act (.call (.transact .rollback))]
    ((fresh none).reached deeds).executed = ["create posts"] ∧
      ((fresh none).journal deeds).scripts = [] ∧ ¬ (fresh none).AlwaysExact deeds := by
  intro deeds
  -- The log was cleared within the transaction, so that the rollback cuts off nothing.
  have kept : ((fresh none).reached deeds).executed = ["create posts"] := by decide
  have undone : ((fresh none).journal deeds).scripts = [] := by decide
  refine ⟨kept, undone, fun always => ?_⟩
  have same := always deeds List.prefix_rfl
  rw [kept, undone] at same
  cases same

end Memory

end SchemaLedger
