import SchemaLedger.Proofs.Store.Journal

/-! A memory store and its journal go back to the same frames, one by length and one by time. -/

namespace SchemaLedger

namespace Memory

variable {memory after : Memory} {call : Call}

/-- What a call that succeeds does to the log, to the snapshots and to the number of writes. -/
theorem answer_succeeded (succeeded : store.answer call memory = (none, after)) :
    after.executed = (match call.target? Snapshot.savepoint memory.snapshots with
      | some snapshot => memory.executed.take snapshot.executed
      | none => memory.executed ++ call.script?.toList) ∧
    after.snapshots = call.framesBehind Snapshot.savepoint memory.snapshot memory.snapshots ∧
    after.writes = memory.writes + if call.writesLedger then 1 else 0 := by
  cases call with
  | load =>
    rw [answer_load] at succeeded
    cases succeeded
    exact ⟨(List.append_nil _).symm, rfl, rfl⟩
  | swap expected next =>
    simp only [Store.answer, store, swap] at succeeded
    -- Only a write in place of the expected ledger succeeds.
    split at succeeded
    · split at succeeded
      · cases succeeded
        exact ⟨(List.append_nil _).symm, rfl, rfl⟩
      · cases succeeded
    · cases succeeded
  | execute script =>
    by_cases fails : memory.failing.contains script = true
    · -- A script that fails is no success.
      rw [answer_execute_of_failing fails] at succeeded
      cases succeeded
    · rw [answer_execute (by simpa using fails)] at succeeded
      cases succeeded
      exact ⟨rfl, rfl, rfl⟩
  | transact step =>
    cases step with
    | begin | commit | savepoint =>
      simp only [Store.answer, store, transact] at succeeded
      split at succeeded
      all_goals cases succeeded
      -- None of them touches the log, which only the beginning and a savepoint measure.
      exact ⟨(List.append_nil _).symm, rfl, rfl⟩
    | rollback =>
      simp only [Store.answer, store, transact] at succeeded
      -- A rollback goes back to the oldest copy, if there is one.
      cases oldest : memory.snapshots.getLast? with
      | none =>
        rw [oldest] at succeeded
        cases succeeded
      | some start =>
        rw [oldest] at succeeded
        cases succeeded
        exact ⟨by simp only [Call.target?, oldest, restore], rfl, rfl⟩
    | rollbackTo name =>
      simp only [Store.answer, store, transact, fromSavepoint] at succeeded
      -- The frames down to the savepoint go, and its own copy is the one that is used.
      cases frames : memory.snapshots.dropWhile (·.savepoint != some name) with
      | nil =>
        rw [frames] at succeeded
        cases succeeded
      | cons found older =>
        rw [frames] at succeeded
        cases succeeded
        exact ⟨by simp only [Call.target?, frames, List.head?_cons, restore],
          by simp only [Call.framesBehind, frames], rfl⟩
    | release name =>
      simp only [Store.answer, store, transact, fromSavepoint] at succeeded
      cases frames : memory.snapshots.dropWhile (·.savepoint != some name) with
      | nil =>
        rw [frames] at succeeded
        cases succeeded
      | cons found older =>
        rw [frames] at succeeded
        cases succeeded
        exact ⟨(List.append_nil _).symm,
          by simp only [Call.framesBehind, frames, List.tail_cons], rfl⟩

/-- A call succeeds, or it leaves at most the note of a script that failed. -/
theorem answer_cases (memory : Memory) (call : Call) :
    (∃ after, store.answer call memory = (none, after)) ∨
      ∃ error failed, store.answer call memory = (some error, { memory with failed }) := by
  -- A call that fails is noted, and changes nothing else.
  cases answered : store.answer call memory with
  | mk failure after =>
    cases failure with
    | none => exact .inl ⟨after, rfl⟩
    | some error =>
      rcases memory.answer_failed call with succeeded | ⟨failed, kept⟩
      · rw [answered] at succeeded
        cases succeeded
      · rw [answered] at kept
        exact .inr ⟨error, failed, congrArg (some error, ·) kept⟩

/-- A call that has something to go back to succeeds. -/
theorem answer_of_target {snapshot : Snapshot}
    (found : call.target? Snapshot.savepoint memory.snapshots = some snapshot) :
    (store.answer call memory).1 = none := by
  -- No other call goes back to a copy.
  -- There is a copy to go back to, which is all that a rollback needs.
  cases call with
  | transact step =>
    cases step with
    | rollback =>
      simp only [Call.target?] at found
      simp only [Store.answer, store, transact, found, failure?]
    | rollbackTo name =>
      simp only [Call.target?] at found
      obtain ⟨older, frames⟩ := List.head?_eq_some_iff.mp found
      simp only [Store.answer, store, transact, fromSavepoint, frames, failure?]
    | begin | commit | savepoint | release => cases found
  | load | swap | execute => cases found

end Memory

/-- A point to which a rollback may go back, as the memory and as the journal know it. -/
structure Frame where
  savepoint : Option String
  time : Nat
  scripts : List String
  /-- The length of the log that the memory restores. -/
  length : Nat
  ledger : Option Ledger

namespace Frame

/-- What the journal knows of a frame. -/
def mark (frame : Frame) : Mark := ⟨frame.savepoint, frame.time, frame.scripts⟩

/-- What the memory knows of a frame. -/
def snapshot (frame : Frame) : Snapshot := ⟨frame.savepoint, frame.length, frame.ledger⟩

/-- A frame opened at this moment. -/
def opened (memory : Memory) (journal : Journal) (savepoint : Option String) : Frame :=
  ⟨savepoint, journal.time, journal.scripts, memory.executed.length, memory.ledger⟩

@[simp] theorem savepoint_mark (frame : Frame) : frame.mark.savepoint = frame.savepoint := rfl

@[simp] theorem savepoint_snapshot (frame : Frame) :
    frame.snapshot.savepoint = frame.savepoint := rfl

variable (memory : Memory) (journal : Journal) (savepoint : Option String)

@[simp] theorem mark_opened : (opened memory journal savepoint).mark = journal.mark savepoint :=
  rfl

@[simp] theorem snapshot_opened :
    (opened memory journal savepoint).snapshot = memory.snapshot savepoint := rfl

end Frame

namespace Call

variable {β γ : Type} {savepoint : β → Option String} {opened : Option String → β}
  {savepointToo : γ → Option String} {openedToo : Option String → γ} (view : γ → β)

/-- Frames that are seen in another way are opened, kept and forgotten by the same calls. -/
theorem framesBehind_map (named : ∀ frame, savepoint (view frame) = savepointToo frame)
    (same : ∀ name, view (openedToo name) = opened name) (frames : List γ) (call : Call) :
    call.framesBehind savepoint opened (frames.map view) =
      (call.framesBehind savepointToo openedToo frames).map view := by
  -- Each step looks at savepoints only, and those are the same in both views.
  cases call with
  | transact step =>
    cases step <;> simp [framesBehind, same, named, List.dropWhile_map, Function.comp_def]
  | load | swap | execute => rfl

/-- Frames that are seen in another way are gone back to by the same calls. -/
theorem target?_map (named : ∀ frame, savepoint (view frame) = savepointToo frame)
    (frames : List γ) (call : Call) :
    call.target? savepoint (frames.map view) = (call.target? savepointToo frames).map view := by
  -- The frame to go back to is found by its savepoint, which is the same in both views.
  cases call with
  | transact step => cases step <;> simp [target?, named, List.dropWhile_map, Function.comp_def]
  | load | swap | execute => rfl

/-- A call opens at most one frame, and otherwise only forgets frames. -/
theorem framesBehind_cases (frames : List β) (call : Call) :
    (call.framesBehind savepoint opened frames).Sublist frames ∨
      ∃ name kept, call.framesBehind savepoint opened frames = opened name :: kept ∧
        kept.Sublist frames := by
  -- Opening and dividing put a frame in front, and all other calls only drop some.
  cases call with
  | transact step =>
    cases step with
    | begin => exact .inr ⟨none, [], rfl, List.nil_sublist _⟩
    | commit | rollback => exact .inl (List.nil_sublist _)
    | savepoint name => exact .inr ⟨some name, frames, rfl, List.Sublist.refl _⟩
    | rollbackTo name => exact .inl (List.dropWhile_sublist _)
    | release name => exact .inl ((List.tail_sublist _).trans (List.dropWhile_sublist _))
  | load | swap | execute => exact .inl (List.Sublist.refl _)

variable (opened) in
/-- The frame that is gone back to is the newest one left, if any is left. -/
theorem target?_eq_some {frames : List β} {frame : β} {call : Call}
    (found : call.target? savepoint frames = some frame) :
    call.writesLedger = false ∧ frame ∈ frames ∧ (call.framesBehind savepoint opened frames = [] ∨
      ∃ older, call.framesBehind savepoint opened frames = frame :: older ∧
        (frame :: older).Sublist frames) := by
  cases call with
  | transact step =>
    cases step with
    | rollback => exact ⟨rfl, List.mem_of_getLast? found, .inl rfl⟩
    | rollbackTo name =>
      -- The savepoint stays, so that it can be gone back to once more.
      obtain ⟨older, behind⟩ := List.head?_eq_some_iff.mp found
      have kept : (frame :: older).Sublist frames := behind ▸ List.dropWhile_sublist _
      exact ⟨rfl, kept.subset List.mem_cons_self, .inr ⟨older, behind, kept⟩⟩
    | begin | commit | savepoint | release => cases found
  | load | swap | execute => cases found

end Call

/-- A memory and its journal have the same frames, each of them opened after the older ones. -/
structure Framed (memory : Memory) (journal : Journal) (frames : List Frame) : Prop where
  marks : journal.marks = frames.map Frame.mark
  snapshots : memory.snapshots = frames.map Frame.snapshot
  descending : frames.Pairwise fun newer older => older.time ≤ newer.time
  recent : ∀ frame ∈ frames, frame.time < journal.time

/--
How a memory and its journal go on when something is done.

A call goes on from where it is, or back to a frame; anything else leaves the standing calls alone.
-/
inductive Advance (memory : Memory) (journal : Journal) (frames : List Frame) :
    Deed → Memory → Journal → List Frame → Prop where
  | wait {deed : Deed} {after : Memory} (kept : after.executed = memory.executed)
      (written : after.writes = memory.writes)
      (onward : journal.target? deed = none) :
      Advance memory journal frames deed after { journal with time := journal.time + 1 } frames
  | forget {after : Memory} (emptied : after.executed = [])
      (written : after.writes = memory.writes) :
      Advance memory journal frames .clear after
        { journal with time := journal.time + 1, cleared := journal.time } frames
  | goOn {call : Call} {after : Memory} {next : Journal} {framesAfter : List Frame}
      (onward : journal.target? (.act (.call call)) = none)
      (logged : after.executed = memory.executed ++ call.script?.toList)
      (written : after.writes = memory.writes + if call.writesLedger then 1 else 0)
      (entered : next.standing = journal.standing ++ [(journal.time, call)])
      (cleared : next.cleared = journal.cleared)
      (framed : ∀ frame ∈ framesAfter, frame ∈ frames ∨
        ∃ name, frame = Frame.opened memory journal name) :
      Advance memory journal frames (.act (.call call)) after next framesAfter
  | goBack {call : Call} {after : Memory} {next : Journal} {framesAfter : List Frame}
      {frame : Frame} (found : journal.target? (.act (.call call)) = some frame.mark)
      (among : frame ∈ frames)
      (restored : after.executed = memory.executed.take frame.length)
      (written : after.writes = memory.writes)
      (undone : next.standing = journal.before frame.time)
      (cleared : next.cleared = journal.cleared)
      (framed : ∀ older ∈ framesAfter, older ∈ frames ∧ older.time ≤ frame.time) :
      Advance memory journal frames (.act (.call call)) after next framesAfter

namespace Framed

variable {memory : Memory} {journal : Journal} {frames : List Frame}

/-- What a call goes back to is the same for the memory and for its journal. -/
theorem target? (framed : Framed memory journal frames) (call : Call) :
    journal.target? (.act (.call call)) =
        (call.target? Frame.savepoint frames).map Frame.mark ∧
      call.target? Snapshot.savepoint memory.snapshots =
        (call.target? Frame.savepoint frames).map Frame.snapshot := by
  -- Both look for the frame by its savepoint or its place, which a mark and a snapshot share.
  constructor
  · rw [Journal.target?, framed.marks]
    exact Call.target?_map Frame.mark Frame.savepoint_mark frames call
  · rw [framed.snapshots]
    exact Call.target?_map Frame.snapshot Frame.savepoint_snapshot frames call

/-- A call that fails has nothing to go back to. -/
theorem no_target (framed : Framed memory journal frames) {call : Call}
    (failed : (Memory.store.answer call memory).1 ≠ none) :
    journal.target? (.act (.call call)) = none := by
  obtain ⟨marks, snapshots⟩ := framed.target? call
  cases target : call.target? Frame.savepoint frames with
  | none => rw [marks, target, Option.map_none]
  | some frame =>
    -- With a frame to go back to the call would have succeeded.
    rw [target] at snapshots
    exact absurd (Memory.answer_of_target snapshots) failed

/-- Time goes on without the frames. -/
theorem wait (framed : Framed memory journal frames) {after : Memory} {next : Journal}
    (snapshots : after.snapshots = memory.snapshots)
    (marks : next.marks = journal.marks) (later : next.time = journal.time + 1) :
    Framed after next frames := by
  -- No frame is opened or dropped, and time goes on.
  refine ⟨marks.trans framed.marks, snapshots.trans framed.snapshots, framed.descending, ?_⟩
  intro frame member
  have earlier := framed.recent frame member
  omega

/-- A call that succeeds leaves the same frames to the memory and to its journal. -/
theorem framesBehind (framed : Framed memory journal frames) {call : Call} {after : Memory}
    (snapshots : after.snapshots =
      call.framesBehind Snapshot.savepoint memory.snapshot memory.snapshots) :
    Framed after (journal.note (.act (.call call)) true)
      (call.framesBehind Frame.savepoint (Frame.opened memory journal) frames) := by
  obtain ⟨marks, same, descending, recent⟩ := framed
  -- The frames that are kept were opened before, and a new one is opened now.
  have later {kept : List Frame} (sublist : kept.Sublist frames) :
      ∀ frame ∈ kept, frame.time < journal.time + 1 := by
    intro frame member
    have earlier := recent frame (sublist.subset member)
    omega
  refine ⟨?_, ?_, ?_, ?_⟩
  · -- Marks and copies are kept frame by frame, as savepoints are all that is looked at.
    show call.framesBehind Mark.savepoint journal.mark journal.marks = _
    rw [marks]
    exact Call.framesBehind_map Frame.mark Frame.savepoint_mark
      (Frame.mark_opened memory journal) frames call
  · rw [snapshots, same]
    exact Call.framesBehind_map Frame.snapshot Frame.savepoint_snapshot
      (Frame.snapshot_opened memory journal) frames call
  · rcases call.framesBehind_cases frames with sublist | ⟨name, kept, opens, sublist⟩
    · exact descending.sublist sublist
    · rw [opens]
      -- What has just been opened is newer than everything else.
      refine List.pairwise_cons.mpr ⟨fun frame member => ?_, descending.sublist sublist⟩
      exact Nat.le_of_lt (recent frame (sublist.subset member))
  · rcases call.framesBehind_cases frames with sublist | ⟨name, kept, opens, sublist⟩
    · exact later sublist
    · rw [opens]
      intro frame member
      rcases List.mem_cons.mp member with rfl | older
      · exact Nat.lt_succ_self _
      · exact later sublist frame older

/-- A call goes on from where it is, or back to one of the frames. -/
theorem advance_call (framed : Framed memory journal frames) {call : Call} {after : Memory}
    (succeeded : Memory.store.answer call memory = (none, after)) :
    Advance memory journal frames (.act (.call call)) after
      (journal.note (.act (.call call)) true)
      (call.framesBehind Frame.savepoint (Frame.opened memory journal) frames) := by
  obtain ⟨logged, -, written⟩ := Memory.answer_succeeded succeeded
  -- Frame by frame the copies are those that the memory keeps.
  obtain ⟨marks, snapshots⟩ := framed.target? call
  rw [snapshots] at logged
  cases target : call.target? Frame.savepoint frames with
  | none =>
    -- Only here may a frame be opened, and it is the newest one then.
    rw [target] at marks logged
    refine .goOn marks logged written ?_ rfl ?_
    · show journal.standingBehind call = _
      simp only [Journal.standingBehind, marks, Option.map_none]
    · intro frame member
      rcases call.framesBehind_cases frames with sublist | ⟨name, kept, opens, sublist⟩
      · exact .inl (sublist.subset member)
      · rw [opens] at member
        rcases List.mem_cons.mp member with rfl | older
        · exact .inr ⟨name, rfl⟩
        · exact .inl (sublist.subset older)
  | some frame =>
    -- What is left beneath the frame is older than it, and so are the calls that stand.
    rw [target] at marks logged
    obtain ⟨silent, among, remaining⟩ := Call.target?_eq_some (Frame.opened memory journal) target
    refine .goBack marks among logged ?_ ?_ rfl ?_
    · simpa only [silent, Bool.false_eq_true, if_false, Nat.add_zero] using written
    · show journal.standingBehind call = _
      simp only [Journal.standingBehind, marks, Option.map_some]
      rfl
    · intro older member
      rcases remaining with none | ⟨others, remaining, sublist⟩
      · rw [none] at member
        cases member
      · rw [remaining] at member
        refine ⟨sublist.subset member, ?_⟩
        rcases List.mem_cons.mp member with rfl | beneath
        · exact Nat.le_refl _
        · exact (List.pairwise_cons.mp (framed.descending.sublist sublist)).1 older beneath

/-- Whatever is done, the memory and its journal go on together. -/
theorem advance (framed : Framed memory journal frames) (deed : Deed) :
    ∃ framesAfter,
      Framed (memory.perform deed).2 (journal.note deed (memory.perform deed).1) framesAfter ∧
      Advance memory journal frames deed (memory.perform deed).2
        (journal.note deed (memory.perform deed).1) framesAfter := by
  cases deed with
  | clear =>
    -- Clearing empties the log, and lets the time go on.
    have still : Framed memory.clearExecuted (journal.note .clear true) frames :=
      framed.wait rfl rfl rfl
    exact ⟨frames, still, .forget rfl rfl⟩
  | act action =>
    cases action with
    | failOn script =>
      have still : Framed (memory.failOn script)
          (journal.note (.act (.failOn script)) true) frames := framed.wait rfl rfl rfl
      exact ⟨frames, still, .wait rfl rfl rfl⟩
    | call call =>
      rcases memory.answer_cases call with ⟨after, answered⟩ | ⟨error, failed, answered⟩
      · obtain ⟨-, snapshots, -⟩ := Memory.answer_succeeded answered
        simp only [Memory.perform, Memory.act, answered]
        exact ⟨_, framed.framesBehind snapshots, framed.advance_call answered⟩
      · -- A rollback never fails where there is a frame for it.
        have refused : (Memory.store.answer call memory).1 ≠ none := by
          rw [answered]
          exact Option.some_ne_none error
        simp only [Memory.perform, Memory.act, answered]
        have still : Framed { memory with failed } (journal.note (.act (.call call)) false) frames :=
          framed.wait rfl rfl rfl
        exact ⟨frames, still, .wait rfl rfl (framed.no_target refused)⟩

end Framed

namespace Memory

/-- A store in which nothing was done yet has no frames. -/
theorem fresh_framed (ledger : Option Ledger) : Framed (fresh ledger) {} [] := by
  -- No transaction is open at the start.
  cases ledger <;> exact ⟨rfl, rfl, .nil, nofun⟩

/-- A journal keeps its chronology, whatever is done. -/
theorem chronological (memory : Memory) (deeds : List Deed) :
    (memory.journal deeds).Chronological := by
  -- The journal grows at its end, by a note of the latest deed.
  induction deeds using List.reverseRecOn with
  | nil => exact ⟨nofun, .nil, Nat.le_refl _⟩
  | append_singleton deeds deed ih =>
    rw [journal_concat]
    exact ih.note deed _

/-- What holds at first, and goes on to hold with each deed, holds of some frames in the end. -/
theorem holds_of_advance (ledger : Option Ledger) {P : List Deed → List Frame → Prop}
    (start : P [] [])
    (step : ∀ {deeds deed frames framesAfter},
      Framed ((fresh ledger).reached deeds) ((fresh ledger).journal deeds) frames →
      Advance ((fresh ledger).reached deeds) ((fresh ledger).journal deeds) frames deed
        ((fresh ledger).reached (deeds ++ [deed])) ((fresh ledger).journal (deeds ++ [deed]))
        framesAfter →
      P deeds frames → P (deeds ++ [deed]) framesAfter)
    (deeds : List Deed) :
    ∃ frames, Framed ((fresh ledger).reached deeds) ((fresh ledger).journal deeds) frames ∧
      P deeds frames := by
  -- The last deed is the one that is added, as the frames are those that the others have left.
  induction deeds using List.reverseRecOn with
  | nil => exact ⟨[], fresh_framed ledger, start⟩
  | append_singleton deeds deed ih =>
    obtain ⟨frames, framed, holds⟩ := ih
    obtain ⟨framesAfter, further, advance⟩ := framed.advance deed
    rw [← reached_concat, ← journal_concat] at further advance
    exact ⟨framesAfter, further, step framed advance holds⟩

end Memory

end SchemaLedger
