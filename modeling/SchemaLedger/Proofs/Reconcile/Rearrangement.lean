import SchemaLedger.Proofs.Migration.Ties
import SchemaLedger.Proofs.Reconcile.Outcome

/-! A run depends on the order in which migrations are given only where their names compare equal. -/

namespace SchemaLedger

namespace Reconciler

open Migration (ties)

/-- All that a run does is settled by the canonical order of its migrations. -/
theorem run_congr {σ : Type} (r : Reconciler σ) {first second sorted : List Migration}
    (ordered : canonicalOrder first = .ok sorted) (orderedToo : canonicalOrder second = .ok sorted)
    (session : Session σ) : r.run second session = r.run first session := by
  -- A run depends on its migrations through their order alone.
  rw [r.run_of_ordered ordered, r.run_of_ordered orderedToo]

/--
Rearranged migrations are put in order as before, exactly if those that tie come as before.

Then all runs do the same with them, and where no two names tie this is so in any case.
-/
theorem runs_of_rearranged {first second sorted : List Migration}
    (rearranged : first.Perm second) (ordered : canonicalOrder first = .ok sorted) :
    ∃ other, canonicalOrder second = .ok other ∧
      (other = sorted ↔ ∀ name, second.filter (ties name) = first.filter (ties name)) ∧
      (other = sorted → ∀ (σ : Type) (r : Reconciler σ) (session : Session σ),
        r.run second session = r.run first session) ∧
      ((∀ left ∈ first, ∀ right ∈ first, right.ties left.name = true → left = right) →
        other = sorted) := by
  -- The other list can be sorted too, as each name is judged by itself.
  obtain ⟨other, orderedToo⟩ := canonicalOrder_perm rearranged ordered
  refine ⟨other, orderedToo, canonicalOrder_eq_iff rearranged ordered orderedToo, ?_, ?_⟩
  · rintro rfl σ r session
    exact r.run_congr ordered orderedToo session
  · exact fun apart => canonicalOrder_eq_of_apart rearranged apart ordered orderedToo

/-- Migrations with different numbers are run in the same order however they are given. -/
theorem runs_of_rearranged_sample :
    [Sample.users, Sample.accounts].Perm [Sample.accounts, Sample.users] ∧
    canonicalOrder [Sample.users, Sample.accounts] = .ok [Sample.accounts, Sample.users] ∧
    (∀ left ∈ [Sample.users, Sample.accounts], ∀ right ∈ [Sample.users, Sample.accounts],
      right.ties left.name = true → left = right) ∧
    canonicalOrder [Sample.accounts, Sample.users] = .ok [Sample.accounts, Sample.users] := by
  have swapped : [Sample.users, Sample.accounts].Perm [Sample.accounts, Sample.users] := .swap ..
  -- The two numbers differ, so that neither ties with the other.
  have apart : ∀ left ∈ [Sample.users, Sample.accounts],
      ∀ right ∈ [Sample.users, Sample.accounts], right.ties left.name = true → left = right := by
    decide +kernel
  obtain ⟨_, ordered, -, -, same⟩ := runs_of_rearranged swapped Sample.accounts_before_users
  exact ⟨swapped, Sample.accounts_before_users, apart, same apart ▸ ordered⟩

end Reconciler

namespace Sample

/-- A migration whose name differs in leading zeros from that of another one. -/
def members : Migration :=
  { name := "01_users", up := "create members", down := "drop members", description := "members" }

/-- Migrations whose names differ in leading zeros stay in the order given. -/
theorem users_tie_with_members :
    canonicalOrder [users, members] = .ok [users, members] ∧
      canonicalOrder [members, users] = .ok [members, users] :=
  -- A tied list stays as it is, whichever way it is given.
  ⟨canonicalOrder_of_tied ⟨1, "_users"⟩ (by decide) (by decide +kernel),
    canonicalOrder_of_tied ⟨1, "_users"⟩ (by decide) (by decide +kernel)⟩

end Sample

namespace Reconciler

/--
Of two migrations that tie, the one given last is the one that a run compares with its record.

Here one of them has changed, so that a run in production is refused or not, just as they are given.
-/
theorem refusal_depends_on_arrangement :
    let memory := Memory.withLedger ⟨[Sample.people, Sample.members], by decide⟩
    let production := inMemory (fun _ => Sample.epoch) false
    (¬ ∀ first second sorted : List Migration, first.Perm second →
      canonicalOrder first = .ok sorted → canonicalOrder second = .ok sorted) ∧
    production.result [Sample.users, Sample.members] memory =
      .ok { alreadyApplied := ["1_users", "01_users"] } ∧
    production.result [Sample.members, Sample.users] memory = .error (.upChanged "1_users") := by
  intro memory production
  obtain ⟨ordered, orderedToo⟩ := Sample.users_tie_with_members
  have closed : memory.inTransaction = false := rfl
  refine ⟨fun same => ?_, ?_, ?_⟩
  · -- Both lists are in canonical order already, although they differ.
    have claimed := same _ _ _ (.swap ..) ordered
    rw [orderedToo] at claimed
    revert claimed
    decide
  · -- The last of the two is compared, which is another one in each arrangement.
    obtain ⟨_, _, _, _, ended⟩ := run_inMemory (fun _ => Sample.epoch) false ordered closed
    rw [show production.result [Sample.users, Sample.members] memory = _ from ended]
    decide +kernel
  · obtain ⟨_, _, _, _, ended⟩ := run_inMemory (fun _ => Sample.epoch) false orderedToo closed
    rw [show production.result [Sample.members, Sample.users] memory = _ from ended]
    decide +kernel

end Reconciler

end SchemaLedger
