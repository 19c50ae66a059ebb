import Mathlib.Logic.Function.Basic
import SchemaLedger.Ledger.Document
import SchemaLedger.Proofs.Ledger.Records

/-! A ledger is a map from names to records that keeps the order in which the names were added. -/

namespace SchemaLedger

/-- What may be done to a ledger. -/
inductive LedgerEdit where
  | push (record : Migration)
  | replace (record : Migration)
  | remove (name : String)

/-- What is told about an edit: why it failed, whether there was a record, or which one there was. -/
inductive LedgerAnswer where
  | pushed (failure : Option MigrationError)
  | replaced (existed : Bool)
  | removed (record : Option Migration)

/-- The answer tells that the edit had to be refused. -/
def LedgerAnswer.refused : LedgerAnswer → Bool
  | .pushed failure => failure.isSome
  | .replaced existed => !existed
  | .removed record => record.isNone

/-- Edits made one after the other, with an answer to each. -/
def LedgerEdit.run {σ : Type} (step : σ → LedgerEdit → σ × LedgerAnswer) (state : σ) :
    List LedgerEdit → σ × List LedgerAnswer
  | [] => (state, [])
  | edit :: later =>
    let (next, answer) := step state edit
    let (final, answers) := run step next later
    (final, answer :: answers)

/-- A map from names to records, with the names in the order in which they were added. -/
structure OrderedMap where
  order : List String
  entry : String → Option Migration

/-- An edit of a map changes the entry of one name, and where that name is new or gone the order. -/
def OrderedMap.edit (map : OrderedMap) : LedgerEdit → OrderedMap × LedgerAnswer
  | .push record =>
    if (map.entry record.name).isSome then (map, .pushed (some (.duplicate record.name)))
    else
      (⟨map.order ++ [record.name], Function.update map.entry record.name (some record)⟩,
        .pushed none)
  | .replace record =>
    if (map.entry record.name).isSome then
      (⟨map.order, Function.update map.entry record.name (some record)⟩, .replaced true)
    else (map, .replaced false)
  | .remove name =>
    (⟨map.order.erase name, Function.update map.entry name none⟩, .removed (map.entry name))

namespace Ledger

/-- An edit of a ledger, which stays as it is if the edit is refused. -/
def edit (ledger : Ledger) : LedgerEdit → Ledger × LedgerAnswer
  | .push record =>
    match ledger.push record with
    | .ok next => (next, .pushed none)
    | .error error => (ledger, .pushed (some error))
  | .replace record =>
    match ledger.replace? record with
    | some next => (next, .replaced true)
    | none => (ledger, .replaced false)
  | .remove name =>
    match ledger.remove? name with
    | some (record, next) => (next, .removed (some record))
    | none => (ledger, .removed none)

/-- A ledger as a map. -/
def asMap (ledger : Ledger) : OrderedMap := ⟨ledger.names, ledger.get?⟩

variable {ledger next : Ledger} {record old : Migration} {name : String}
  {before after : List Migration}

/-- A record is found under its name, and under no other one. -/
theorem get?_eq_some : ledger.get? name = some record ↔
    record ∈ ledger.records ∧ record.name = name := by
  -- Names are distinct, so that a record is found by its name.
  refine ⟨get?_mem, ?_⟩
  rintro ⟨member, rfl⟩
  exact get?_of_mem member

/-- Where there is no record under a name none is removed. -/
theorem remove_of_absent (absent : ledger.get? name = none) : ledger.remove name = ledger := by
  -- The filter takes out nothing.
  refine eq_of_records (List.filter_eq_self.mpr fun record member => ?_)
  simpa using List.find?_eq_none.mp absent record member

/-- Adding a record adds its name at the end. -/
theorem asMap_push (pushed : ledger.push record = .ok next) :
    next.asMap = ⟨ledger.names ++ [record.name],
      Function.update ledger.get? record.name (some record)⟩ := by
  have order : next.names = ledger.names ++ [record.name] := by
    rw [names, (push_ok pushed).2, List.map_append]
    rfl
  -- The order grows at its end, and the entries by one.
  have entry : next.get? = Function.update ledger.get? record.name (some record) := by
    funext name
    by_cases same : name = record.name
    · rw [same, Function.update_self, get?_push_self pushed]
    · rw [Function.update_of_ne same, get?_push pushed same]
  rw [asMap, order, entry]

/-- Exchanging a record leaves the names in their order. -/
theorem asMap_replace (contained : ledger.contains record.name = true) :
    (ledger.replace record).asMap = ⟨ledger.names,
      Function.update ledger.get? record.name (some record)⟩ := by
  -- The order stays, and one entry is overwritten.
  have entry : (ledger.replace record).get? =
      Function.update ledger.get? record.name (some record) := by
    funext name
    by_cases same : name = record.name
    · rw [same, Function.update_self, get?_replace_self contained]
    · rw [Function.update_of_ne same, get?_replace same]
  rw [asMap, names_replace, entry]

/-- Removing a record takes its name from among the others, which stay in order. -/
theorem asMap_remove (ledger : Ledger) (name : String) :
    (ledger.remove name).asMap = ⟨ledger.names.erase name,
      Function.update ledger.get? name none⟩ := by
  have order : (ledger.remove name).names = ledger.names.erase name := by
    -- Names are distinct, so that taking one out once takes it out for good.
    have distinct : ledger.names.Nodup := ledger.distinct
    rw [distinct.erase_eq_filter, names, names, List.filter_map]
    rfl
  have entry : (ledger.remove name).get? = Function.update ledger.get? name none := by
    funext other
    by_cases same : other = name
    · rw [same, Function.update_self]
      -- No record with the name is left behind.
      refine List.find?_eq_none.mpr fun record member => ?_
      simpa using (List.mem_filter.mp member).2
    · rw [Function.update_of_ne same, get?_remove same]
  rw [asMap, order, entry]

/-- An edit of a ledger is the edit of a map, with the same answer. -/
theorem edit_asMap (ledger : Ledger) (edit : LedgerEdit) :
    ((ledger.edit edit).1.asMap, (ledger.edit edit).2) = ledger.asMap.edit edit := by
  have filed : ∀ name, (ledger.asMap.entry name).isSome = ledger.contains name := fun _ => rfl
  cases edit with
  | push record =>
    rw [OrderedMap.edit, filed, Ledger.edit]
    -- A record is added only where none of its name is filed.
    cases taken : ledger.contains record.name with
    | true => rw [push_of_taken taken]; rfl
    | false =>
      obtain ⟨next, pushed, -⟩ := push_of_free taken
      rw [pushed, asMap_push pushed]
      rfl
  | replace record =>
    rw [OrderedMap.edit, filed, Ledger.edit, replace?]
    -- A record is replaced only where one of its name is filed.
    cases contained : ledger.contains record.name with
    | true => exact congrArg (·, LedgerAnswer.replaced true) (asMap_replace contained)
    | false => rfl
  | remove name =>
    rw [OrderedMap.edit, Ledger.edit, remove?]
    have removed := asMap_remove ledger name
    -- Whether or not there is a record, the map is the one of the ledger without it.
    cases found : ledger.get? name with
    | none =>
      rw [remove_of_absent found] at removed
      exact congrArg₂ Prod.mk removed (congrArg LedgerAnswer.removed found.symm)
    | some record => exact congrArg₂ Prod.mk removed (congrArg LedgerAnswer.removed found.symm)

/-- Edits of a ledger are those of a map, with the same answers. -/
theorem edits_asMap (ledger : Ledger) (edits : List LedgerEdit) :
    ((LedgerEdit.run edit ledger edits).1.asMap, (LedgerEdit.run edit ledger edits).2) =
      LedgerEdit.run OrderedMap.edit ledger.asMap edits := by
  -- The induction is on the edits, each of which is made on what the one before it has left.
  induction edits generalizing ledger with
  | nil => rfl
  | cons edit later ih =>
    have step := edit_asMap ledger edit
    have rest := ih (ledger.edit edit).1
    simp only [LedgerEdit.run, ← step, ← rest]

/-- A map tells all records of a ledger in their order. -/
theorem records_of_asMap (ledger : Ledger) :
    ledger.asMap.order.filterMap ledger.asMap.entry = ledger.records := by
  -- Looking up the names one by one gives the records back.
  show (ledger.records.map (·.name)).filterMap ledger.get? = ledger.records
  rw [List.filterMap_map]
  exact (List.filterMap_eq_map_iff_forall_eq_some.mpr fun _ => get?_of_mem).trans
    (List.map_id ledger.records)

/-- An edit that is refused leaves the ledger as it is. -/
theorem edit_of_refused {edit : LedgerEdit} (refused : (ledger.edit edit).2.refused = true) :
    (ledger.edit edit).1 = ledger := by
  -- Where an edit is made its answer is no refusal, and elsewhere the ledger is given back.
  cases edit with
  | push record =>
    rw [Ledger.edit] at refused ⊢
    cases pushed : ledger.push record with
    | ok next => rw [pushed] at refused; cases refused
    | error error => rfl
  | replace record =>
    rw [Ledger.edit] at refused ⊢
    cases replaced : ledger.replace? record with
    | some next => rw [replaced] at refused; cases refused
    | none => rfl
  | remove name =>
    rw [Ledger.edit] at refused ⊢
    cases removed : ledger.remove? name with
    | some next => rw [removed] at refused; cases refused
    | none => rfl

section Position

variable (placed : ledger.records = before ++ old :: after)

include placed

/-- A record is exchanged in its place, and the others are kept. -/
theorem edit_replace_of_placed (same : record.name = old.name) :
    (ledger.edit (.replace record)).1.records = before ++ record :: after ∧
      (ledger.edit (.replace record)).2 = .replaced true := by
  -- The record is found at its place, as the names agree.
  have contained : ledger.contains record.name = true := by
    rw [contains_eq_true_iff, names, placed, same]
    simp
  rw [edit, replace?, if_pos contained]
  exact ⟨records_replace_of_placed placed same, rfl⟩

/-- A record is removed from its place, and the others are kept. -/
theorem edit_remove_of_placed :
    (ledger.edit (.remove old.name)).1.records = before ++ after ∧
      (ledger.edit (.remove old.name)).2 = .removed (some old) := by
  obtain ⟨earlier, later⟩ := name_of_placed_notMem placed
  have found : ledger.get? old.name = some old := get?_of_mem (by rw [placed]; simp)
  -- No other record has the name, so that only this one is taken out.
  have kept : ∀ part : List Migration, old.name ∉ part.map (·.name) →
      part.filter (·.name != old.name) = part := fun part absent => by
    refine List.filter_eq_self.mpr fun other member => ?_
    simpa using fun same => absent (List.mem_map.mpr ⟨other, member, same⟩)
  rw [edit, remove?, found]
  refine ⟨?_, rfl⟩
  show ledger.records.filter (·.name != old.name) = before ++ after
  rw [placed, List.filter_append, List.filter_cons_of_neg (by simp), kept before earlier,
    kept after later]

end Position

/-- The records of a ledger are found under their names, and can be changed in their places. -/
structure Indexed (ledger : Ledger) : Prop where
  distinct : ledger.names.Nodup
  listed : ledger.records = ledger.asMap.order.filterMap ledger.asMap.entry
  found : ∀ name record, ledger.get? name = some record ↔
    record ∈ ledger.records ∧ record.name = name
  contained : ∀ name, ledger.contains name = true ↔ name ∈ ledger.names
  exchanged : ∀ before old after record, ledger.records = before ++ old :: after →
    record.name = old.name →
      (ledger.edit (.replace record)).1.records = before ++ record :: after ∧
        (ledger.edit (.replace record)).2 = .replaced true
  removed : ∀ before old after, ledger.records = before ++ old :: after →
    (ledger.edit (.remove old.name)).1.records = before ++ after ∧
      (ledger.edit (.remove old.name)).2 = .removed (some old)
  refused : ∀ edit, (ledger.edit edit).2.refused = true → (ledger.edit edit).1 = ledger

/-- Every ledger is indexed by its names. -/
theorem indexed (ledger : Ledger) : ledger.Indexed where
  distinct := ledger.distinct
  listed := (records_of_asMap ledger).symm
  found _ _ := get?_eq_some
  contained _ := contains_eq_true_iff
  exchanged _ _ _ _ placed same := edit_replace_of_placed placed same
  removed _ _ _ placed := edit_remove_of_placed placed
  refused _ := edit_of_refused

/--
A ledger is a map that keeps the order in which its names were added, whatever is done to it.

Edits are answered as by a map, and lists and documents make up the ledger that they show.
-/
theorem behaves_as_ordered_map (ledger : Ledger) (edits : List LedgerEdit) :
    let final := (LedgerEdit.run edit ledger edits).1
    let answers := (LedgerEdit.run edit ledger edits).2
    (final.asMap, answers) = LedgerEdit.run OrderedMap.edit ledger.asMap edits ∧
    final.Indexed ∧
    (∀ records, Assembles records (ofRecords records)) ∧
    ∀ text records, Json.decode readDocument text = .ok records →
      Assembles records (ofDocument text) := by
  intro final answers
  refine ⟨edits_asMap ledger edits, final.indexed, assembles, fun text records decoded => ?_⟩
  -- A document is read to its records, from which the ledger is assembled.
  have made : ofDocument text = ofRecords records := by rw [ofDocument, decoded]
  exact made ▸ assembles records

end Ledger

end SchemaLedger
