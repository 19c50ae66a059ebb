import SchemaLedger.Decimal.Layout
import SchemaLedger.Migration.Basic
import SchemaLedger.Migration.Error

/-! Migrations are ordered by the number their names start with, then by the rest of the name. -/

namespace SchemaLedger

/-- The parts of a name by which migrations are ordered. -/
structure OrderKey where
  number : Nat
  rest : String
  deriving DecidableEq, Repr

namespace OrderKey

/-- Numbers of names stay below this bound. -/
def bound : Nat := UInt64.size

/-- The parts of a name, which must start with digits of a number below the bound. -/
def ofName (name : String) : Except MigrationError OrderKey :=
  let digits := name.toList.takeWhile Char.isDigit
  if digits.isEmpty ∨ bound ≤ digitsValue digits then .error (.nameFormat name)
  else .ok ⟨digitsValue digits, String.ofList (name.toList.dropWhile Char.isDigit)⟩

/-- The order of two keys. -/
def compare (left right : OrderKey) : Ordering :=
  (Ord.compare left.number right.number).then (Ord.compare left.rest right.rest)

end OrderKey

/-- The order of two names, of which the first malformed one is reported. -/
def compareNames (left right : String) : Except MigrationError Ordering := do
  let leftKey ← OrderKey.ofName left
  let rightKey ← OrderKey.ofName right
  return leftKey.compare rightKey

/-- Migrations with their keys, up to the first name that is repeated or malformed. -/
def keyedMigrations (seen : List String) :
    List Migration → Except MigrationError (List (OrderKey × Migration))
  | [] => .ok []
  | migration :: rest =>
    if seen.contains migration.name then .error (.duplicate migration.name)
    else do
      -- Whether a name is repeated is asked before it is taken apart.
      let key ← OrderKey.ofName migration.name
      let keyed ← keyedMigrations (migration.name :: seen) rest
      return (key, migration) :: keyed

/-- Migrations in canonical order; those that compare equal stay in the order given. -/
def canonicalOrder (migrations : List Migration) : Except MigrationError (List Migration) := do
  let keyed ← keyedMigrations [] migrations
  return (keyed.mergeSort fun left right => (left.1.compare right.1).isLE).map (·.2)

end SchemaLedger
