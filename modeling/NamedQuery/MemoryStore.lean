import NamedQuery.Database
import NamedQuery.Decimal.Scan

namespace NamedQuery

/-- A store that holds its rows in memory. It knows a statement's window alone, and even that only
when told to. -/
structure MemoryStore (ρ : Type) where
  rows : List ρ
  failure : Option Error
  windowed : Bool

namespace MemoryStore

variable {ρ : Type}

/-- What follows the first place where a word stands. -/
def after? (word : List Char) : List Char → Option (List Char)
  | [] => if word.isEmpty then some [] else none
  | c :: rest =>
    if word.isPrefixOf (c :: rest) then some ((c :: rest).drop word.length) else after? word rest

/-- The number that stands right after the first place of a word. -/
def numberAfter? (word sql : String) : Option Nat :=
  (after? word.toList sql.toList).bind fun rest =>
    let digits := rest.takeWhile Char.isDigit
    if digits.isEmpty then none else some (Decimal.ofDigits digits)

def window (sql : String) (rows : List ρ) : List ρ :=
  let rows := rows.drop ((numberAfter? " OFFSET " sql).getD 0)
  match numberAfter? " LIMIT " sql with
  | some n => rows.take n
  | none => rows

def answer (m : MemoryStore ρ) : Store ρ := fun sql _ =>
  match m.failure with
  | some error => .error error
  | none => .ok (if m.windowed then window sql m.rows else m.rows)

end MemoryStore
end NamedQuery
