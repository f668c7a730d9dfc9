import NamedQuery.Bounded
import NamedQuery.Dict
import NamedQuery.Json.Basic

namespace NamedQuery.Json

def text? : Json → Option String
  | .text s => some s
  | _ => none

def bool? : Json → Option Bool
  | .bool b => some b
  | _ => none

def int64? : Json → Option Int64
  | .int n => NamedQuery.int64? n
  | _ => none

def array? : Json → Option (List Json)
  | .array items => some items
  | _ => none

def object? : Json → Option (List (String × Json))
  | .object members => some members
  | _ => none

/-- Reads null as nothing. -/
def nullable {α : Type} (read : Json → Option α) : Json → Option (Option α)
  | .null => some none
  | value => (read value).map some

/-- The value of a member that may be named once at most. -/
def only? (members : List (String × Json)) (name : String) : Option (Option Json) :=
  match members.filter (·.1 == name) with
  | [] => some none
  | [member] => some (some member.2)
  | _ => none

/-- The fields of a record: by name from an object, where other names are skipped, or by position
from an array, where the last ones may be missing. -/
def fields? (names : List String) : Json → Option (List (Option Json))
  | .object members => names.mapM (only? members)
  | .array items =>
    if items.length ≤ names.length then
      some (items.map some ++ List.replicate (names.length - items.length) none)
    else none
  | _ => none

def required {α : Type} (read : Json → Option α) : Option Json → Option α
  | none => none
  | some value => read value

def optional {α : Type} (default : α) (read : Json → Option α) : Option Json → Option α
  | none => some default
  | some value => read value

mutual
/-- A value of any shape. Its objects come in key order, and of members with the same name the last
one counts. -/
def free? : Json → Option Json
  | .array items => (freeItems? items).map .array
  | .object members => (freeMembers? members []).map .object
  | .unreadable => none
  | value => some value

def freeItems? : List Json → Option (List Json)
  | [] => some []
  | item :: rest => do
    let item ← free? item
    let items ← freeItems? rest
    pure (item :: items)

def freeMembers? : List (String × Json) → List (String × Json) → Option (List (String × Json))
  | [], done => some done
  | (name, value) :: rest, done => do
    let value ← free? value
    freeMembers? rest (insertByKey name value done)
end

end NamedQuery.Json
