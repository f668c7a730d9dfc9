import NamedQuery.Filter.Value
import NamedQuery.Json.Read

namespace NamedQuery.FilterValue

mutual
/-- The document of a value. A float that is no finite number is written as null. -/
def toJson : FilterValue → Json
  | null => .null
  | bool b => .bool b
  | int n => .int n.toInt
  | float x => if x.isFinite then .float x else .null
  | text s => .text s
  | list items => .array (toJsonItems items)
  | map entries => .object (toJsonEntries entries)

def toJsonItems : List FilterValue → List Json
  | [] => []
  | item :: rest => toJson item :: toJsonItems rest

def toJsonEntries : List (String × FilterValue) → List (String × Json)
  | [] => []
  | (key, value) :: rest => (key, toJson value) :: toJsonEntries rest
end

mutual
/-- Reads any document. An integer of more than 64 bits becomes a float, and of entries with the same
key the last one counts. -/
def ofJson? : Json → Option FilterValue
  | .null => some null
  | .bool b => some (bool b)
  | .int n => some ((int64? n).elim (float (Float.ofInt n)) int)
  | .float x => some (float x)
  | .text s => some (text s)
  | .array items => (ofJsonItems? items).map list
  | .object members => (ofJsonMembers? members []).map map
  | .unreadable => none

def ofJsonItems? : List Json → Option (List FilterValue)
  | [] => some []
  | item :: rest => do
    let item ← ofJson? item
    let items ← ofJsonItems? rest
    pure (item :: items)

def ofJsonMembers? : List (String × Json) → List (String × FilterValue) →
    Option (List (String × FilterValue))
  | [], done => some done
  | (key, value) :: rest, done => do
    let value ← ofJson? value
    ofJsonMembers? rest (insertByKey key value done)
end

end NamedQuery.FilterValue
