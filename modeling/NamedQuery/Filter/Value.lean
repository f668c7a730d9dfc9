import NamedQuery.Bounded
import NamedQuery.Decimal.Scan
import NamedQuery.Dict
import NamedQuery.Text.Blank

namespace NamedQuery

/-- A value given for a filter. The entries of a map have ascending keys. -/
inductive FilterValue where
  | null
  | bool (value : Bool)
  | int (value : Int64)
  | float (value : Float)
  | text (value : String)
  | list (items : List FilterValue)
  | map (entries : List (String × FilterValue))
  deriving Inhabited

namespace FilterValue

/-- No value to filter by: null, or a text, list or map with nothing in it. -/
def isEmpty : FilterValue → Bool
  | null => true
  | text s => s.isEmpty
  | list items => items.isEmpty
  | map entries => entries.isEmpty
  | bool _ | int _ | float _ => false

def asText? : FilterValue → Option String
  | text s => some s
  | _ => none

/-- An integer as it is, or a text that spells one between blanks. -/
def asInt? : FilterValue → Option Int64
  | int n => some n
  | text s => (Decimal.readInt (Text.trim s.toList)).bind int64?
  | _ => none

/-- A number as a float, or a text that spells a float between blanks. -/
def asFloat? : FilterValue → Option Float
  | float x => some x
  | int n => some n.toFloat
  | text s => Decimal.readFloat (Text.trim s.toList)
  | _ => none

def asBool? : FilterValue → Option Bool
  | bool b => some b
  | text "true" => some true
  | text "false" => some false
  | _ => none

def asList? : FilterValue → Option (List FilterValue)
  | list items => some items
  | _ => none

def get? (v : FilterValue) (key : String) : Option FilterValue :=
  match v with
  | map entries => entries.lookup key
  | _ => none

mutual
/-- At every depth the keys of a map ascend. -/
def Canonical : FilterValue → Prop
  | list items => CanonicalItems items
  | map entries => Ascending entries ∧ CanonicalEntries entries
  | _ => True

def CanonicalItems : List FilterValue → Prop
  | [] => True
  | item :: rest => item.Canonical ∧ CanonicalItems rest

def CanonicalEntries : List (String × FilterValue) → Prop
  | [] => True
  | (_, value) :: rest => value.Canonical ∧ CanonicalEntries rest
end

end FilterValue
end NamedQuery
