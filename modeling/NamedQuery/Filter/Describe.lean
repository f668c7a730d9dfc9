import NamedQuery.Decimal.Layout
import NamedQuery.Filter.Value
import NamedQuery.Text.Quoted

namespace NamedQuery

/-- Floats in logs are positional from `0.0001` up to `1e16`. -/
def logFloats : Decimal.Layout where
  tieUp := true
  least := -4
  most := 15
  plus := ""
  nan := "NaN"
  infinity := "inf"
  negativeInfinity := "-inf"

namespace FilterValue

mutual
/-- The value as it is shown in logs. -/
def describe : FilterValue → String
  | null => "Null"
  | bool b => s!"Bool({b})"
  | int n => s!"Int({n.toInt})"
  | float x => s!"Float({logFloats.write x})"
  | text s => s!"Text({Text.quoted s})"
  | list items => s!"List({Text.bracketed (describeItems items)})"
  | map entries => "Map(\x7b" ++ ", ".intercalate (describeEntries entries) ++ "\x7d)"

def describeItems : List FilterValue → List String
  | [] => []
  | item :: rest => describe item :: describeItems rest

def describeEntries : List (String × FilterValue) → List String
  | [] => []
  | (key, value) :: rest => s!"{Text.quoted key}: {describe value}" :: describeEntries rest
end

end FilterValue
end NamedQuery
