namespace NamedQuery

/-- A TOML value. Of dates and times only their presence is kept. -/
inductive Toml where
  | text (value : String)
  | int (value : Int)
  | float (value : Float)
  | bool (value : Bool)
  | moment
  | array (items : List Toml)
  | table (entries : List (String × Toml))
  /-- A number outside the range of its kind. -/
  | outOfRange
  deriving Inhabited

namespace Toml

mutual
/-- No number in the value is outside its range. -/
def isReadable : Toml → Bool
  | outOfRange => false
  | array items => areReadable items
  | table entries => entriesReadable entries
  | _ => true

def areReadable : List Toml → Bool
  | [] => true
  | item :: rest => item.isReadable && areReadable rest

def entriesReadable : List (String × Toml) → Bool
  | [] => true
  | (_, value) :: rest => value.isReadable && entriesReadable rest
end

end Toml
end NamedQuery
