import NamedQuery.Error
import NamedQuery.Json.Read

namespace NamedQuery

/-- Which page the rows are, and whether another one follows. -/
structure Page where
  current : Int64
  rows : Int64
  hasNext : Bool
  deriving DecidableEq, Repr

/-- The rows that a query found, the page they are on, and values that layers have added. -/
structure Listing (α : Type) where
  items : List α
  page : Option Page
  extras : Dict Json

namespace Listing

variable {α β : Type}

def ofItems (items : List α) : Listing α := ⟨items, none, .empty⟩

instance : Inhabited (Listing α) := ⟨ofItems []⟩

def size (l : Listing α) : Nat := l.items.length

def isEmpty (l : Listing α) : Bool := l.items.isEmpty

def hasNext (l : Listing α) : Bool := l.page.any (·.hasNext)

/-- Adds a value under a name. One that has no JSON form, given by the reason, is refused. -/
def addExtra (l : Listing α) (name : String) (value : Except String Json) :
    Except Error (Listing α) :=
  match value with
  | .ok value => .ok { l with extras := l.extras.insert name value }
  | .error reason => .error (.validation (.unserializable reason))

def extra? (l : Listing α) (name : String) : Option Json := l.extras.get? name

def map (l : Listing α) (f : α → β) : Listing β :=
  { l with items := l.items.map f }

/-- Maps every row, or fails as the first row that cannot be mapped. -/
def tryMap (l : Listing α) (f : α → Except Error β) : Except Error (Listing β) :=
  (l.items.mapM f).map fun items => { l with items := items }

end Listing
end NamedQuery
