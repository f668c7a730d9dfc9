import NamedQuery.Filter.Value
import NamedQuery.Sql.Direction

namespace NamedQuery

structure SortTerm where
  field : String
  direction : Sql.Direction
  deriving DecidableEq, Repr

/-- What one call asks of a query: values for its filters, an order, and a window on the rows, given
outright by `take` and `skip` or by page. -/
structure Criteria where
  filters : Dict FilterValue
  sort : List SortTerm
  take : Option Int64
  skip : Option Int64
  page : Option Int64
  rows : Option Int64
  noPagination : Bool

namespace Criteria

def default : Criteria := ⟨.empty, [], none, none, none, none, false⟩

instance : Inhabited Criteria := ⟨default⟩

/-- Nothing is asked for. -/
def isDefault (c : Criteria) : Bool :=
  c.filters.isEmpty && c.sort.isEmpty && c.take.isNone && c.skip.isNone && c.page.isNone &&
    c.rows.isNone && !c.noPagination

def filter (c : Criteria) (key : String) (value : FilterValue) : Criteria :=
  { c with filters := c.filters.insert key value }

def sortBy (c : Criteria) (field : String) (direction : Sql.Direction) : Criteria :=
  { c with sort := c.sort ++ [⟨field, direction⟩] }

/-- The filters that have a value to filter by, in key order. -/
def active (c : Criteria) : List (String × FilterValue) :=
  c.filters.entries.filter fun e => !e.2.isEmpty

end Criteria
end NamedQuery
