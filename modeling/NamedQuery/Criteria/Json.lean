import NamedQuery.Criteria
import NamedQuery.Filter.Json

namespace NamedQuery

open Json (fields? optional required nullable)

def Sql.Direction.toJson : Sql.Direction → Json
  | ascending => .text "asc"
  | descending => .text "desc"

def Sql.Direction.ofName? : String → Option Sql.Direction
  | "asc" | "ASC" => some .ascending
  | "desc" | "DESC" => some .descending
  | _ => none

/-- A direction is given by its name, or by an object with the name as its only member and null as
its value. -/
def Sql.Direction.ofJson? : Json → Option Sql.Direction
  | .text name => ofName? name
  | .object [(name, .null)] => ofName? name
  | _ => none

namespace SortTerm

def toJson (t : SortTerm) : Json :=
  .object [("field", .text t.field), ("direction", t.direction.toJson)]

def ofJson? (value : Json) : Option SortTerm := do
  let [field, direction] ← fields? ["field", "direction"] value | none
  let field ← required Json.text? field
  let direction ← optional .ascending Sql.Direction.ofJson? direction
  pure ⟨field, direction⟩

end SortTerm

/-- A member that is left out when there is no value. -/
def member? (name : String) : Option Int64 → List (String × Json)
  | none => []
  | some n => [(name, .int n.toInt)]

/-- The filters of an object, the last one of each name. -/
def filters? (members : List (String × Json)) (done : Dict FilterValue) :
    Option (Dict FilterValue) :=
  match members with
  | [] => some done
  | (key, value) :: rest => do
    let value ← FilterValue.ofJson? value
    filters? rest (done.insert key value)

namespace Criteria

def toJson (c : Criteria) : Json :=
  .object <|
    [("filters", .object (c.filters.entries.map fun e => (e.1, e.2.toJson))),
      ("sort", .array (c.sort.map SortTerm.toJson))] ++
    member? "take" c.take ++ member? "skip" c.skip ++ member? "page" c.page ++
    member? "rows" c.rows ++ [("noPagination", .bool c.noPagination)]

def names : List String :=
  ["filters", "sort", "take", "skip", "page", "rows", "noPagination"]

/-- Every field may be left out; the four numbers may also be null. -/
def ofJson? (value : Json) : Option Criteria := do
  let [filters, sort, take, skip, page, rows, noPagination] ← fields? names value | none
  pure
    { filters := ← optional .empty (fun j => j.object?.bind (filters? · .empty)) filters
      sort := ← optional [] (fun j => j.array?.bind (·.mapM SortTerm.ofJson?)) sort
      take := ← optional none (nullable Json.int64?) take
      skip := ← optional none (nullable Json.int64?) skip
      page := ← optional none (nullable Json.int64?) page
      rows := ← optional none (nullable Json.int64?) rows
      noPagination := ← optional false Json.bool? noPagination }

end Criteria
end NamedQuery
