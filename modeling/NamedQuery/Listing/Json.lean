import NamedQuery.Listing

namespace NamedQuery

open Json (fields? required nullable only?)

namespace Page

def toJson (p : Page) : Json :=
  .object [("current", .int p.current.toInt), ("rows", .int p.rows.toInt),
    ("hasNext", .bool p.hasNext)]

def ofJson? (value : Json) : Option Page := do
  let [current, rows, hasNext] ← fields? ["current", "rows", "hasNext"] value | none
  pure
    { current := ← required Json.int64? current
      rows := ← required Json.int64? rows
      hasNext := ← required Json.bool? hasNext }

end Page

namespace Listing

variable {α : Type}

/-- The rows, the page where there is one, and the added values beside them, even those whose names
are taken. -/
def toJson (write : α → Json) (l : Listing α) : Json :=
  .object <|
    [("items", .array (l.items.map write))] ++
    (l.page.elim [] fun p => [("pagination", p.toJson)]) ++ l.extras.entries

/-- The members with names of their own, as added values. -/
def extras? (members : List (String × Json)) (done : Dict Json) : Option (Dict Json) :=
  match members with
  | [] => some done
  | (name, value) :: rest =>
    if name = "items" ∨ name = "pagination" then extras? rest done
    else do
      let value ← Json.free? value
      extras? rest (done.insert name value)

def ofJson? (read : Json → Option α) (value : Json) : Option (Listing α) := do
  let members ← value.object?
  let items ← required (fun j => j.array?.bind (·.mapM read)) (← only? members "items")
  let page ← Json.optional none (nullable Page.ofJson?) (← only? members "pagination")
  let extras ← extras? members .empty
  pure ⟨items, page, extras⟩

end Listing
end NamedQuery
