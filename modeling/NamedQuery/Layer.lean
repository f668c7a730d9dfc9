import NamedQuery.Criteria
import NamedQuery.Edited
import NamedQuery.Listing

namespace NamedQuery

/-- A pair of hooks around a query: one on the criteria before it, one on the rows after it, which
sees the criteria as well. -/
structure Layer (α : Type) where
  name : String
  before : Criteria → Edited Criteria
  after : Criteria → Listing α → Edited (Listing α)

namespace Layer

variable {α : Type}

/-- Hooks that change nothing. -/
def idle (name : String) : Layer α :=
  ⟨name, .done, fun _ l => .done l⟩

/-- A hook before the query alone. -/
def onCriteria (before : Criteria → Edited Criteria) : Layer α :=
  ⟨"preprocess_fn", before, fun _ l => .done l⟩

/-- A hook after the query alone. -/
def onRows (after : Criteria → Listing α → Edited (Listing α)) : Layer α :=
  ⟨"postprocess_fn", .done, after⟩

end Layer
end NamedQuery
