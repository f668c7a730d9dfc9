import NamedQuery.Bounded
import NamedQuery.Layer
import NamedQuery.Settings

namespace NamedQuery

/-- Pages by looking ahead: one row more than a page holds is asked for, and tells whether another
page follows. -/
structure Pager where
  defaultRows : Int64
  deriving DecidableEq, Repr

namespace Pager

/-- A page has one row at least. -/
def ofRows (rows : Int64) : Pager := ⟨max rows 1⟩

def ofSettings (s : PageSettings) : Pager := ofRows s.defaultRows

def default : Pager := ofSettings .default

/-- Criteria that want no pages, or a single row. -/
def unpaged (c : Criteria) : Bool :=
  c.noPagination || c.take == some 1

/-- The number of rows to ask for, as far as a word can hold it. -/
def lookAhead (rows : Int64) : Int64 := clampInt64 (rows.toInt + 1)

/-- The number of rows on the pages before, as far as a word can hold it. -/
def rowsBefore (page rows : Int64) : Int64 := clampInt64 ((page.toInt - 1) * rows.toInt)

/-- Turns the page asked for into a window on the rows. -/
def resize (p : Pager) (c : Criteria) : Criteria :=
  if unpaged c then c
  else
    let page := max (c.page.getD 1) 1
    let rows := max (c.rows.getD p.defaultRows) 1
    { c with
      page := some page
      rows := some rows
      take := some (lookAhead rows)
      skip := some (rowsBefore page rows) }

/-- Drops the row beyond the page and says where the page stands. Criteria whose window is no page
leave the rows alone. -/
def trim {α : Type} (c : Criteria) (l : Listing α) : Listing α :=
  match c.page, c.rows, c.take with
  | some page, some rows, some take =>
    if unpaged c || rows < 1 || take != lookAhead rows then l
    else
      let wanted := take.toInt.toNat
      let hasNext := wanted ≤ l.items.length
      { l with
        items := if hasNext then l.items.take (wanted - 1) else l.items
        page := some ⟨page, rows, hasNext⟩ }
  | _, _, _ => l

def layer (p : Pager) (α : Type) : Layer α where
  name := "pagination"
  before c := .done (p.resize c)
  after c l := .done (trim c l)

end Pager
end NamedQuery
