import NamedQuery.Sql.ColumnRef
import NamedQuery.Proofs.Sql.Dotted

namespace NamedQuery.Sql

@[simp] theorem ColumnRef.display_unqualified (name : String) :
    (ColumnRef.mk none name).display = name := rfl

@[simp] theorem ColumnRef.display_qualified (table name : String) :
    (ColumnRef.mk (some table) name).display = table ++ "." ++ name := rfl

/-- A column is shown as it was given. -/
theorem ColumnRef.display_parse (text : String) : (parse text).display = text := by
  unfold parse
  split
  next table first rest hsegments =>
    have htext := intercalate_segments text
    rw [hsegments, String.intercalate_cons_cons] at htext
    exact htext
  next => rfl

end NamedQuery.Sql
