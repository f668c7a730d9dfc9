import NamedQuery.Sql.Dotted

namespace NamedQuery.Sql

/-- A column, with the table it is taken from where that is given. The name `*` stands for all
columns. -/
structure ColumnRef where
  table : Option String
  name : String
  deriving DecidableEq, Repr

namespace ColumnRef

def unqualified (name : String) : ColumnRef := ⟨none, name⟩

def qualified (table name : String) : ColumnRef := ⟨some table, name⟩

/-- Splits at the first dot outside quotes. -/
def parse (text : String) : ColumnRef :=
  match segments text with
  | table :: first :: rest => qualified table (".".intercalate (first :: rest))
  | _ => unqualified text

def display (c : ColumnRef) : String :=
  match c.table with
  | some table => s!"{table}.{c.name}"
  | none => c.name

def isWildcard (c : ColumnRef) : Bool :=
  c.name == "*"

end ColumnRef
end NamedQuery.Sql
