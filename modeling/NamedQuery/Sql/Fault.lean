import NamedQuery.Sql.ColumnRef
import NamedQuery.Sql.Ident

namespace NamedQuery.Sql

/-- What joins the operands of a group. -/
inductive Connective where
  | and
  | or
  deriving DecidableEq, Repr

def Connective.word : Connective → String
  | and => "AND"
  | or => "OR"

/-- Why a statement cannot be written. -/
inductive CompileFault where
  | noSource
  | joinFirst (table : String)
  | wildcardSort (field : String)
  | negativeLimit (count : Int64)
  | negativeOffset (count : Int64)
  | emptyGroup (connective : Connective)
  | emptyCoalesce
  | emptyCase
  | ident (fault : IdentFault)
  | column (column : ColumnRef) (fault : IdentFault)
  /-- A reason of a rule's own. -/
  | custom (reason : String)
  deriving DecidableEq, Repr

def CompileFault.message : CompileFault → String
  | noSource => "query has no FROM source"
  | joinFirst table => s!"join on '{table}' appears before any FROM source"
  | wildcardSort field => s!"cannot sort by wildcard '{field}'"
  | negativeLimit count => s!"LIMIT must be >= 0, got {count.toInt}"
  | negativeOffset count => s!"OFFSET must be >= 0, got {count.toInt}"
  | emptyGroup connective => s!"empty {connective.word} group"
  | emptyCoalesce => "COALESCE requires at least one argument"
  | emptyCase => "CASE requires at least one WHEN branch"
  | ident fault => fault.message
  | column c fault => s!"field '{c.display}': {fault.message}"
  | custom reason => reason

end NamedQuery.Sql
