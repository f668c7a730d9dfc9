import NamedQuery.Criteria
import NamedQuery.Error
import NamedQuery.Sql.Draft
import NamedQuery.Sql.Write

namespace NamedQuery.Sql

/-- A finished statement: its text, and the values of its placeholders in order. -/
structure Statement where
  sql : String
  params : Array Param

namespace Statement

def describe (s : Statement) : String :=
  s!"CompiledQuery \x7b sql: {Text.quoted s.sql}, params: {describeParams s.params} \x7d"

end Statement

/-- The order terms that criteria ask for. They name one column each, so the wildcard is refused. -/
def sortTerms : List SortTerm → Except CompileFault (List OrderTerm)
  | [] => .ok []
  | term :: rest =>
    let column := ColumnRef.parse term.field
    if column.isWildcard then .error (.wildcardSort term.field)
    else (sortTerms rest).map (⟨.column column, term.direction⟩ :: ·)

/-- Criteria add to the order and replace the window. -/
def Select.arrange (s : Select) (c : Criteria) : Except CompileFault Select :=
  (sortTerms c.sort).map fun terms =>
    { s with
      order := s.order ++ terms
      limit := c.take <|> s.limit
      offset := c.skip <|> s.offset }

def Select.compile (s : Select) (c : Criteria) : Except Error Statement :=
  ((s.arrange c).bind (·.write .empty)).map (fun w => ⟨w.text, w.params⟩) |>.mapError .compile

/-- Compiles without criteria. -/
def Select.build (s : Select) : Except Error Statement :=
  s.compile .default

end NamedQuery.Sql
