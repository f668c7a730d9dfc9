namespace NamedQuery.Sql

/-- Which way an order runs. -/
inductive Direction where
  | ascending
  | descending
  deriving DecidableEq, Repr, Inhabited

def Direction.word : Direction → String
  | ascending => "ASC"
  | descending => "DESC"

end NamedQuery.Sql
