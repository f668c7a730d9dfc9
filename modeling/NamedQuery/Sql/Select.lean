import NamedQuery.Param
import NamedQuery.Sql.Direction
import NamedQuery.Sql.Fault

namespace NamedQuery.Sql

inductive Comparison where
  | eq
  | ne
  | gt
  | ge
  | lt
  | le
  | like
  | ilike
  | notLike
  | notIlike
  deriving DecidableEq, Repr

def Comparison.symbol : Comparison → String
  | eq => "="
  | ne => "!="
  | gt => ">"
  | ge => ">="
  | lt => "<"
  | le => "<="
  | like => "LIKE"
  | ilike => "ILIKE"
  | notLike => "NOT LIKE"
  | notIlike => "NOT ILIKE"

inductive Join where
  | inner
  | left
  | right
  | full
  deriving DecidableEq, Repr

def Join.words : Join → String
  | inner => "INNER JOIN"
  | left => "LEFT JOIN"
  | right => "RIGHT JOIN"
  | full => "FULL OUTER JOIN"

mutual
/-- A value computed by the database. -/
inductive Expr where
  | column (column : ColumnRef)
  | bound (param : Param)
  /-- Text of the caller's own, written as it is. -/
  | raw (text : String)
  | coalesce (args : List Expr)
  | case (branches : List Branch) (otherwise : Option Expr)
  | call (function : String) (args : List Expr)
  /-- The one value that a query yields. -/
  | scalar (query : Select)

/-- A branch of a `CASE`. -/
structure Branch where
  test : Cond
  result : Expr

/-- A condition on rows. -/
inductive Cond where
  | compare (left : Expr) (comparison : Comparison) (right : Expr)
  | inList (expr : Expr) (values : List Expr) (negated : Bool)
  | inQuery (expr : Expr) (query : Select) (negated : Bool)
  | between (expr low high : Expr) (negated : Bool)
  | isNull (expr : Expr) (negated : Bool)
  | group (connective : Connective) (conds : List Cond)
  | not (cond : Cond)
  | hasRow (query : Select) (negated : Bool)
  /-- Text of the caller's own, written as it is. -/
  | raw (text : String)

/-- A table to read from, beside the tables before it or joined to them. -/
inductive Source where
  | table (name : String) (label : Option String)
  | joined (join : Join) (name : String) (label : Option String) (on : Cond)

structure Projection where
  expr : Expr
  label : Option String

structure OrderTerm where
  expr : Expr
  direction : Direction

/-- A statement that reads rows, as far as it is put together. -/
structure Select where
  sources : List Source
  columns : List Projection
  distinct : Bool
  conds : List Cond
  groupBy : List Expr
  order : List OrderTerm
  limit : Option Int64
  offset : Option Int64
end

end NamedQuery.Sql
