import NamedQuery.Sql.Select

namespace NamedQuery.Sql

/-- Adds an operand to a condition; a group of the same connective is extended, not nested. -/
def Cond.joinWith (k : Connective) (cond other : Cond) : Cond :=
  match cond with
  | .group k' conds => if k' = k then .group k (conds ++ [other]) else .group k [cond, other]
  | _ => .group k [cond, other]

def Cond.andWith : Cond → Cond → Cond := Cond.joinWith .and

def Cond.orWith : Cond → Cond → Cond := Cond.joinWith .or

/-- Compares a column with a bound value. -/
def Cond.test (column : ColumnRef) (comparison : Comparison) (param : Param) : Cond :=
  .compare (.column column) comparison (.bound param)

namespace Select

def empty : Select := ⟨[], [], false, [], [], [], none, none⟩

instance : Inhabited Select := ⟨empty⟩

/-- An empty alias is none. -/
def label? (label : String) : Option String :=
  if label.isEmpty then none else some label

def addSource (s : Select) (source : Source) : Select :=
  { s with sources := s.sources ++ [source] }

def addTable (s : Select) (name : String) (label : String) : Select :=
  s.addSource (.table name (label? label))

def addJoin (s : Select) (join : Join) (name label : String) (on : Cond) : Select :=
  s.addSource (.joined join name (label? label) on)

def addColumn (s : Select) (expr : Expr) : Select :=
  { s with columns := s.columns ++ [⟨expr, none⟩] }

def addColumnAs (s : Select) (expr : Expr) (label : String) : Select :=
  { s with columns := s.columns ++ [⟨expr, some label⟩] }

def unique (s : Select) : Select :=
  { s with distinct := true }

/-- Demands one more condition of the rows. -/
def restrict (s : Select) (cond : Cond) : Select :=
  { s with conds := s.conds ++ [cond] }

def addGroup (s : Select) (expr : Expr) : Select :=
  { s with groupBy := s.groupBy ++ [expr] }

def addOrder (s : Select) (expr : Expr) (direction : Direction) : Select :=
  { s with order := s.order ++ [⟨expr, direction⟩] }

def withLimit (s : Select) (count : Int64) : Select :=
  { s with limit := some count }

def withOffset (s : Select) (count : Int64) : Select :=
  { s with offset := some count }

/-- Whether a table is read that is not joined. -/
def hasTable (s : Select) : Bool :=
  s.sources.any fun
    | .table .. => true
    | .joined .. => false

def condCount (s : Select) : Nat :=
  s.conds.length

end Select
end NamedQuery.Sql
