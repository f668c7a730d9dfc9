import NamedQuery.Param
import NamedQuery.Sql.Fault

namespace NamedQuery.Sql

/-- A statement being written: its text so far and the values bound in it. -/
structure Writer where
  text : String
  params : Array Param
  deriving Inhabited

namespace Writer

def empty : Writer := ⟨"", #[]⟩

def push (w : Writer) (text : String) : Writer :=
  { w with text := w.text ++ text }

/-- Binds a value and writes its placeholder, numbered from one. -/
def bind (w : Writer) (param : Param) : Writer :=
  { text := w.text ++ "$" ++ toString (w.params.size + 1), params := w.params.push param }

def int (w : Writer) (n : Int64) : Writer :=
  w.push (toString n.toInt)

def ident (w : Writer) (text : String) : Except IdentFault Writer :=
  (Ident.parse text).map fun i => w.push i.render

/-- Writes the name of a column. The wildcard is written as it is. -/
def columnName (w : Writer) (c : ColumnRef) : Except CompileFault Writer :=
  if c.isWildcard then .ok (w.push "*") else (w.ident c.name).mapError (.column c)

/-- Writes the table that qualifies a column, and the dot after it. -/
def columnTable (w : Writer) (c : ColumnRef) : Except CompileFault Writer :=
  match c.table with
  | none => .ok w
  | some table => ((w.ident table).map (·.push ".")).mapError .ident

def column (w : Writer) (c : ColumnRef) : Except CompileFault Writer :=
  (w.columnTable c).bind (·.columnName c)

end Writer

/-- One thing to write. -/
inductive Step where
  | text (text : String)
  | bind (param : Param)
  | ident (text : String)
  | column (column : ColumnRef)
  | int (n : Int64)

/-- Writes one thing, and says what kept it from being written. A refused identifier leaves the writer
as it was; a column whose name is refused leaves the table that qualifies it written. -/
def Writer.step (w : Writer) : Step → Writer × Option CompileFault
  | .text text => (w.push text, none)
  | .bind param => (w.bind param, none)
  | .int n => (w.int n, none)
  | .ident text =>
    match w.ident text with
    | .ok w => (w, none)
    | .error fault => (w, some (.ident fault))
  | .column c =>
    match w.columnTable c with
    | .error fault => (w, some fault)
    | .ok w =>
      match w.columnName c with
      | .ok w => (w, none)
      | .error fault => (w, some fault)

end NamedQuery.Sql
