import NamedQuery.Sql.Statement
import Mathlib.Data.List.Basic

namespace NamedQuery.Sql

/-- A statement is written piece by piece, from left to right. -/
inductive Piece where
  | text (text : String)
  /-- Text of the caller's own. -/
  | raw (text : String)
  | value (param : Param)
  /-- One segment of a name, and the column it names, if it names one. -/
  | ident (segment : String) (column : Option ColumnRef)
  /-- A number that must not be negative. -/
  | count (n : Int64) (fault : CompileFault)
  | stop (fault : CompileFault)

namespace Piece

def write : Piece → Writer → Except CompileFault Writer
  | text t, w => .ok (w.push t)
  | raw t, w => .ok (w.push t)
  | value param, w => .ok (w.bind param)
  | ident segment none, w => (w.ident segment).mapError .ident
  | ident segment (some c), w => (w.ident segment).mapError (.column c)
  | count n fault, w => if n < 0 then .error fault else .ok (w.int n)
  | stop fault, _ => .error fault

def writeAll (ps : List Piece) (w : Writer) : Except CompileFault Writer :=
  ps.foldlM (fun w p => p.write w) w

/-- The pieces that follow, unless writing stops before them. -/
def stopIf (refused : Bool) (fault : CompileFault) (ps : List Piece) : List Piece :=
  if refused then stop fault :: ps else ps

def ofSegments : List String → String → List Piece
  | [], _ => []
  | segment :: rest, lead => text lead :: ident segment none :: ofSegments rest "."

def ofTable (name : String) (label : Option String) : List Piece :=
  ofSegments (segments name) "" ++
    match label with
    | none => []
    | some label => [text " ", ident label none]

def ofLabel : Option String → List Piece
  | none => []
  | some label => [text " AS ", ident label none]

def ofColumn (c : ColumnRef) : List Piece :=
  (match c.table with
    | none => []
    | some table => [ident table none, text "."]) ++
  [if c.isWildcard then text "*" else ident c.name (some c)]

def ofLimit : Option Int64 → List Piece
  | none => []
  | some n => [text " LIMIT ", count n (.negativeLimit n)]

def ofOffset : Option Int64 → List Piece
  | none => []
  | some n => [text " OFFSET ", count n (.negativeOffset n)]

/-- The pieces that follow, unless the sources cannot start a statement. -/
def ofStart (sources : List Source) (ps : List Piece) : List Piece :=
  match sources with
  | [] => stop .noSource :: ps
  | .table .. :: _ => ps
  | .joined _ name _ _ :: _ => stop (.joinFirst name) :: ps

end Piece

open Piece

mutual
/-- The pieces of an expression, in the order of writing. -/
def Expr.pieces : Expr → List Piece
  | .column c => ofColumn c
  | .bound param => [value param]
  | .raw t => [raw t]
  | .coalesce args =>
    stopIf args.isEmpty .emptyCoalesce
      (text "COALESCE(" :: (Expr.piecesAll args "" ++ [text ")"]))
  | .case branches otherwise =>
    stopIf branches.isEmpty .emptyCase
      (text "CASE" :: (Branch.piecesAll branches ++
        ((match otherwise with
          | none => []
          | some result => text " ELSE " :: result.pieces) ++ [text " END"])))
  | .call function args =>
    ident function none :: text "(" :: (Expr.piecesAll args "" ++ [text ")"])
  | .scalar query => text "(" :: (query.pieces ++ [text ")"])

def Expr.piecesAll : List Expr → String → List Piece
  | [], _ => []
  | e :: rest, lead => text lead :: (e.pieces ++ Expr.piecesAll rest ", ")

def Branch.piecesAll : List Branch → List Piece
  | [] => []
  | ⟨test, result⟩ :: rest =>
    text " WHEN " :: (test.pieces ++ text " THEN " :: (result.pieces ++ Branch.piecesAll rest))

/-- The pieces of a condition that stands by itself. -/
def Cond.pieces : Cond → List Piece
  | .compare left comparison right =>
    left.pieces ++ text s!" {comparison.symbol} " :: right.pieces
  | .inList expr values negated =>
    if values.isEmpty then [text (if negated then "TRUE" else "FALSE")]
    else expr.pieces ++
      text (negatable negated "IN" ++ "(") :: (Expr.piecesAll values "" ++ [text ")"])
  | .inQuery expr query negated =>
    expr.pieces ++ text (negatable negated "IN" ++ "(") :: (query.pieces ++ [text ")"])
  | .between expr low high negated =>
    expr.pieces ++ text (negatable negated "BETWEEN") :: (low.pieces ++ text " AND " :: high.pieces)
  | .isNull expr negated => expr.pieces ++ [text (if negated then " IS NOT NULL" else " IS NULL")]
  | .group k conds =>
    match conds with
    | [] => [stop (.emptyGroup k)]
    | [cond] => cond.pieces
    | first :: second :: rest => Cond.operandPieces k (first :: second :: rest) "(" ++ [text ")"]
  | .not cond => text "NOT (" :: (cond.pieces ++ [text ")"])
  | .hasRow query negated =>
    text (if negated then "NOT EXISTS (" else "EXISTS (") :: (query.pieces ++ [text ")"])
  | .raw t => [raw t]

/-- The pieces of the operands of a connective. -/
def Cond.operandPieces (k : Connective) : List Cond → String → List Piece
  | [], _ => []
  | cond :: rest, lead =>
    text lead :: ((match cond.rawText? with
      | some t => [text "(", raw t, text ")"]
      | none => cond.pieces) ++ Cond.operandPieces k rest k.separator)

def Source.piecesAll : List Source → String → List Piece
  | [], _ => []
  | .table name label :: rest, lead =>
    text lead :: (ofTable name label ++ Source.piecesAll rest ", ")
  | .joined join name label on :: rest, _ =>
    text s!" {join.words} " :: (ofTable name label ++
      text " ON " :: (on.pieces ++ Source.piecesAll rest ", "))

def Projection.piecesAll : List Projection → String → List Piece
  | [], _ => []
  | ⟨expr, label⟩ :: rest, lead =>
    text lead :: (expr.pieces ++ (ofLabel label ++ Projection.piecesAll rest ", "))

def OrderTerm.piecesAll : List OrderTerm → String → List Piece
  | [], _ => []
  | ⟨expr, direction⟩ :: rest, lead =>
    text lead :: (expr.pieces ++ text s!" {direction.word}" :: OrderTerm.piecesAll rest ", ")

/-- The pieces of a statement, clause by clause. -/
def Select.pieces : Select → List Piece
  | ⟨sources, columns, distinct, conds, groupBy, order, limit, offset⟩ =>
    ofStart sources (text (if distinct then "SELECT DISTINCT " else "SELECT ") ::
      text (if columns.isEmpty then "*" else "") :: (Projection.piecesAll columns "" ++
      text " FROM " :: (Source.piecesAll sources "" ++
      ((match conds with
        | [] => []
        | [cond] => text " WHERE " :: cond.pieces
        | first :: second :: rest => Cond.operandPieces .and (first :: second :: rest) " WHERE ") ++
      (Expr.piecesAll groupBy " GROUP BY " ++ (OrderTerm.piecesAll order " ORDER BY " ++
      (ofLimit limit ++ ofOffset offset)))))))
end

/-- The pieces of the conditions of a statement. -/
def Cond.wherePieces : List Cond → List Piece
  | [] => []
  | [cond] => text " WHERE " :: cond.pieces
  | first :: second :: rest => Cond.operandPieces .and (first :: second :: rest) " WHERE "

theorem Select.pieces_eq (s : Select) : s.pieces =
    ofStart s.sources (text (if s.distinct then "SELECT DISTINCT " else "SELECT ") ::
      text (if s.columns.isEmpty then "*" else "") :: (Projection.piecesAll s.columns "" ++
      text " FROM " :: (Source.piecesAll s.sources "" ++ (Cond.wherePieces s.conds ++
      (Expr.piecesAll s.groupBy " GROUP BY " ++ (OrderTerm.piecesAll s.order " ORDER BY " ++
      (ofLimit s.limit ++ ofOffset s.offset))))))) := by
  obtain ⟨sources, columns, distinct, conds, groupBy, order, limit, offset⟩ := s
  match conds with
  | [] | [_] | _ :: _ :: _ => rfl

theorem Cond.eq_raw_of_rawText {cond : Cond} {t : String} (h : cond.rawText? = some t) :
    cond = .raw t := by
  cases cond <;> simp_all [Cond.rawText?]

/-- The pieces of a condition that is an operand. -/
def Cond.asOperand (cond : Cond) : List Piece :=
  match cond.rawText? with
  | some t => [.text "(", .raw t, .text ")"]
  | none => cond.pieces

theorem Cond.operandPieces_cons (k : Connective) (cond : Cond) (rest : List Cond) (lead : String) :
    Cond.operandPieces k (cond :: rest) lead =
      .text lead :: (cond.asOperand ++ Cond.operandPieces k rest k.separator) := by
  rw [Cond.operandPieces]
  rfl

theorem ok_bind (w : Writer) (next : Writer → Except CompileFault Writer) :
    (Except.ok w >>= next) = next w := rfl

theorem bind_ok (r : Except CompileFault Writer) : (r >>= fun w => Except.ok w) = r := by
  cases r <;> rfl

namespace Piece

theorem writeAll_nil (w : Writer) : writeAll [] w = .ok w := rfl

theorem writeAll_append (ps qs : List Piece) (w : Writer) :
    writeAll (ps ++ qs) w = writeAll ps w >>= fun w => writeAll qs w :=
  List.foldlM_append

theorem writeAll_cons (p : Piece) (ps : List Piece) (w : Writer) :
    writeAll (p :: ps) w = p.write w >>= fun w => writeAll ps w := rfl

theorem writeAll_text (t : String) (ps : List Piece) (w : Writer) :
    writeAll (text t :: ps) w = writeAll ps (w.push t) := rfl

theorem writeAll_ident (segment : String) (ps : List Piece) (w : Writer) :
    writeAll (ident segment none :: ps) w =
      (w.ident segment).mapError .ident >>= fun w => writeAll ps w := rfl

theorem writeAll_stopIf (refused : Bool) (fault : CompileFault) (ps : List Piece) (w : Writer) :
    writeAll (stopIf refused fault ps) w = if refused then .error fault else writeAll ps w := by
  cases refused <;> rfl

theorem writeAll_ofStart (sources : List Source) (ps : List Piece) (w : Writer) :
    writeAll (ofStart sources ps) w = checkSources sources >>= fun _ => writeAll ps w := by
  match sources with
  | [] | .table .. :: _ | .joined .. :: _ => rfl

end Piece

theorem Writer.segments_eq : ∀ (names : List String) (lead : String) (w : Writer),
    Writer.segments names lead w = writeAll (ofSegments names lead) w
  | [], _, _ => rfl
  | segment :: rest, lead, w => by
    simp only [Writer.segments, ofSegments, writeAll_text, writeAll_ident, Writer.segments_eq rest]

theorem Writer.table_eq (w : Writer) (name : String) (label : Option String) :
    w.table name label = writeAll (ofTable name label) w := by
  cases label <;>
    simp only [Writer.table, ofTable, Writer.segments_eq, writeAll_append, writeAll_text,
      writeAll_ident, writeAll_nil, bind_ok]

theorem Writer.label_eq (w : Writer) (label : Option String) :
    w.label label = writeAll (ofLabel label) w := by
  cases label <;>
    simp only [Writer.label, ofLabel, writeAll_text, writeAll_ident, writeAll_nil, bind_ok]

theorem Writer.columnName_eq (w : Writer) (c : ColumnRef) : w.columnName c =
    writeAll [if c.isWildcard then .text "*" else .ident c.name (some c)] w := by
  unfold Writer.columnName
  split
  · rfl
  · exact (bind_ok _).symm

theorem Writer.column_eq (w : Writer) (c : ColumnRef) : w.column c = writeAll (ofColumn c) w := by
  obtain ⟨table, name⟩ := c
  cases table with
  | none => exact w.columnName_eq _
  | some table =>
    simp only [Writer.column, Writer.columnTable, Writer.columnName_eq, ofColumn, List.cons_append,
      List.nil_append, writeAll_ident, writeAll_text]
    cases w.ident table <;> rfl

theorem Writer.limit_eq (w : Writer) (limit : Option Int64) :
    w.limit limit = writeAll (ofLimit limit) w := by
  cases limit with
  | none => rfl
  | some n =>
    rw [Writer.limit, ofLimit, writeAll_text, writeAll_cons, Piece.write]
    split <;> rfl

theorem Writer.offset_eq (w : Writer) (offset : Option Int64) :
    w.offset offset = writeAll (ofOffset offset) w := by
  cases offset with
  | none => rfl
  | some n =>
    rw [Writer.offset, ofOffset, writeAll_text, writeAll_cons, Piece.write]
    split <;> rfl

mutual
/-- Writing an expression is writing its pieces. -/
theorem Expr.write_eq : ∀ (e : Expr) (w : Writer), e.write w = writeAll e.pieces w
  | .column c, w => by simp only [Expr.write, Expr.pieces, Writer.column_eq]
  | .bound _, _ => rfl
  | .raw _, _ => rfl
  | .coalesce args, w => by
    simp only [Expr.write, Expr.pieces, writeAll_stopIf, writeAll_text, writeAll_append,
      writeAll_nil, Expr.writeAll_eq args]
  | .case branches none, w => by
    simp only [Expr.write, Expr.pieces, writeAll_stopIf, writeAll_text, writeAll_append,
      writeAll_nil, ok_bind, Branch.writeAll_eq branches, List.nil_append]
  | .case branches (some result), w => by
    simp only [Expr.write, Expr.pieces, writeAll_stopIf, writeAll_text, writeAll_append,
      writeAll_nil, Branch.writeAll_eq branches, Expr.write_eq result, List.cons_append]
  | .call function args, w => by
    simp only [Expr.write, Expr.pieces, writeAll_ident, writeAll_text, writeAll_append,
      writeAll_nil, Expr.writeAll_eq args]
  | .scalar query, w => by
    simp only [Expr.write, Expr.pieces, writeAll_text, writeAll_append, writeAll_nil,
      Select.write_eq query]

theorem Expr.writeAll_eq : ∀ (es : List Expr) (lead : String) (w : Writer),
    Expr.writeAll es lead w = writeAll (Expr.piecesAll es lead) w
  | [], _, _ => rfl
  | e :: rest, lead, w => by
    simp only [Expr.writeAll, Expr.piecesAll, writeAll_text, writeAll_append, Expr.write_eq e,
      Expr.writeAll_eq rest]

theorem Branch.writeAll_eq : ∀ (branches : List Branch) (w : Writer),
    Branch.writeAll branches w = writeAll (Branch.piecesAll branches) w
  | [], _ => rfl
  | ⟨test, result⟩ :: rest, w => by
    simp only [Branch.writeAll, Branch.piecesAll, writeAll_text, writeAll_append,
      Cond.write_eq test, Expr.write_eq result, Branch.writeAll_eq rest]

/-- Writing a condition is writing its pieces. -/
theorem Cond.write_eq : ∀ (c : Cond) (w : Writer), c.write w = writeAll c.pieces w
  | .compare left comparison right, w => by
    simp only [Cond.write, Cond.pieces, writeAll_append, writeAll_text, Expr.write_eq left,
      Expr.write_eq right]
  | .inList expr values negated, w => by
    simp only [Cond.write, Cond.pieces]
    split
    · rfl
    · simp only [writeAll_append, writeAll_text, writeAll_nil, Expr.write_eq expr,
        Expr.writeAll_eq values]
  | .inQuery expr query negated, w => by
    simp only [Cond.write, Cond.pieces, writeAll_append, writeAll_text, writeAll_nil,
      Expr.write_eq expr, Select.write_eq query]
  | .between expr low high negated, w => by
    simp only [Cond.write, Cond.pieces, writeAll_append, writeAll_text, Expr.write_eq expr,
      Expr.write_eq low, Expr.write_eq high]
  | .isNull expr negated, w => by
    simp only [Cond.write, Cond.pieces, writeAll_append, writeAll_text, writeAll_nil,
      Expr.write_eq expr]
  | .group _ [], _ => rfl
  | .group k [cond], w => by simp only [Cond.write, Cond.pieces, Cond.write_eq cond]
  | .group k (first :: second :: rest), w => by
    simp only [Cond.write, Cond.pieces, writeAll_append, writeAll_text, writeAll_nil,
      Cond.writeOperands_eq k (first :: second :: rest)]
  | .not cond, w => by
    simp only [Cond.write, Cond.pieces, writeAll_text, writeAll_append, writeAll_nil,
      Cond.write_eq cond]
  | .hasRow query negated, w => by
    simp only [Cond.write, Cond.pieces, writeAll_text, writeAll_append, writeAll_nil,
      Select.write_eq query]
  | .raw _, _ => rfl

theorem Cond.writeOperands_eq (k : Connective) : ∀ (conds : List Cond) (lead : String) (w : Writer),
    Cond.writeOperands k conds lead w = writeAll (Cond.operandPieces k conds lead) w
  | [], _, _ => rfl
  | cond :: rest, lead, w => by
    simp only [Cond.writeOperands, Cond.operandPieces, writeAll_text, writeAll_append,
      Cond.writeOperands_eq k rest]
    cases cond.rawText? with
    | none => simp only [Cond.write_eq cond]
    | some t => rfl

theorem Source.writeAll_eq : ∀ (sources : List Source) (lead : String) (w : Writer),
    Source.writeAll sources lead w = writeAll (Source.piecesAll sources lead) w
  | [], _, _ => rfl
  | .table name label :: rest, lead, w => by
    simp only [Source.writeAll, Source.piecesAll, writeAll_text, writeAll_append, Writer.table_eq,
      Source.writeAll_eq rest]
  | .joined join name label on :: rest, _, w => by
    simp only [Source.writeAll, Source.piecesAll, writeAll_text, writeAll_append, Writer.table_eq,
      Cond.write_eq on, Source.writeAll_eq rest]

theorem Projection.writeAll_eq : ∀ (columns : List Projection) (lead : String) (w : Writer),
    Projection.writeAll columns lead w = writeAll (Projection.piecesAll columns lead) w
  | [], _, _ => rfl
  | ⟨expr, label⟩ :: rest, lead, w => by
    simp only [Projection.writeAll, Projection.piecesAll, writeAll_text, writeAll_append,
      Writer.label_eq, Expr.write_eq expr, Projection.writeAll_eq rest]

theorem OrderTerm.writeAll_eq : ∀ (terms : List OrderTerm) (lead : String) (w : Writer),
    OrderTerm.writeAll terms lead w = writeAll (OrderTerm.piecesAll terms lead) w
  | [], _, _ => rfl
  | ⟨expr, direction⟩ :: rest, lead, w => by
    simp only [OrderTerm.writeAll, OrderTerm.piecesAll, writeAll_text, writeAll_append,
      Expr.write_eq expr, OrderTerm.writeAll_eq rest]

/-- Writing a statement is writing its pieces. -/
theorem Select.write_eq : ∀ (s : Select) (w : Writer), s.write w = writeAll s.pieces w
  | ⟨sources, columns, distinct, conds, groupBy, order, limit, offset⟩, w => by
    have star (w : Writer) : (if columns.isEmpty then w.push "*" else w) =
        w.push (if columns.isEmpty then "*" else "") := by
      split
      · rfl
      · simp [Writer.push]
    rw [Select.write, Select.pieces_eq, writeAll_ofStart]
    simp only [writeAll_text, writeAll_append, star, Projection.writeAll_eq columns,
      Source.writeAll_eq sources, Expr.writeAll_eq groupBy, OrderTerm.writeAll_eq order,
      Writer.limit_eq, Writer.offset_eq]
    -- only the conditions are written by two rules, for one and for several
    match conds with
    | [] => rfl
    | [cond] => simp only [Cond.wherePieces, writeAll_text, Cond.write_eq cond]
    | first :: second :: rest =>
      simp only [Cond.wherePieces, Cond.writeOperands_eq .and (first :: second :: rest)]
end

end NamedQuery.Sql
