import NamedQuery.Sql.Select
import NamedQuery.Sql.Writer

namespace NamedQuery.Sql

def Cond.rawText? : Cond → Option String
  | .raw text => some text
  | _ => none

def Connective.separator (k : Connective) : String :=
  s!" {k.word} "

/-- `NOT` in front of a word, when negated. -/
def negatable (negated : Bool) (word : String) : String :=
  if negated then s!" NOT {word} " else s!" {word} "

/-- Segments of a table's name, the dots between them, and nothing else. -/
def Writer.segments : List String → String → Writer → Except CompileFault Writer
  | [], _, w => .ok w
  | segment :: rest, lead, w => do
    let w ← ((w.push lead).ident segment).mapError .ident
    Writer.segments rest "." w

/-- A table with its alias. -/
def Writer.table (w : Writer) (name : String) (label : Option String) :
    Except CompileFault Writer := do
  let w ← Writer.segments (Sql.segments name) "" w
  match label with
  | none => .ok w
  | some label => ((w.push " ").ident label).mapError .ident

def Writer.label (w : Writer) : Option String → Except CompileFault Writer
  | none => .ok w
  | some label => ((w.push " AS ").ident label).mapError .ident

def Writer.limit (w : Writer) : Option Int64 → Except CompileFault Writer
  | none => .ok w
  | some n => if n < 0 then .error (.negativeLimit n) else .ok ((w.push " LIMIT ").int n)

def Writer.offset (w : Writer) : Option Int64 → Except CompileFault Writer
  | none => .ok w
  | some n => if n < 0 then .error (.negativeOffset n) else .ok ((w.push " OFFSET ").int n)

/-- A statement reads from a table first and joins to it later. -/
def checkSources : List Source → Except CompileFault Unit
  | [] => .error .noSource
  | .table .. :: _ => .ok ()
  | .joined _ name _ _ :: _ => .error (.joinFirst name)

mutual
/-- Writes an expression. The values that it binds are numbered from left to right. -/
def Expr.write : Expr → Writer → Except CompileFault Writer
  | .column c, w => w.column c
  | .bound param, w => .ok (w.bind param)
  | .raw text, w => .ok (w.push text)
  | .coalesce args, w =>
    if args.isEmpty then .error .emptyCoalesce
    else do
      let w ← Expr.writeAll args "" (w.push "COALESCE(")
      .ok (w.push ")")
  | .case branches otherwise, w =>
    if branches.isEmpty then .error .emptyCase
    else do
      let w ← Branch.writeAll branches (w.push "CASE")
      let w ← match otherwise with
        | none => .ok w
        | some result => result.write (w.push " ELSE ")
      .ok (w.push " END")
  | .call function args, w => do
    let w ← (w.ident function).mapError .ident
    let w ← Expr.writeAll args "" (w.push "(")
    .ok (w.push ")")
  | .scalar query, w => do
    let w ← query.write (w.push "(")
    .ok (w.push ")")

/-- Expressions with commas between them; `lead` stands before the first. -/
def Expr.writeAll : List Expr → String → Writer → Except CompileFault Writer
  | [], _, w => .ok w
  | e :: rest, lead, w => do
    let w ← e.write (w.push lead)
    Expr.writeAll rest ", " w

/-- The branches of a case, each a test and its result. -/
def Branch.writeAll : List Branch → Writer → Except CompileFault Writer
  | [], w => .ok w
  | ⟨test, result⟩ :: rest, w => do
    let w ← test.write (w.push " WHEN ")
    let w ← result.write (w.push " THEN ")
    Branch.writeAll rest w

/-- Writes a condition that stands by itself. Membership in no values is settled without its left
side, and a group of one is that one. -/
def Cond.write : Cond → Writer → Except CompileFault Writer
  | .compare left comparison right, w => do
    let w ← left.write w
    right.write (w.push s!" {comparison.symbol} ")
  | .inList expr values negated, w =>
    if values.isEmpty then .ok (w.push (if negated then "TRUE" else "FALSE"))
    else do
      let w ← expr.write w
      let w ← Expr.writeAll values "" (w.push (negatable negated "IN" ++ "("))
      .ok (w.push ")")
  | .inQuery expr query negated, w => do
    let w ← expr.write w
    let w ← query.write (w.push (negatable negated "IN" ++ "("))
    .ok (w.push ")")
  | .between expr low high negated, w => do
    let w ← expr.write w
    let w ← low.write (w.push (negatable negated "BETWEEN"))
    high.write (w.push " AND ")
  | .isNull expr negated, w => do
    let w ← expr.write w
    .ok (w.push (if negated then " IS NOT NULL" else " IS NULL"))
  | .group k conds, w =>
    match conds with
    | [] => .error (.emptyGroup k)
    | [cond] => cond.write w
    | first :: second :: rest => do
      let w ← Cond.writeOperands k (first :: second :: rest) "(" w
      .ok (w.push ")")
  | .not cond, w => do
    let w ← cond.write (w.push "NOT (")
    .ok (w.push ")")
  | .hasRow query negated, w => do
    let w ← query.write (w.push (if negated then "NOT EXISTS (" else "EXISTS ("))
    .ok (w.push ")")
  | .raw text, w => .ok (w.push text)

/-- Conditions as operands of a connective; `lead` stands before the first. Raw text is parenthesised,
so that what it says stays within it. -/
def Cond.writeOperands (k : Connective) : List Cond → String → Writer → Except CompileFault Writer
  | [], _, w => .ok w
  | cond :: rest, lead, w => do
    let w ← match cond.rawText? with
      | some text => .ok (((w.push lead).push "(").push text |>.push ")")
      | none => cond.write (w.push lead)
    Cond.writeOperands k rest k.separator w

/-- Tables and joins in their order; `lead` stands before a first table. -/
def Source.writeAll : List Source → String → Writer → Except CompileFault Writer
  | [], _, w => .ok w
  | .table name label :: rest, lead, w => do
    let w ← (w.push lead).table name label
    Source.writeAll rest ", " w
  | .joined join name label on :: rest, _, w => do
    let w ← (w.push s!" {join.words} ").table name label
    let w ← on.write (w.push " ON ")
    Source.writeAll rest ", " w

/-- The columns that a statement answers; `lead` stands before the first. -/
def Projection.writeAll : List Projection → String → Writer → Except CompileFault Writer
  | [], _, w => .ok w
  | ⟨expr, label⟩ :: rest, lead, w => do
    let w ← expr.write (w.push lead)
    let w ← w.label label
    Projection.writeAll rest ", " w

/-- Terms of an order, each with its direction; `lead` stands before the first. -/
def OrderTerm.writeAll : List OrderTerm → String → Writer → Except CompileFault Writer
  | [], _, w => .ok w
  | ⟨expr, direction⟩ :: rest, lead, w => do
    let w ← expr.write (w.push lead)
    OrderTerm.writeAll rest ", " (w.push s!" {direction.word}")

/-- Writes a statement clause by clause. A condition alone needs no parentheses; several are joined as
operands. -/
def Select.write : Select → Writer → Except CompileFault Writer
  | ⟨sources, columns, distinct, conds, groupBy, order, limit, offset⟩, w => do
    checkSources sources
    let w := w.push (if distinct then "SELECT DISTINCT " else "SELECT ")
    let w ← Projection.writeAll columns "" (if columns.isEmpty then w.push "*" else w)
    let w ← Source.writeAll sources "" (w.push " FROM ")
    let w ← match conds with
      | [] => .ok w
      | [cond] => cond.write (w.push " WHERE ")
      | first :: second :: rest => Cond.writeOperands .and (first :: second :: rest) " WHERE " w
    let w ← Expr.writeAll groupBy " GROUP BY " w
    let w ← OrderTerm.writeAll order " ORDER BY " w
    let w ← w.limit limit
    w.offset offset
end

end NamedQuery.Sql
