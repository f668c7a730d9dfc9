import NamedQuery.Proofs.Sql.Rendering

namespace NamedQuery.Sql
open Piece

section
variable (f : Param → Param) (g : String → String)

mutual
/-- The expression with its values and the texts of the caller's own replaced. -/
def Expr.replace : Expr → Expr
  | .column c => .column c
  | .bound param => .bound (f param)
  | .raw t => .raw (g t)
  | .coalesce args => .coalesce (Expr.replaceAll args)
  | .case branches otherwise =>
    .case (Branch.replaceAll branches)
      (match otherwise with
        | none => none
        | some result => some result.replace)
  | .call function args => .call function (Expr.replaceAll args)
  | .scalar query => .scalar query.replace

def Expr.replaceAll : List Expr → List Expr
  | [] => []
  | e :: rest => e.replace :: Expr.replaceAll rest

def Branch.replaceAll : List Branch → List Branch
  | [] => []
  | ⟨test, result⟩ :: rest => ⟨test.replace, result.replace⟩ :: Branch.replaceAll rest

/-- The condition with its values and the texts of the caller's own replaced, those that are never
written included. -/
def Cond.replace : Cond → Cond
  | .compare left comparison right => .compare left.replace comparison right.replace
  | .inList expr values negated => .inList expr.replace (Expr.replaceAll values) negated
  | .inQuery expr query negated => .inQuery expr.replace query.replace negated
  | .between expr low high negated => .between expr.replace low.replace high.replace negated
  | .isNull expr negated => .isNull expr.replace negated
  | .group k conds => .group k (Cond.replaceAll conds)
  | .not cond => .not cond.replace
  | .hasRow query negated => .hasRow query.replace negated
  | .raw t => .raw (g t)

def Cond.replaceAll : List Cond → List Cond
  | [] => []
  | cond :: rest => cond.replace :: Cond.replaceAll rest

def Source.replaceAll : List Source → List Source
  | [] => []
  | .table name label :: rest => .table name label :: Source.replaceAll rest
  | .joined join name label on :: rest =>
    .joined join name label on.replace :: Source.replaceAll rest

def Projection.replaceAll : List Projection → List Projection
  | [] => []
  | ⟨expr, label⟩ :: rest => ⟨expr.replace, label⟩ :: Projection.replaceAll rest

def OrderTerm.replaceAll : List OrderTerm → List OrderTerm
  | [] => []
  | ⟨expr, direction⟩ :: rest => ⟨expr.replace, direction⟩ :: OrderTerm.replaceAll rest

/-- The statement with its values and the texts of the caller's own replaced, in every clause and
subquery. -/
def Select.replace : Select → Select
  | ⟨sources, columns, distinct, conds, groupBy, order, limit, offset⟩ =>
    ⟨Source.replaceAll sources, Projection.replaceAll columns, distinct, Cond.replaceAll conds,
      Expr.replaceAll groupBy, OrderTerm.replaceAll order, limit, offset⟩
end

namespace Piece

def replace : Piece → Piece
  | value param => value (f param)
  | raw t => raw (g t)
  | p => p

@[simp] theorem replace_text (t : String) : replace f g (text t) = text t := rfl

@[simp] theorem replace_ident (segment : String) (column : Option ColumnRef) :
    replace f g (ident segment column) = ident segment column := rfl

@[simp] theorem replace_stopIf (refused : Bool) (fault : CompileFault) (ps : List Piece) :
    (stopIf refused fault ps).map (replace f g) = stopIf refused fault (ps.map (replace f g)) := by
  cases refused <;> rfl

@[simp] theorem replace_ofStart (sources : List Source) (ps : List Piece) :
    (ofStart sources ps).map (replace f g) =
      ofStart (Source.replaceAll f g sources) (ps.map (replace f g)) := by
  match sources with
  | [] | .table .. :: _ | .joined .. :: _ => rfl

theorem replace_ofSegments (names : List String) (lead : String) :
    (ofSegments names lead).map (replace f g) = ofSegments names lead := by
  induction names generalizing lead with
  | nil => rfl
  | cons name rest ih => simp [ofSegments, ih]

@[simp] theorem replace_ofTable (name : String) (label : Option String) :
    (ofTable name label).map (replace f g) = ofTable name label := by
  cases label <;> simp [ofTable, replace_ofSegments]

@[simp] theorem replace_ofLabel (label : Option String) :
    (ofLabel label).map (replace f g) = ofLabel label := by
  cases label <;> rfl

@[simp] theorem replace_ofColumn (c : ColumnRef) : (ofColumn c).map (replace f g) = ofColumn c := by
  obtain ⟨table, name⟩ := c
  cases table <;> simp only [ofColumn, List.map_append] <;> split <;> rfl

@[simp] theorem replace_ofLimit (limit : Option Int64) :
    (ofLimit limit).map (replace f g) = ofLimit limit := by
  cases limit <;> rfl

@[simp] theorem replace_ofOffset (offset : Option Int64) :
    (ofOffset offset).map (replace f g) = ofOffset offset := by
  cases offset <;> rfl

theorem fault_replace (p : Piece) : (p.replace f g).fault? = p.fault? := by
  cases p <;> rfl

theorem findSome_fault_replace (ps : List Piece) :
    (ps.map (replace f g)).findSome? fault? = ps.findSome? fault? := by
  rw [List.findSome?_map]
  congr 1
  funext p
  exact fault_replace f g p

theorem values_replace (ps : List Piece) :
    values (ps.map (replace f g)) = (values ps).map f := by
  rw [values, values, List.filterMap_map, List.map_filterMap]
  congr 1
  funext p
  cases p <;> rfl

end Piece

@[simp] theorem Expr.isEmpty_replaceAll (es : List Expr) :
    (Expr.replaceAll f g es).isEmpty = es.isEmpty := by
  cases es <;> rfl

@[simp] theorem Branch.isEmpty_replaceAll (branches : List Branch) :
    (Branch.replaceAll f g branches).isEmpty = branches.isEmpty := by
  cases branches with
  | nil => rfl
  | cons branch rest => cases branch; rfl

@[simp] theorem Projection.isEmpty_replaceAll (columns : List Projection) :
    (Projection.replaceAll f g columns).isEmpty = columns.isEmpty := by
  cases columns with
  | nil => rfl
  | cons column rest => cases column; rfl

theorem Cond.rawText_replace (cond : Cond) :
    (cond.replace f g).rawText? = cond.rawText?.map g := by
  cases cond <;> rfl

mutual
/-- Replacing in an expression is replacing in its pieces. -/
theorem Expr.pieces_replace : ∀ e : Expr, (e.replace f g).pieces = e.pieces.map (Piece.replace f g)
  | .column c => by simp [Expr.replace, Expr.pieces]
  | .bound _ => rfl
  | .raw _ => rfl
  | .coalesce args => by simp [Expr.replace, Expr.pieces, Expr.piecesAll_replace args]
  | .case branches none => by simp [Expr.replace, Expr.pieces, Branch.piecesAll_replace branches]
  | .case branches (some result) => by
    simp [Expr.replace, Expr.pieces, Branch.piecesAll_replace branches, Expr.pieces_replace result]
  | .call function args => by simp [Expr.replace, Expr.pieces, Expr.piecesAll_replace args]
  | .scalar query => by simp [Expr.replace, Expr.pieces, Select.pieces_replace query]

theorem Expr.piecesAll_replace : ∀ (es : List Expr) (lead : String),
    Expr.piecesAll (Expr.replaceAll f g es) lead =
      (Expr.piecesAll es lead).map (Piece.replace f g)
  | [], _ => rfl
  | e :: rest, lead => by
    simp [Expr.replaceAll, Expr.piecesAll, Expr.pieces_replace e, Expr.piecesAll_replace rest]

theorem Branch.piecesAll_replace : ∀ branches : List Branch,
    Branch.piecesAll (Branch.replaceAll f g branches) =
      (Branch.piecesAll branches).map (Piece.replace f g)
  | [] => rfl
  | ⟨test, result⟩ :: rest => by
    simp [Branch.replaceAll, Branch.piecesAll, Cond.pieces_replace test,
      Expr.pieces_replace result, Branch.piecesAll_replace rest]

/-- Replacing in a condition is replacing in its pieces. -/
theorem Cond.pieces_replace : ∀ c : Cond, (c.replace f g).pieces = c.pieces.map (Piece.replace f g)
  | .compare left comparison right => by
    simp [Cond.replace, Cond.pieces, Expr.pieces_replace left, Expr.pieces_replace right]
  | .inList expr values negated => by
    simp only [Cond.replace, Cond.pieces, Expr.isEmpty_replaceAll]
    split
    · rfl
    · simp [Expr.pieces_replace expr, Expr.piecesAll_replace values]
  | .inQuery expr query negated => by
    simp [Cond.replace, Cond.pieces, Expr.pieces_replace expr, Select.pieces_replace query]
  | .between expr low high negated => by
    simp [Cond.replace, Cond.pieces, Expr.pieces_replace expr, Expr.pieces_replace low,
      Expr.pieces_replace high]
  | .isNull expr negated => by simp [Cond.replace, Cond.pieces, Expr.pieces_replace expr]
  | .group _ [] => rfl
  | .group k [cond] => by
    simp [Cond.replace, Cond.replaceAll, Cond.pieces, Cond.pieces_replace cond]
  | .group k (first :: second :: rest) => by
    have hall := Cond.operandPieces_replace k (first :: second :: rest) "("
    simp only [Cond.replace, Cond.replaceAll, Cond.pieces] at hall ⊢
    simp [hall]
  | .not cond => by simp [Cond.replace, Cond.pieces, Cond.pieces_replace cond]
  | .hasRow query negated => by simp [Cond.replace, Cond.pieces, Select.pieces_replace query]
  | .raw _ => rfl

theorem Cond.operandPieces_replace (k : Connective) : ∀ (conds : List Cond) (lead : String),
    Cond.operandPieces k (Cond.replaceAll f g conds) lead =
      (Cond.operandPieces k conds lead).map (Piece.replace f g)
  | [], _ => rfl
  | cond :: rest, lead => by
    simp only [Cond.replaceAll, Cond.operandPieces, Cond.rawText_replace,
      Cond.operandPieces_replace k rest, List.map_cons, List.map_append, replace_text]
    -- raw text stays raw text, so it has its parentheses before and after
    cases cond.rawText? with
    | none => simp only [Option.map_none, Cond.pieces_replace cond]
    | some t => rfl

theorem Source.piecesAll_replace : ∀ (sources : List Source) (lead : String),
    Source.piecesAll (Source.replaceAll f g sources) lead =
      (Source.piecesAll sources lead).map (Piece.replace f g)
  | [], _ => rfl
  | .table name label :: rest, lead => by
    simp [Source.replaceAll, Source.piecesAll, Source.piecesAll_replace rest]
  | .joined join name label on :: rest, _ => by
    simp [Source.replaceAll, Source.piecesAll, Cond.pieces_replace on,
      Source.piecesAll_replace rest]

theorem Projection.piecesAll_replace : ∀ (columns : List Projection) (lead : String),
    Projection.piecesAll (Projection.replaceAll f g columns) lead =
      (Projection.piecesAll columns lead).map (Piece.replace f g)
  | [], _ => rfl
  | ⟨expr, label⟩ :: rest, lead => by
    simp [Projection.replaceAll, Projection.piecesAll, Expr.pieces_replace expr,
      Projection.piecesAll_replace rest]

theorem OrderTerm.piecesAll_replace : ∀ (terms : List OrderTerm) (lead : String),
    OrderTerm.piecesAll (OrderTerm.replaceAll f g terms) lead =
      (OrderTerm.piecesAll terms lead).map (Piece.replace f g)
  | [], _ => rfl
  | ⟨expr, direction⟩ :: rest, lead => by
    simp [OrderTerm.replaceAll, OrderTerm.piecesAll, Expr.pieces_replace expr,
      OrderTerm.piecesAll_replace rest]

/-- Replacing in a statement is replacing in its pieces. -/
theorem Select.pieces_replace : ∀ s : Select,
    (s.replace f g).pieces = s.pieces.map (Piece.replace f g)
  | ⟨sources, columns, distinct, conds, groupBy, order, limit, offset⟩ => by
    have hconds : Cond.wherePieces (Cond.replaceAll f g conds) =
        (Cond.wherePieces conds).map (Piece.replace f g) := by
      match conds with
      | [] => rfl
      | [cond] =>
        simp [Cond.replaceAll, Cond.wherePieces, Cond.pieces_replace cond]
      | first :: second :: rest =>
        exact Cond.operandPieces_replace .and (first :: second :: rest) " WHERE "
    simp only [Select.replace, Select.pieces_eq, Projection.isEmpty_replaceAll]
    simp [hconds, Projection.piecesAll_replace columns, Source.piecesAll_replace sources,
      Expr.piecesAll_replace groupBy, OrderTerm.piecesAll_replace order]
end

theorem OrderTerm.replaceAll_eq_map (terms : List OrderTerm) : OrderTerm.replaceAll f g terms =
    terms.map fun term => ⟨term.expr.replace f g, term.direction⟩ := by
  induction terms with
  | nil => rfl
  | cons term rest ih =>
    obtain ⟨expr, direction⟩ := term
    rw [OrderTerm.replaceAll, ih, List.map_cons]

theorem OrderTerm.replaceAll_append (terms more : List OrderTerm) :
    OrderTerm.replaceAll f g (terms ++ more) =
      OrderTerm.replaceAll f g terms ++ OrderTerm.replaceAll f g more := by
  simp only [OrderTerm.replaceAll_eq_map, List.map_append]

/-- Criteria order by columns alone, in which there is nothing to replace. -/
theorem sortTerms_replace {sort : List SortTerm} {terms : List OrderTerm}
    (h : sortTerms sort = .ok terms) : OrderTerm.replaceAll f g terms = terms := by
  obtain ⟨rfl, -⟩ := sortTerms_eq_ok h
  rw [OrderTerm.replaceAll_eq_map, List.map_map]
  rfl

theorem Select.arrange_replace (s : Select) (c : Criteria) :
    (s.replace f g).arrange c = (s.arrange c).map (Select.replace f g) := by
  obtain ⟨sources, columns, distinct, conds, groupBy, order, limit, offset⟩ := s
  simp only [Select.arrange, Select.replace]
  cases hterms : sortTerms c.sort with
  | error fault => rfl
  | ok terms =>
    simp only [Except.map, Select.replace, OrderTerm.replaceAll_append, sortTerms_replace f g hterms]

theorem Select.hasTable_replace (s : Select) : (s.replace f g).hasTable = s.hasTable := by
  obtain ⟨sources, columns, distinct, conds, groupBy, order, limit, offset⟩ := s
  simp only [Select.hasTable, Select.replace]
  induction sources with
  | nil => rfl
  | cons source rest ih => cases source <;> simp only [Source.replaceAll, List.any_cons, ih]

end
end NamedQuery.Sql
