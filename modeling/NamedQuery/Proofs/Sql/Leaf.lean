import NamedQuery.Proofs.Sql.Rendering

namespace NamedQuery.Sql
open Piece

/-- What a tree holds besides its shape: bound values, text of the caller's own, and segments of
names. -/
inductive Leaf where
  | value (param : Param)
  | raw (text : String)
  | name (segment : String)

def Leaf.value? : Leaf → Option Param
  | value param => some param
  | _ => none

def ColumnRef.leaves (c : ColumnRef) : List Leaf :=
  c.table.toList.map .name ++ if c.isWildcard then [] else [.name c.name]

/-- The leaves of a table's name and its alias. -/
def tableLeaves (name : String) (label : Option String) : List Leaf :=
  (segments name ++ label.toList).map .name

mutual
/-- The leaves of an expression, from left to right. -/
def Expr.leaves : Expr → List Leaf
  | .column c => c.leaves
  | .bound param => [.value param]
  | .raw t => [.raw t]
  | .coalesce args => Expr.leavesAll args
  | .case branches otherwise =>
    Branch.leavesAll branches ++
      match otherwise with
      | none => []
      | some result => result.leaves
  | .call function args => .name function :: Expr.leavesAll args
  | .scalar query => query.leaves

def Expr.leavesAll : List Expr → List Leaf
  | [] => []
  | e :: rest => e.leaves ++ Expr.leavesAll rest

def Branch.leavesAll : List Branch → List Leaf
  | [] => []
  | ⟨test, result⟩ :: rest => test.leaves ++ result.leaves ++ Branch.leavesAll rest

/-- The leaves of a condition, from left to right. Membership in no values has none. -/
def Cond.leaves : Cond → List Leaf
  | .compare left _ right => left.leaves ++ right.leaves
  | .inList expr values _ => if values.isEmpty then [] else expr.leaves ++ Expr.leavesAll values
  | .inQuery expr query _ => expr.leaves ++ query.leaves
  | .between expr low high _ => expr.leaves ++ low.leaves ++ high.leaves
  | .isNull expr _ => expr.leaves
  | .group _ conds => Cond.leavesAll conds
  | .not cond => cond.leaves
  | .hasRow query _ => query.leaves
  | .raw t => [.raw t]

def Cond.leavesAll : List Cond → List Leaf
  | [] => []
  | cond :: rest => cond.leaves ++ Cond.leavesAll rest

def Source.leavesAll : List Source → List Leaf
  | [] => []
  | .table name label :: rest => tableLeaves name label ++ Source.leavesAll rest
  | .joined _ name label on :: rest =>
    tableLeaves name label ++ on.leaves ++ Source.leavesAll rest

def Projection.leavesAll : List Projection → List Leaf
  | [] => []
  | ⟨expr, label⟩ :: rest =>
    expr.leaves ++ label.toList.map .name ++ Projection.leavesAll rest

def OrderTerm.leavesAll : List OrderTerm → List Leaf
  | [] => []
  | ⟨expr, _⟩ :: rest => expr.leaves ++ OrderTerm.leavesAll rest

/-- The leaves of a statement: those of its columns, its sources, its conditions, its groups and its
order. -/
def Select.leaves : Select → List Leaf
  | ⟨sources, columns, _, conds, groupBy, order, _, _⟩ =>
    Projection.leavesAll columns ++ Source.leavesAll sources ++ Cond.leavesAll conds ++
      Expr.leavesAll groupBy ++ OrderTerm.leavesAll order
end

/-- The bound values of a statement, from left to right. -/
def Select.values (s : Select) : List Param :=
  s.leaves.filterMap Leaf.value?

namespace Piece

def leaf? : Piece → Option Leaf
  | value param => some (.value param)
  | raw t => some (.raw t)
  | ident segment _ => some (.name segment)
  | _ => none

def leaves (ps : List Piece) : List Leaf :=
  ps.filterMap leaf?

@[simp] theorem leaves_nil : leaves [] = [] := rfl

@[simp] theorem leaves_append (ps qs : List Piece) : leaves (ps ++ qs) = leaves ps ++ leaves qs :=
  List.filterMap_append

@[simp] theorem leaves_text (t : String) (ps : List Piece) :
    leaves (text t :: ps) = leaves ps := rfl

@[simp] theorem leaves_count (n : Int64) (fault : CompileFault) (ps : List Piece) :
    leaves (count n fault :: ps) = leaves ps := rfl

@[simp] theorem leaves_stop (fault : CompileFault) (ps : List Piece) :
    leaves (stop fault :: ps) = leaves ps := rfl

@[simp] theorem leaves_raw (t : String) (ps : List Piece) :
    leaves (raw t :: ps) = .raw t :: leaves ps := rfl

@[simp] theorem leaves_ident (segment : String) (column : Option ColumnRef) (ps : List Piece) :
    leaves (ident segment column :: ps) = .name segment :: leaves ps := rfl

@[simp] theorem leaves_stopIf (refused : Bool) (fault : CompileFault) (ps : List Piece) :
    leaves (stopIf refused fault ps) = leaves ps := by
  cases refused <;> rfl

@[simp] theorem leaves_ofStart (sources : List Source) (ps : List Piece) :
    leaves (ofStart sources ps) = leaves ps := by
  match sources with
  | [] | .table .. :: _ | .joined .. :: _ => rfl

theorem leaves_ofSegments (names : List String) (lead : String) :
    leaves (ofSegments names lead) = names.map .name := by
  induction names generalizing lead with
  | nil => rfl
  | cons name rest ih => simp [ofSegments, ih]

@[simp] theorem leaves_ofTable (name : String) (label : Option String) :
    leaves (ofTable name label) = tableLeaves name label := by
  cases label <;> simp [ofTable, tableLeaves, leaves_ofSegments]

@[simp] theorem leaves_ofLabel (label : Option String) :
    leaves (ofLabel label) = label.toList.map .name := by
  cases label <;> rfl

@[simp] theorem leaves_ofColumn (c : ColumnRef) : leaves (ofColumn c) = c.leaves := by
  obtain ⟨table, name⟩ := c
  cases table <;> simp only [ofColumn, ColumnRef.leaves] <;> split <;> rfl

@[simp] theorem leaves_ofLimit (limit : Option Int64) : leaves (ofLimit limit) = [] := by
  cases limit <;> simp [ofLimit]

@[simp] theorem leaves_ofOffset (offset : Option Int64) : leaves (ofOffset offset) = [] := by
  cases offset <;> simp [ofOffset]

theorem values_eq_leaves (ps : List Piece) : values ps = (leaves ps).filterMap Leaf.value? := by
  rw [values, leaves, List.filterMap_filterMap]
  congr 1
  funext p
  cases p <;> rfl

end Piece

mutual
/-- The pieces of an expression hold its leaves, and no others. -/
theorem Expr.leaves_pieces : ∀ e : Expr, Piece.leaves e.pieces = e.leaves
  | .column c => by simp [Expr.pieces, Expr.leaves]
  | .bound _ => rfl
  | .raw _ => rfl
  | .coalesce args => by simp [Expr.pieces, Expr.leaves, Expr.leaves_piecesAll args]
  | .case branches none => by simp [Expr.pieces, Expr.leaves, Branch.leaves_piecesAll branches]
  | .case branches (some result) => by
    simp [Expr.pieces, Expr.leaves, Branch.leaves_piecesAll branches, Expr.leaves_pieces result]
  | .call function args => by simp [Expr.pieces, Expr.leaves, Expr.leaves_piecesAll args]
  | .scalar query => by simp [Expr.pieces, Expr.leaves, Select.leaves_pieces query]

theorem Expr.leaves_piecesAll : ∀ (es : List Expr) (lead : String),
    Piece.leaves (Expr.piecesAll es lead) = Expr.leavesAll es
  | [], _ => rfl
  | e :: rest, lead => by
    simp [Expr.piecesAll, Expr.leavesAll, Expr.leaves_pieces e, Expr.leaves_piecesAll rest]

theorem Branch.leaves_piecesAll : ∀ branches : List Branch,
    Piece.leaves (Branch.piecesAll branches) = Branch.leavesAll branches
  | [] => rfl
  | ⟨test, result⟩ :: rest => by
    simp [Branch.piecesAll, Branch.leavesAll, Cond.leaves_pieces test, Expr.leaves_pieces result,
      Branch.leaves_piecesAll rest]

theorem Cond.leaves_pieces : ∀ c : Cond, Piece.leaves c.pieces = c.leaves
  | .compare left comparison right => by
    simp [Cond.pieces, Cond.leaves, Expr.leaves_pieces left, Expr.leaves_pieces right]
  | .inList expr values negated => by
    simp only [Cond.pieces, Cond.leaves]
    split
    · rfl
    · simp [Expr.leaves_pieces expr, Expr.leaves_piecesAll values]
  | .inQuery expr query negated => by
    simp [Cond.pieces, Cond.leaves, Expr.leaves_pieces expr, Select.leaves_pieces query]
  | .between expr low high negated => by
    simp [Cond.pieces, Cond.leaves, Expr.leaves_pieces expr, Expr.leaves_pieces low,
      Expr.leaves_pieces high]
  | .isNull expr negated => by simp [Cond.pieces, Cond.leaves, Expr.leaves_pieces expr]
  | .group _ [] => rfl
  | .group k [cond] => by
    simp [Cond.pieces, Cond.leaves, Cond.leavesAll, Cond.leaves_pieces cond]
  | .group k (first :: second :: rest) => by
    simp [Cond.pieces, Cond.leaves, Cond.leaves_operandPieces k (first :: second :: rest)]
  | .not cond => by simp [Cond.pieces, Cond.leaves, Cond.leaves_pieces cond]
  | .hasRow query negated => by simp [Cond.pieces, Cond.leaves, Select.leaves_pieces query]
  | .raw _ => rfl

theorem Cond.leaves_operandPieces (k : Connective) : ∀ (conds : List Cond) (lead : String),
    Piece.leaves (Cond.operandPieces k conds lead) = Cond.leavesAll conds
  | [], _ => rfl
  | cond :: rest, lead => by
    simp only [Cond.operandPieces, Cond.leavesAll, leaves_text, leaves_append,
      Cond.leaves_operandPieces k rest]
    -- the parentheses around raw text hold no leaf
    cases h : cond.rawText? with
    | none => simp only [Cond.leaves_pieces cond]
    | some t =>
      rw [Cond.eq_raw_of_rawText h]
      simp [Cond.leaves]

theorem Source.leaves_piecesAll : ∀ (sources : List Source) (lead : String),
    Piece.leaves (Source.piecesAll sources lead) = Source.leavesAll sources
  | [], _ => rfl
  | .table name label :: rest, lead => by
    simp [Source.piecesAll, Source.leavesAll, Source.leaves_piecesAll rest]
  | .joined join name label on :: rest, _ => by
    simp [Source.piecesAll, Source.leavesAll, Cond.leaves_pieces on, Source.leaves_piecesAll rest]

theorem Projection.leaves_piecesAll : ∀ (columns : List Projection) (lead : String),
    Piece.leaves (Projection.piecesAll columns lead) = Projection.leavesAll columns
  | [], _ => rfl
  | ⟨expr, label⟩ :: rest, lead => by
    simp [Projection.piecesAll, Projection.leavesAll, Expr.leaves_pieces expr,
      Projection.leaves_piecesAll rest]

theorem OrderTerm.leaves_piecesAll : ∀ (terms : List OrderTerm) (lead : String),
    Piece.leaves (OrderTerm.piecesAll terms lead) = OrderTerm.leavesAll terms
  | [], _ => rfl
  | ⟨expr, direction⟩ :: rest, lead => by
    simp [OrderTerm.piecesAll, OrderTerm.leavesAll, Expr.leaves_pieces expr,
      OrderTerm.leaves_piecesAll rest]

/-- The pieces of a statement hold its leaves, and no others. -/
theorem Select.leaves_pieces : ∀ s : Select, Piece.leaves s.pieces = s.leaves
  | ⟨sources, columns, distinct, conds, groupBy, order, limit, offset⟩ => by
    have hconds : Piece.leaves (Cond.wherePieces conds) = Cond.leavesAll conds := by
      match conds with
      | [] => rfl
      | [cond] => simp [Cond.wherePieces, Cond.leavesAll, Cond.leaves_pieces cond]
      | first :: second :: rest =>
        exact Cond.leaves_operandPieces .and (first :: second :: rest) " WHERE "
    rw [Select.pieces_eq]
    simp [Select.leaves, hconds, Projection.leaves_piecesAll columns,
      Source.leaves_piecesAll sources, Expr.leaves_piecesAll groupBy,
      OrderTerm.leaves_piecesAll order]
end

theorem Cond.leaves_wherePieces (conds : List Cond) :
    Piece.leaves (Cond.wherePieces conds) = Cond.leavesAll conds := by
  have hall := Select.leaves_pieces ⟨[], [], false, conds, [], [], none, none⟩
  simpa [Select.pieces_eq, Select.leaves, Projection.piecesAll, Projection.leavesAll,
    Source.piecesAll, Source.leavesAll, Expr.piecesAll, Expr.leavesAll, OrderTerm.piecesAll,
    OrderTerm.leavesAll] using hall

theorem Select.values_pieces (s : Select) : Piece.values s.pieces = s.values := by
  rw [values_eq_leaves, s.leaves_pieces, Select.values]

theorem OrderTerm.leavesAll_append (terms more : List OrderTerm) :
    OrderTerm.leavesAll (terms ++ more) =
      OrderTerm.leavesAll terms ++ OrderTerm.leavesAll more := by
  induction terms with
  | nil => rfl
  | cons term rest ih =>
    obtain ⟨expr, direction⟩ := term
    rw [List.cons_append, OrderTerm.leavesAll, OrderTerm.leavesAll, ih, List.append_assoc]

theorem ColumnRef.leaves_eq_names (c : ColumnRef) :
    ∃ names : List String, c.leaves = names.map .name := by
  refine ⟨c.table.toList ++ if c.isWildcard then [] else [c.name], ?_⟩
  rw [ColumnRef.leaves, List.map_append]
  split <;> rfl

theorem sortTerms_leaves {sort : List SortTerm} {terms : List OrderTerm}
    (h : sortTerms sort = .ok terms) :
    ∃ names : List String, OrderTerm.leavesAll terms = names.map .name := by
  obtain ⟨rfl, -⟩ := sortTerms_eq_ok h
  clear h
  induction sort with
  | nil => exact ⟨[], rfl⟩
  | cons term rest ih =>
    obtain ⟨names, hnames⟩ := ih
    obtain ⟨own, hown⟩ := (ColumnRef.parse term.field).leaves_eq_names
    rw [List.map_cons, OrderTerm.ofSort, OrderTerm.leavesAll, Expr.leaves, hown, hnames]
    exact ⟨own ++ names, (List.map_append).symm⟩

/-- Criteria add nothing but names of columns. -/
theorem Select.arrange_leaves {s arranged : Select} {c : Criteria}
    (h : s.arrange c = .ok arranged) :
    ∃ names : List String, arranged.leaves = s.leaves ++ names.map .name := by
  obtain ⟨terms, hterms, rfl⟩ := Select.arrange_eq_ok h
  obtain ⟨names, hnames⟩ := sortTerms_leaves hterms
  obtain ⟨sources, columns, distinct, conds, groupBy, order, limit, offset⟩ := s
  exact ⟨names, by simp [Select.leaves, OrderTerm.leavesAll_append, hnames]⟩

theorem Select.arrange_values {s arranged : Select} {c : Criteria}
    (h : s.arrange c = .ok arranged) : arranged.values = s.values := by
  obtain ⟨names, hnames⟩ := s.arrange_leaves h
  have hnone : (names.map Leaf.name).filterMap Leaf.value? = [] := by
    simp [List.filterMap_eq_nil_iff, Leaf.value?]
  rw [Select.values, hnames, List.filterMap_append, hnone, List.append_nil, Select.values]

/-- Text of the caller's own stands in a statement before it is arranged, too. -/
theorem Select.arrange_raw {s arranged : Select} {c : Criteria}
    (h : s.arrange c = .ok arranged) {t : String} (ht : .raw t ∈ arranged.leaves) :
    .raw t ∈ s.leaves := by
  obtain ⟨names, hnames⟩ := s.arrange_leaves h
  simpa [hnames] using ht

theorem Select.raw_mem_leaves {s : Select} {t : String} (h : Piece.raw t ∈ s.pieces) :
    Leaf.raw t ∈ s.leaves := by
  rw [← s.leaves_pieces]
  exact List.mem_filterMap.2 ⟨_, h, rfl⟩

end NamedQuery.Sql
