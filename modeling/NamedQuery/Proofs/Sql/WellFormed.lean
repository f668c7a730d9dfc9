import NamedQuery.Proofs.Sql.Rendering

namespace NamedQuery.Sql
open Piece

/-- A column's table and name are segments; the name may be `*` instead. -/
def ColumnRef.WellFormed (c : ColumnRef) : Prop :=
  (∀ table ∈ c.table, Segment table.toList) ∧ (c.name = "*" ∨ Segment c.name.toList)

/-- Each part of a table's name is a segment, and so is its alias where it has one. -/
def TableWellFormed (name : String) (label : Option String) : Prop :=
  (∀ segment ∈ segments name, Segment segment.toList) ∧ ∀ l ∈ label, Segment l.toList

/-- A statement reads from a table before it joins to it. -/
def StartsWithTable (sources : List Source) : Prop :=
  ∃ name label rest, sources = .table name label :: rest

mutual
def Expr.WellFormed : Expr → Prop
  | .column c => c.WellFormed
  | .bound _ | .raw _ => True
  | .coalesce args => args ≠ [] ∧ Expr.WellFormedAll args
  | .case branches otherwise =>
    branches ≠ [] ∧ Branch.WellFormedAll branches ∧
      match otherwise with
      | none => True
      | some result => result.WellFormed
  | .call function args => Segment function.toList ∧ Expr.WellFormedAll args
  | .scalar query => query.WellFormed

def Expr.WellFormedAll : List Expr → Prop
  | [] => True
  | e :: rest => e.WellFormed ∧ Expr.WellFormedAll rest

def Branch.WellFormedAll : List Branch → Prop
  | [] => True
  | ⟨test, result⟩ :: rest => test.WellFormed ∧ result.WellFormed ∧ Branch.WellFormedAll rest

/-- Membership in no values is well-formed whatever its left side is. -/
def Cond.WellFormed : Cond → Prop
  | .compare left _ right => left.WellFormed ∧ right.WellFormed
  | .inList expr values _ => values = [] ∨ expr.WellFormed ∧ Expr.WellFormedAll values
  | .inQuery expr query _ => expr.WellFormed ∧ query.WellFormed
  | .between expr low high _ => expr.WellFormed ∧ low.WellFormed ∧ high.WellFormed
  | .isNull expr _ => expr.WellFormed
  | .group _ conds => conds ≠ [] ∧ Cond.WellFormedAll conds
  | .not cond => cond.WellFormed
  | .hasRow query _ => query.WellFormed
  | .raw _ => True

def Cond.WellFormedAll : List Cond → Prop
  | [] => True
  | cond :: rest => cond.WellFormed ∧ Cond.WellFormedAll rest

def Source.WellFormedAll : List Source → Prop
  | [] => True
  | .table name label :: rest => TableWellFormed name label ∧ Source.WellFormedAll rest
  | .joined _ name label on :: rest =>
    TableWellFormed name label ∧ on.WellFormed ∧ Source.WellFormedAll rest

def Projection.WellFormedAll : List Projection → Prop
  | [] => True
  | ⟨expr, label⟩ :: rest =>
    expr.WellFormed ∧ (∀ l ∈ label, Segment l.toList) ∧ Projection.WellFormedAll rest

def OrderTerm.WellFormedAll : List OrderTerm → Prop
  | [] => True
  | ⟨expr, _⟩ :: rest => expr.WellFormed ∧ OrderTerm.WellFormedAll rest

/-- A statement that starts with a table, whose parts are well-formed, and whose window is not
negative. -/
def Select.WellFormed : Select → Prop
  | ⟨sources, columns, _, conds, groupBy, order, limit, offset⟩ =>
    StartsWithTable sources ∧ Source.WellFormedAll sources ∧ Projection.WellFormedAll columns ∧
      Cond.WellFormedAll conds ∧ Expr.WellFormedAll groupBy ∧ OrderTerm.WellFormedAll order ∧
      (∀ n ∈ limit, 0 ≤ n) ∧ ∀ n ∈ offset, 0 ≤ n
end

/-- Criteria order by a well-formed column, which is not the wildcard. -/
def Sortable (term : SortTerm) : Prop :=
  (ColumnRef.parse term.field).WellFormed ∧ (ColumnRef.parse term.field).name ≠ "*"

/-- A statement is well-formed under criteria when their order is, and when it is itself with their
window in the place of its own. -/
def Select.WellFormedUnder (s : Select) (c : Criteria) : Prop :=
  (∀ term ∈ c.sort, Sortable term) ∧
    { s with limit := c.take <|> s.limit, offset := c.skip <|> s.offset }.WellFormed

namespace Piece

@[simp] theorem sound_nil : Sound [] := nofun

@[simp] theorem sound_text (t : String) (ps : List Piece) : Sound (text t :: ps) ↔ Sound ps := by
  simp [sound_cons, fault?]

@[simp] theorem sound_raw (t : String) (ps : List Piece) : Sound (raw t :: ps) ↔ Sound ps := by
  simp [sound_cons, fault?]

@[simp] theorem sound_value (param : Param) (ps : List Piece) :
    Sound (value param :: ps) ↔ Sound ps := by
  simp [sound_cons, fault?]

@[simp] theorem not_sound_stop (fault : CompileFault) (ps : List Piece) :
    ¬ Sound (stop fault :: ps) := by
  simp [sound_cons, fault?]

@[simp] theorem sound_ident (segment : String) (column : Option ColumnRef) (ps : List Piece) :
    Sound (ident segment column :: ps) ↔ Segment segment.toList ∧ Sound ps := by
  rw [sound_cons, ← Ident.parse_isOk_iff]
  cases h : Ident.parse segment <;> simp [fault?, h]

@[simp] theorem sound_count (n : Int64) (fault : CompileFault) (ps : List Piece) :
    Sound (count n fault :: ps) ↔ 0 ≤ n ∧ Sound ps := by
  simp [sound_cons, fault?]

@[simp] theorem sound_stopIf (refused : Bool) (fault : CompileFault) (ps : List Piece) :
    Sound (stopIf refused fault ps) ↔ refused = false ∧ Sound ps := by
  cases refused <;> simp [stopIf]

@[simp] theorem sound_ofStart (sources : List Source) (ps : List Piece) :
    Sound (ofStart sources ps) ↔ StartsWithTable sources ∧ Sound ps := by
  match sources with
  | [] | .table .. :: _ | .joined .. :: _ => simp [ofStart, StartsWithTable]

theorem sound_ofSegments (names : List String) (lead : String) :
    Sound (ofSegments names lead) ↔ ∀ name ∈ names, Segment name.toList := by
  induction names generalizing lead with
  | nil => simp [ofSegments]
  | cons name rest ih => simp [ofSegments, ih]

@[simp] theorem sound_ofTable (name : String) (label : Option String) :
    Sound (ofTable name label) ↔ TableWellFormed name label := by
  cases label <;> simp [ofTable, sound_append, sound_ofSegments, TableWellFormed]

@[simp] theorem sound_ofLabel (label : Option String) :
    Sound (ofLabel label) ↔ ∀ l ∈ label, Segment l.toList := by
  cases label <;> simp [ofLabel]

@[simp] theorem sound_ofColumn (c : ColumnRef) : Sound (ofColumn c) ↔ c.WellFormed := by
  obtain ⟨table, name⟩ := c
  by_cases hname : name = "*" <;> cases table <;>
    simp [ofColumn, ColumnRef.isWildcard, ColumnRef.WellFormed, hname]

@[simp] theorem sound_ofLimit (limit : Option Int64) : Sound (ofLimit limit) ↔ ∀ n ∈ limit, 0 ≤ n := by
  cases limit <;> simp [ofLimit]

@[simp] theorem sound_ofOffset (offset : Option Int64) :
    Sound (ofOffset offset) ↔ ∀ n ∈ offset, 0 ≤ n := by
  cases offset <;> simp [ofOffset]

end Piece

mutual
/-- An expression can be written when it is well-formed. -/
theorem Expr.sound_pieces : ∀ e : Expr, Sound e.pieces ↔ e.WellFormed
  | .column c => by simp [Expr.pieces, Expr.WellFormed]
  | .bound _ => by simp [Expr.pieces, Expr.WellFormed]
  | .raw _ => by simp [Expr.pieces, Expr.WellFormed]
  | .coalesce args => by
    simp [Expr.pieces, Expr.WellFormed, sound_append, Expr.sound_piecesAll args]
  | .case branches none => by
    simp [Expr.pieces, Expr.WellFormed, sound_append, Branch.sound_piecesAll branches]
  | .case branches (some result) => by
    simp [Expr.pieces, Expr.WellFormed, sound_append, Branch.sound_piecesAll branches,
      Expr.sound_pieces result]
  | .call function args => by
    simp [Expr.pieces, Expr.WellFormed, sound_append, Expr.sound_piecesAll args]
  | .scalar query => by
    simp [Expr.pieces, Expr.WellFormed, sound_append, Select.sound_pieces query]

theorem Expr.sound_piecesAll : ∀ (es : List Expr) (lead : String),
    Sound (Expr.piecesAll es lead) ↔ Expr.WellFormedAll es
  | [], _ => by simp [Expr.piecesAll, Expr.WellFormedAll]
  | e :: rest, lead => by
    simp [Expr.piecesAll, Expr.WellFormedAll, sound_append, Expr.sound_pieces e,
      Expr.sound_piecesAll rest]

theorem Branch.sound_piecesAll : ∀ branches : List Branch,
    Sound (Branch.piecesAll branches) ↔ Branch.WellFormedAll branches
  | [] => by simp [Branch.piecesAll, Branch.WellFormedAll]
  | ⟨test, result⟩ :: rest => by
    simp [Branch.piecesAll, Branch.WellFormedAll, sound_append, Cond.sound_pieces test,
      Expr.sound_pieces result, Branch.sound_piecesAll rest]

/-- A condition can be written when it is well-formed. -/
theorem Cond.sound_pieces : ∀ c : Cond, Sound c.pieces ↔ c.WellFormed
  | .compare left comparison right => by
    simp [Cond.pieces, Cond.WellFormed, sound_append, Expr.sound_pieces left,
      Expr.sound_pieces right]
  | .inList expr values negated => by
    simp only [Cond.pieces, Cond.WellFormed]
    by_cases hvalues : values = []
    · simp [hvalues]
    · simp [hvalues, sound_append, Expr.sound_pieces expr, Expr.sound_piecesAll values]
  | .inQuery expr query negated => by
    simp [Cond.pieces, Cond.WellFormed, sound_append, Expr.sound_pieces expr,
      Select.sound_pieces query]
  | .between expr low high negated => by
    simp [Cond.pieces, Cond.WellFormed, sound_append, Expr.sound_pieces expr,
      Expr.sound_pieces low, Expr.sound_pieces high]
  | .isNull expr negated => by
    simp [Cond.pieces, Cond.WellFormed, sound_append, Expr.sound_pieces expr]
  | .group k conds => by rw [Cond.sound_group, Cond.WellFormed, Cond.sound_piecesAll conds]
  | .not cond => by simp [Cond.pieces, Cond.WellFormed, sound_append, Cond.sound_pieces cond]
  | .hasRow query negated => by
    simp [Cond.pieces, Cond.WellFormed, sound_append, Select.sound_pieces query]
  | .raw _ => by simp [Cond.pieces, Cond.WellFormed]

theorem Cond.sound_piecesAll : ∀ conds : List Cond,
    (∀ cond ∈ conds, Sound cond.pieces) ↔ Cond.WellFormedAll conds
  | [] => by simp [Cond.WellFormedAll]
  | cond :: rest => by
    rw [List.forall_mem_cons, Cond.WellFormedAll, Cond.sound_pieces cond,
      Cond.sound_piecesAll rest]

theorem Source.sound_piecesAll : ∀ (sources : List Source) (lead : String),
    Sound (Source.piecesAll sources lead) ↔ Source.WellFormedAll sources
  | [], _ => by simp [Source.piecesAll, Source.WellFormedAll]
  | .table name label :: rest, lead => by
    simp [Source.piecesAll, Source.WellFormedAll, sound_append, Source.sound_piecesAll rest]
  | .joined join name label on :: rest, _ => by
    simp [Source.piecesAll, Source.WellFormedAll, sound_append, Cond.sound_pieces on,
      Source.sound_piecesAll rest]

theorem Projection.sound_piecesAll : ∀ (columns : List Projection) (lead : String),
    Sound (Projection.piecesAll columns lead) ↔ Projection.WellFormedAll columns
  | [], _ => by simp [Projection.piecesAll, Projection.WellFormedAll]
  | ⟨expr, label⟩ :: rest, lead => by
    simp [Projection.piecesAll, Projection.WellFormedAll, sound_append, Expr.sound_pieces expr,
      Projection.sound_piecesAll rest]

theorem OrderTerm.sound_piecesAll : ∀ (terms : List OrderTerm) (lead : String),
    Sound (OrderTerm.piecesAll terms lead) ↔ OrderTerm.WellFormedAll terms
  | [], _ => by simp [OrderTerm.piecesAll, OrderTerm.WellFormedAll]
  | ⟨expr, direction⟩ :: rest, lead => by
    simp [OrderTerm.piecesAll, OrderTerm.WellFormedAll, sound_append, Expr.sound_pieces expr,
      OrderTerm.sound_piecesAll rest]

/-- A statement can be written when it is well-formed. -/
theorem Select.sound_pieces : ∀ s : Select, Sound s.pieces ↔ s.WellFormed
  | ⟨sources, columns, distinct, conds, groupBy, order, limit, offset⟩ => by
    rw [Select.pieces_eq, Select.WellFormed]
    simp only [sound_ofStart, sound_text, sound_append, Projection.sound_piecesAll columns,
      Source.sound_piecesAll sources, Cond.sound_wherePieces, Cond.sound_piecesAll conds,
      Expr.sound_piecesAll groupBy, OrderTerm.sound_piecesAll order, sound_ofLimit, sound_ofOffset]
    tauto
end

theorem OrderTerm.wellFormedAll_iff (terms : List OrderTerm) :
    OrderTerm.WellFormedAll terms ↔ ∀ term ∈ terms, term.expr.WellFormed := by
  induction terms with
  | nil => simp [OrderTerm.WellFormedAll]
  | cons term rest ih =>
    obtain ⟨expr, direction⟩ := term
    rw [OrderTerm.WellFormedAll, ih, List.forall_mem_cons]

theorem OrderTerm.wellFormedAll_append (terms more : List OrderTerm) :
    OrderTerm.WellFormedAll (terms ++ more) ↔
      OrderTerm.WellFormedAll terms ∧ OrderTerm.WellFormedAll more := by
  simp only [OrderTerm.wellFormedAll_iff, List.forall_mem_append]

/-- Criteria whose order is taken over name columns; these are well-formed when the order is. -/
theorem sortTerms_wellFormed {sort : List SortTerm} {terms : List OrderTerm}
    (h : sortTerms sort = .ok terms) :
    OrderTerm.WellFormedAll terms ↔ ∀ term ∈ sort, Sortable term := by
  obtain ⟨rfl, hnames⟩ := sortTerms_eq_ok h
  rw [OrderTerm.wellFormedAll_iff, List.forall_mem_map]
  refine forall₂_congr fun term hterm => ?_
  have hne : (ColumnRef.parse term.field).name ≠ "*" := by
    simpa [ColumnRef.isWildcard] using hnames term hterm
  simp [OrderTerm.ofSort, Expr.WellFormed, Sortable, hne]

theorem sortTerms_of_sortable {sort : List SortTerm} (h : ∀ term ∈ sort, Sortable term) :
    ∃ terms, sortTerms sort = .ok terms := by
  induction sort with
  | nil => exact ⟨[], rfl⟩
  | cons term rest ih =>
    obtain ⟨⟨-, hne⟩, hrest⟩ := List.forall_mem_cons.1 h
    obtain ⟨more, hmore⟩ := ih hrest
    have hname : (ColumnRef.parse term.field).isWildcard = false := by
      simpa [ColumnRef.isWildcard] using hne
    exact ⟨_, by simp only [sortTerms, hname, hmore]; rfl⟩

namespace Select

variable {s : Select} {c : Criteria}

theorem wellFormed_arrange {arranged : Select} (h : s.arrange c = .ok arranged) :
    arranged.WellFormed ↔ s.WellFormedUnder c := by
  obtain ⟨terms, hterms, rfl⟩ := Select.arrange_eq_ok h
  rw [WellFormedUnder, WellFormed, WellFormed, OrderTerm.wellFormedAll_append,
    sortTerms_wellFormed hterms]
  tauto

theorem compile_of_wellFormed (h : s.WellFormedUnder c) : ∃ st, s.compile c = .ok st := by
  obtain ⟨terms, hterms⟩ := sortTerms_of_sortable h.1
  obtain ⟨arranged, harrange⟩ : ∃ arranged, s.arrange c = .ok arranged := by
    rw [arrange, hterms]
    exact ⟨_, rfl⟩
  have hsound : Sound arranged.pieces :=
    arranged.sound_pieces.2 ((wellFormed_arrange harrange).2 h)
  rw [compile_eq, harrange]
  simp only [List.findSome?_eq_none_iff.2 hsound]
  exact ⟨_, rfl⟩

theorem wellFormed_of_compile {st : Statement} (h : s.compile c = .ok st) :
    s.WellFormedUnder c := by
  obtain ⟨arranged, harrange, hsound, -, -⟩ := compile_eq_ok h
  exact (wellFormed_arrange harrange).1 (arranged.sound_pieces.1 hsound)

theorem isCompile_of_compile {error : Error} (h : s.compile c = .error error) :
    ∃ fault, error = .compile fault := by
  unfold compile at h
  cases hwrite : (s.arrange c).bind (·.write .empty) with
  | error fault =>
    rw [hwrite] at h
    exact ⟨fault, (Except.error.inj h).symm⟩
  | ok w => simp [hwrite, Except.map, Except.mapError] at h

/-- A statement compiles when it is well-formed under the criteria, and any other is refused with a
fault of its own. -/
theorem compile_isOk_iff (s : Select) (c : Criteria) :
    ((∃ st, s.compile c = .ok st) ↔ s.WellFormedUnder c) ∧
      (¬ s.WellFormedUnder c → ∃ fault, s.compile c = .error (.compile fault)) := by
  refine ⟨⟨fun ⟨st, h⟩ => wellFormed_of_compile h, compile_of_wellFormed⟩, fun hnot => ?_⟩
  cases hcompile : s.compile c with
  | ok st => exact absurd (wellFormed_of_compile hcompile) hnot
  | error error =>
    obtain ⟨fault, rfl⟩ := isCompile_of_compile hcompile
    exact ⟨fault, rfl⟩

end Select

/-- A statement whose own limit is negative, with a column of no valid name where it is not written. -/
def negativeLimit : Select where
  sources := [.table "shop.\"Order Items\"" (some "i")]
  columns := [⟨.column (.qualified "i" "*"), none⟩]
  distinct := false
  conds := [.inList (.column (.unqualified "no column")) [] true]
  groupBy := []
  order := []
  limit := some (-1)
  offset := none

def firstTen : Criteria :=
  { Criteria.default with sort := [⟨"i.price", .descending⟩], take := some 10 }

theorem wellFormed_under_firstTen :
    negativeLimit.compile firstTen = .ok
        ⟨"SELECT i.* FROM shop.\"Order Items\" i WHERE TRUE ORDER BY i.price DESC LIMIT 10", #[]⟩ ∧
      negativeLimit.WellFormedUnder firstTen ∧ ¬ negativeLimit.WellFormedUnder .default ∧
      ∃ fault, negativeLimit.compile .default = .error (.compile fault) := by
  have hcompile : negativeLimit.compile firstTen = .ok
      ⟨"SELECT i.* FROM shop.\"Order Items\" i WHERE TRUE ORDER BY i.price DESC LIMIT 10", #[]⟩ :=
    rfl
  have hnot : ¬ negativeLimit.WellFormedUnder .default := by
    rintro ⟨-, -, -, -, -, -, -, hlimit, -⟩
    exact absurd (hlimit (-1) rfl) (by decide)
  exact ⟨hcompile, (Select.compile_isOk_iff negativeLimit firstTen).1.1 ⟨_, hcompile⟩, hnot,
    (Select.compile_isOk_iff negativeLimit .default).2 hnot⟩

end NamedQuery.Sql
