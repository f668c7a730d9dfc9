import NamedQuery.Proofs.Sql.Leaf
import NamedQuery.Proofs.Sql.Lexeme

namespace NamedQuery.Sql
namespace Lexeme

/-- Whether the token is the keyword, in letters of either case. -/
def is (keyword : String) : Lexeme → Bool
  | word cs => cs.map Char.toUpper == keyword.toList
  | _ => false

/-- The marks that a statement has of its own, beside words. -/
def ownMarks : List Char :=
  [' ', '.', ',', '*', '(', ')', '=', '!', '<', '>']

def isOwn : Lexeme → Bool
  | word cs => cs.all isIdentChar
  | mark c => ownMarks.contains c
  | _ => false

/-- A `CASE` is closed by an `END`, as a parenthesis is by another. -/
def opens (x : Lexeme) : Bool :=
  x == mark '(' || x.is "CASE"

def closes (x : Lexeme) : Bool :=
  x == mark ')' || x.is "END"

/-- How many brackets are open after a token, unless it closes one that is not open. -/
def nest (depth : Nat) (x : Lexeme) : Option Nat :=
  if x.opens then some (depth + 1)
  else if x.closes then
    match depth with
    | 0 => none
    | depth + 1 => some depth
  else some depth

end Lexeme

/-- How many brackets are open after a text, which has to be of a statement's own whole tokens. -/
def nesting (text : String) (depth : Nat) : Option Nat :=
  if (Scan.between.after text.toList).closed && (lexemes text).all Lexeme.isOwn then
    (lexemes text).foldlM Lexeme.nest depth
  else none

theorem nesting_eq_some {t : String} {d d' : Nat} (h : nesting t d = some d') :
    (Scan.between.after t.toList).closed ∧ (∀ x ∈ lexemes t, x.isOwn) ∧
      (lexemes t).foldlM Lexeme.nest d = some d' := by
  unfold nesting at h
  split at h
  next hown => simp_all
  next => simp at h

/-- Whether what follows a text cannot change its tokens. -/
def isLoose (text : String) : Bool :=
  Scan.between.after text.toList == .between

/-- Whether a text cannot change the tokens before it. -/
def breaks (text : String) : Bool :=
  text.toList.head?.any isBreak

namespace Piece

def isText : Piece → Bool
  | text _ => true
  | _ => false

/-- Pieces that cannot change the tokens before them. -/
def Apart : List Piece → Prop
  | [] => True
  | text t :: _ => breaks t
  | _ => False

/-- Pieces whose tokens stay apart, and which close the brackets that they open and as many more as
are given. -/
inductive Laid : Nat → List Piece → Prop
  | nil : Laid 0 []
  | loose {t : String} {d d' : Nat} {rest : List Piece} (nests : nesting t d = some d')
      (loose : isLoose t) (more : Laid d' rest) : Laid d (text t :: rest)
  | tight {t : String} {d d' : Nat} {rest : List Piece} (nests : nesting t d = some d')
      (more : Laid d' rest) (apart : Apart rest) : Laid d (text t :: rest)
  | solid {p : Piece} {d : Nat} {rest : List Piece} (solid : p.isText = false)
      (more : Laid d rest) (apart : Apart rest) : Laid d (p :: rest)
  | stop {fault : CompileFault} {d : Nat} {rest : List Piece} (more : Laid d rest) :
      Laid d (stop fault :: rest)

/-- Pieces that can follow any others. -/
structure Follows (d : Nat) (ps : List Piece) : Prop where
  laid : Laid d ps
  apart : Apart ps

variable {d d' : Nat} {t : String} {rest : List Piece}

theorem Follows.nil : Follows 0 [] :=
  ⟨.nil, trivial⟩

theorem Follows.loose (nests : nesting t d = some d') (loose : isLoose t) (hbreaks : breaks t)
    (more : Laid d' rest) : Follows d (text t :: rest) :=
  ⟨.loose nests loose more, hbreaks⟩

theorem Follows.tight (nests : nesting t d = some d') (hbreaks : breaks t)
    (more : Follows d' rest) : Follows d (text t :: rest) :=
  ⟨.tight nests more.laid more.apart, hbreaks⟩

/-- The texts in a layout consist of a statement's own tokens. -/
theorem Laid.isOwn {ps : List Piece} (h : Laid d ps) (ht : text t ∈ ps) :
    ∀ x ∈ lexemes t, x.isOwn := by
  induction h with
  | nil => simp at ht
  | loose nests _ _ ih | tight nests _ _ ih =>
    obtain heq | hmem := List.mem_cons.1 ht
    · obtain rfl := Piece.text.inj heq
      exact (nesting_eq_some nests).2.1
    · exact ih hmem
  | solid hsolid _ _ ih =>
    obtain rfl | hmem := List.mem_cons.1 ht
    · simp [isText] at hsolid
    · exact ih hmem
  | stop _ ih =>
    obtain heq | hmem := List.mem_cons.1 ht
    · simp at heq
    · exact ih hmem

theorem Laid.stopIf {refused : Bool} {fault : CompileFault} (h : Laid d rest) :
    Laid d (stopIf refused fault rest) := by
  cases refused with
  | false => exact h
  | true => exact .stop h

theorem Laid.ofStart (sources : List Source) (h : Laid d rest) : Laid d (ofStart sources rest) := by
  match sources with
  | [] => exact .stop h
  | .table .. :: _ => exact h
  | .joined .. :: _ => exact .stop h

theorem stopIf_append (refused : Bool) (fault : CompileFault) (ps qs : List Piece) :
    Piece.stopIf refused fault ps ++ qs = Piece.stopIf refused fault (ps ++ qs) := by
  cases refused <;> rfl

theorem ofStart_append (sources : List Source) (ps qs : List Piece) :
    Piece.ofStart sources ps ++ qs = Piece.ofStart sources (ps ++ qs) := by
  match sources with
  | [] | .table .. :: _ | .joined .. :: _ => rfl

theorem Laid.ofSegments {names : List String} {lead : String} (hn : nesting lead d = some d)
    (hl : isLoose lead) (h : Follows d rest) : Laid d (ofSegments names lead ++ rest) := by
  induction names generalizing lead with
  | nil => exact h.laid
  | cons name names ih =>
    refine .loose hn hl (.solid rfl (ih rfl rfl) ?_)
    cases names with
    | nil => exact h.apart
    | cons => exact rfl

theorem Laid.ofTable (name : String) (label : Option String) (h : Follows d rest) :
    Laid d (ofTable name label ++ rest) := by
  cases label with
  | none =>
    rw [Piece.ofTable, List.append_nil]
    exact .ofSegments rfl rfl h
  | some label =>
    rw [Piece.ofTable, List.append_assoc]
    exact .ofSegments rfl rfl (.loose rfl rfl rfl (.solid rfl h.laid h.apart))

theorem Follows.ofLabel (label : Option String) (h : Follows d rest) :
    Follows d (ofLabel label ++ rest) := by
  cases label with
  | none => exact h
  | some label => exact .loose rfl rfl rfl (.solid rfl h.laid h.apart)

theorem Laid.ofColumn (c : ColumnRef) (h : Follows d rest) : Laid d (ofColumn c ++ rest) := by
  have hname : Laid d ((if c.isWildcard then text "*" else ident c.name (some c)) :: rest) := by
    split
    · exact .tight rfl h.laid h.apart
    · exact .solid rfl h.laid h.apart
  obtain ⟨table, name⟩ := c
  cases table with
  | none => exact hname
  | some table => exact .solid rfl (.loose rfl rfl hname) rfl

theorem Follows.ofLimit (limit : Option Int64) (h : Follows d rest) :
    Follows d (ofLimit limit ++ rest) := by
  cases limit with
  | none => exact h
  | some n => exact .loose rfl rfl rfl (.solid rfl h.laid h.apart)

theorem Follows.ofOffset (offset : Option Int64) (h : Follows d rest) :
    Follows d (ofOffset offset ++ rest) := by
  cases offset with
  | none => exact h
  | some n => exact .loose rfl rfl rfl (.solid rfl h.laid h.apart)

end Piece

open Piece

variable {d : Nat} {lead : String} {tail : List Piece}

theorem Expr.apartAll (es : List Expr) (hb : breaks lead) (h : Apart tail) :
    Apart (Expr.piecesAll es lead ++ tail) := by
  cases es with
  | nil => exact h
  | cons => exact hb

theorem Branch.apartAll (branches : List Branch) (h : Apart tail) :
    Apart (Branch.piecesAll branches ++ tail) := by
  cases branches with
  | nil => exact h
  | cons branch =>
    obtain ⟨test, result⟩ := branch
    rfl

theorem Cond.apartOperands (k : Connective) (conds : List Cond) (hb : breaks lead)
    (h : Apart tail) : Apart (Cond.operandPieces k conds lead ++ tail) := by
  cases conds with
  | nil => exact h
  | cons => exact hb

theorem Source.apartAll (sources : List Source) (hb : breaks lead) (h : Apart tail) :
    Apart (Source.piecesAll sources lead ++ tail) := by
  cases sources with
  | nil => exact h
  | cons source =>
    cases source with
    | table => exact hb
    | joined join =>
      show breaks s!" {join.words} "
      cases join <;> rfl

theorem Projection.apartAll (columns : List Projection) (hb : breaks lead) (h : Apart tail) :
    Apart (Projection.piecesAll columns lead ++ tail) := by
  cases columns with
  | nil => exact h
  | cons column =>
    obtain ⟨expr, label⟩ := column
    exact hb

theorem OrderTerm.apartAll (terms : List OrderTerm) (hb : breaks lead) (h : Apart tail) :
    Apart (OrderTerm.piecesAll terms lead ++ tail) := by
  cases terms with
  | nil => exact h
  | cons term =>
    obtain ⟨expr, direction⟩ := term
    exact hb

theorem nesting_comparison (comparison : Comparison) :
    nesting s!" {comparison.symbol} " d = some d ∧ isLoose s!" {comparison.symbol} " ∧
      breaks s!" {comparison.symbol} " := by
  cases comparison <;> exact ⟨rfl, rfl, rfl⟩

theorem nesting_separator (k : Connective) :
    nesting k.separator d = some d ∧ isLoose k.separator ∧ breaks k.separator := by
  cases k <;> exact ⟨rfl, rfl, rfl⟩

theorem nesting_in (negated : Bool) : nesting (negatable negated "IN" ++ "(") d = some (d + 1) ∧
    isLoose (negatable negated "IN" ++ "(") ∧ breaks (negatable negated "IN" ++ "(") := by
  cases negated <;> exact ⟨rfl, rfl, rfl⟩

theorem nesting_between (negated : Bool) : nesting (negatable negated "BETWEEN") d = some d ∧
    isLoose (negatable negated "BETWEEN") ∧ breaks (negatable negated "BETWEEN") := by
  cases negated <;> exact ⟨rfl, rfl, rfl⟩

theorem nesting_join (join : Join) :
    nesting s!" {join.words} " d = some d ∧ isLoose s!" {join.words} " := by
  cases join <;> exact ⟨rfl, rfl⟩

theorem nesting_direction (direction : Direction) :
    nesting s!" {direction.word}" d = some d ∧ breaks s!" {direction.word}" := by
  cases direction <;> exact ⟨rfl, rfl⟩

mutual
/-- The tokens of an expression stay apart, and its brackets match. -/
theorem Expr.laid : ∀ (e : Expr) {d : Nat} {tail : List Piece}, Follows d tail →
    Laid d (e.pieces ++ tail)
  | .column c, _, _, h => .ofColumn c h
  | .bound _, _, _, h => .solid rfl h.laid h.apart
  | .raw _, _, _, h => .solid rfl h.laid h.apart
  | .coalesce args, d, tail, h => by
    simp only [Expr.pieces, stopIf_append, List.cons_append, List.append_assoc, List.nil_append]
    exact .stopIf (.loose rfl rfl (Expr.laidAll args rfl rfl (.loose rfl rfl rfl h.laid)))
  | .case branches none, d, tail, h => by
    have hend : Follows (d + 1) (.text " END" :: tail) := .tight rfl rfl h
    simp only [Expr.pieces, stopIf_append, List.cons_append, List.append_assoc, List.nil_append]
    exact .stopIf (.tight rfl (Branch.laidAll branches hend) (Branch.apartAll branches hend.apart))
  | .case branches (some result), d, tail, h => by
    have hend : Follows (d + 1) (.text " END" :: tail) := .tight rfl rfl h
    have helse : Follows (d + 1) (.text " ELSE " :: (result.pieces ++ .text " END" :: tail)) :=
      .loose rfl rfl rfl (Expr.laid result hend)
    simp only [Expr.pieces, stopIf_append, List.cons_append, List.append_assoc, List.nil_append]
    refine .stopIf (.tight rfl ?_ ?_)
    · exact Branch.laidAll branches helse
    · exact Branch.apartAll branches helse.apart
  | .call function args, d, tail, h => by
    simp only [Expr.pieces, List.cons_append, List.append_assoc, List.nil_append]
    exact .solid rfl (.loose rfl rfl (Expr.laidAll args rfl rfl (.loose rfl rfl rfl h.laid))) rfl
  | .scalar query, d, tail, h => by
    simp only [Expr.pieces, List.cons_append, List.append_assoc, List.nil_append]
    exact .loose rfl rfl (Select.laid query (.loose rfl rfl rfl h.laid))

theorem Expr.laidAll : ∀ (es : List Expr) {lead : String} {d : Nat} {tail : List Piece},
    nesting lead d = some d → isLoose lead → Follows d tail →
      Laid d (Expr.piecesAll es lead ++ tail)
  | [], _, _, _, _, _, h => h.laid
  | e :: rest, lead, d, tail, hn, hl, h => by
    simp only [Expr.piecesAll, List.cons_append, List.append_assoc]
    exact .loose hn hl (Expr.laid e
      ⟨Expr.laidAll rest rfl rfl h, Expr.apartAll rest rfl h.apart⟩)

theorem Branch.laidAll : ∀ (branches : List Branch) {d : Nat} {tail : List Piece},
    Follows d tail → Laid d (Branch.piecesAll branches ++ tail)
  | [], _, _, h => h.laid
  | ⟨test, result⟩ :: rest, d, tail, h => by
    simp only [Branch.piecesAll, List.cons_append, List.append_assoc]
    exact .loose rfl rfl (Cond.laid test (.loose rfl rfl rfl (Expr.laid result
      ⟨Branch.laidAll rest h, Branch.apartAll rest h.apart⟩)))

/-- The tokens of a condition stay apart, and its brackets match. -/
theorem Cond.laid : ∀ (c : Cond) {d : Nat} {tail : List Piece}, Follows d tail →
    Laid d (c.pieces ++ tail)
  | .compare left comparison right, d, tail, h => by
    obtain ⟨hn, hl, hb⟩ := nesting_comparison (d := d) comparison
    simp only [Cond.pieces, List.cons_append, List.append_assoc]
    exact Expr.laid left (.loose hn hl hb (Expr.laid right h))
  | .inList expr values negated, d, tail, h => by
    obtain ⟨hn, hl, hb⟩ := nesting_in (d := d) negated
    simp only [Cond.pieces]
    split
    · cases negated <;> exact .tight rfl h.laid h.apart
    · simp only [List.cons_append, List.append_assoc, List.nil_append]
      exact Expr.laid expr
        (.loose hn hl hb (Expr.laidAll values rfl rfl (.loose rfl rfl rfl h.laid)))
  | .inQuery expr query negated, d, tail, h => by
    obtain ⟨hn, hl, hb⟩ := nesting_in (d := d) negated
    simp only [Cond.pieces, List.cons_append, List.append_assoc, List.nil_append]
    exact Expr.laid expr (.loose hn hl hb (Select.laid query (.loose rfl rfl rfl h.laid)))
  | .between expr low high negated, d, tail, h => by
    obtain ⟨hn, hl, hb⟩ := nesting_between (d := d) negated
    simp only [Cond.pieces, List.cons_append, List.append_assoc]
    exact Expr.laid expr
      (.loose hn hl hb (Expr.laid low (.loose rfl rfl rfl (Expr.laid high h))))
  | .isNull expr negated, d, tail, h => by
    simp only [Cond.pieces, List.cons_append, List.append_assoc, List.nil_append]
    refine Expr.laid expr ?_
    cases negated <;> exact .tight rfl rfl h
  | .group _ [], _, _, h => .stop h.laid
  | .group _ [cond], _, _, h => Cond.laid cond h
  | .group k (first :: second :: rest), d, tail, h => by
    simp only [Cond.pieces, List.append_assoc, List.cons_append, List.nil_append]
    exact Cond.laidOperands k (first :: second :: rest) nofun rfl rfl (.loose rfl rfl rfl h.laid)
  | .not cond, d, tail, h => by
    simp only [Cond.pieces, List.append_assoc, List.cons_append, List.nil_append]
    exact .loose rfl rfl (Cond.laid cond (.loose rfl rfl rfl h.laid))
  | .hasRow query negated, d, tail, h => by
    have hquery : Laid (d + 1) (query.pieces ++ .text ")" :: tail) :=
      Select.laid query (.loose rfl rfl rfl h.laid)
    simp only [Cond.pieces, List.append_assoc, List.cons_append, List.nil_append]
    cases negated <;> exact .loose rfl rfl hquery
  | .raw _, _, _, h => .solid rfl h.laid h.apart

theorem Cond.laidOperands (k : Connective) : ∀ (conds : List Cond) {lead : String} {d d' : Nat}
    {tail : List Piece}, (conds = [] → d = d') → nesting lead d = some d' → isLoose lead →
      Follows d' tail → Laid d (Cond.operandPieces k conds lead ++ tail)
  | [], _, _, _, _, hd, _, _, h => hd rfl ▸ h.laid
  | cond :: rest, lead, d, d', tail, _, hn, hl, h => by
    obtain ⟨hn', hl', hb'⟩ := nesting_separator (d := d') k
    have hrest : Follows d' (Cond.operandPieces k rest k.separator ++ tail) :=
      ⟨Cond.laidOperands k rest (fun _ => rfl) hn' hl' h, Cond.apartOperands k rest hb' h.apart⟩
    simp only [Cond.operandPieces, List.append_assoc, List.cons_append]
    refine .loose hn hl ?_
    cases cond.rawText? with
    | none => exact Cond.laid cond hrest
    | some t => exact .loose rfl rfl (.solid rfl (.loose rfl rfl hrest.laid) rfl)

theorem Source.laidAll : ∀ (sources : List Source) {lead : String} {d : Nat}
    {tail : List Piece}, nesting lead d = some d → isLoose lead → Follows d tail →
      Laid d (Source.piecesAll sources lead ++ tail)
  | [], _, _, _, _, _, h => h.laid
  | .table name label :: rest, lead, d, tail, hn, hl, h => by
    simp only [Source.piecesAll, List.append_assoc, List.cons_append]
    exact .loose hn hl (.ofTable name label
      ⟨Source.laidAll rest rfl rfl h, Source.apartAll rest rfl h.apart⟩)
  | .joined join name label on :: rest, lead, d, tail, hn, hl, h => by
    obtain ⟨hn', hl'⟩ := nesting_join (d := d) join
    simp only [Source.piecesAll, List.append_assoc, List.cons_append]
    exact .loose hn' hl' (.ofTable name label (.loose rfl rfl rfl (Cond.laid on
      ⟨Source.laidAll rest rfl rfl h, Source.apartAll rest rfl h.apart⟩)))

theorem Projection.laidAll : ∀ (columns : List Projection) {lead : String} {d : Nat}
    {tail : List Piece}, nesting lead d = some d → isLoose lead → Follows d tail →
      Laid d (Projection.piecesAll columns lead ++ tail)
  | [], _, _, _, _, _, h => h.laid
  | ⟨expr, label⟩ :: rest, lead, d, tail, hn, hl, h => by
    simp only [Projection.piecesAll, List.append_assoc, List.cons_append]
    exact .loose hn hl (Expr.laid expr (.ofLabel label
      ⟨Projection.laidAll rest rfl rfl h, Projection.apartAll rest rfl h.apart⟩))

theorem OrderTerm.laidAll : ∀ (terms : List OrderTerm) {lead : String} {d : Nat}
    {tail : List Piece}, nesting lead d = some d → isLoose lead → Follows d tail →
      Laid d (OrderTerm.piecesAll terms lead ++ tail)
  | [], _, _, _, _, _, h => h.laid
  | ⟨expr, direction⟩ :: rest, lead, d, tail, hn, hl, h => by
    obtain ⟨hn', hb'⟩ := nesting_direction (d := d) direction
    simp only [OrderTerm.piecesAll, List.append_assoc, List.cons_append]
    exact .loose hn hl (Expr.laid expr (.tight hn' hb'
      ⟨OrderTerm.laidAll rest rfl rfl h, OrderTerm.apartAll rest rfl h.apart⟩))

/-- The tokens of a statement stay apart, and its brackets match. -/
theorem Select.laid : ∀ (s : Select) {d : Nat} {tail : List Piece}, Follows d tail →
    Laid d (s.pieces ++ tail)
  | ⟨sources, columns, distinct, conds, groupBy, order, limit, offset⟩, d, tail, h => by
    -- from the last clause to the first, since each is laid out before what follows it
    have hwindow : Follows d (ofLimit limit ++ (ofOffset offset ++ tail)) :=
      .ofLimit limit (.ofOffset offset h)
    have horder : Follows d (OrderTerm.piecesAll order " ORDER BY " ++
        (ofLimit limit ++ (ofOffset offset ++ tail))) :=
      ⟨OrderTerm.laidAll order rfl rfl hwindow, OrderTerm.apartAll order rfl hwindow.apart⟩
    have hgroup : Follows d (Expr.piecesAll groupBy " GROUP BY " ++
        (OrderTerm.piecesAll order " ORDER BY " ++
          (ofLimit limit ++ (ofOffset offset ++ tail)))) :=
      ⟨Expr.laidAll groupBy rfl rfl horder, Expr.apartAll groupBy rfl horder.apart⟩
    have hconds : Follows d (Cond.wherePieces conds ++ (Expr.piecesAll groupBy " GROUP BY " ++
        (OrderTerm.piecesAll order " ORDER BY " ++
          (ofLimit limit ++ (ofOffset offset ++ tail))))) := by
      match conds with
      | [] => exact hgroup
      | [cond] => exact .loose rfl rfl rfl (Cond.laid cond hgroup)
      | first :: second :: rest =>
        exact ⟨Cond.laidOperands .and (first :: second :: rest) nofun rfl rfl hgroup, rfl⟩
    have hfrom : Follows d (.text " FROM " :: (Source.piecesAll sources "" ++
        (Cond.wherePieces conds ++ (Expr.piecesAll groupBy " GROUP BY " ++
          (OrderTerm.piecesAll order " ORDER BY " ++
            (ofLimit limit ++ (ofOffset offset ++ tail))))))) :=
      .loose rfl rfl rfl (Source.laidAll sources rfl rfl hconds)
    have hstar : nesting (if columns.isEmpty then "*" else "") d = some d ∧
        isLoose (if columns.isEmpty then "*" else "") := by
      split <;> exact ⟨rfl, rfl⟩
    have hselect : nesting (if distinct then "SELECT DISTINCT " else "SELECT ") d = some d ∧
        isLoose (if distinct then "SELECT DISTINCT " else "SELECT ") := by
      split <;> exact ⟨rfl, rfl⟩
    rw [Select.pieces_eq, ofStart_append]
    simp only [List.cons_append, List.append_assoc]
    exact .ofStart sources (.loose hselect.1 hselect.2 (.loose hstar.1 hstar.2
      (Projection.laidAll columns rfl rfl hfrom)))
end

theorem Cond.laid_pieces (c : Cond) : Laid 0 c.pieces := by
  simpa using c.laid Follows.nil

theorem Select.laid_pieces (s : Select) : Laid 0 s.pieces := by
  simpa using s.laid Follows.nil

end NamedQuery.Sql
