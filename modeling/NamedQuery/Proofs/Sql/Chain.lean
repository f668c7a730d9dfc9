import NamedQuery.Proofs.Sql.Rendering

namespace NamedQuery.Sql
open Piece

/-- A connective and its operands, of which there are at least two. -/
abbrev Chain := Connective × List Cond

def chainOf (k : Connective) (conds : List Cond) : List Chain :=
  if conds.length < 2 then [] else [(k, conds)]

mutual
/-- The chains in an expression, at any depth. -/
def Expr.chains : Expr → List Chain
  | .column _ | .bound _ | .raw _ => []
  | .coalesce args => Expr.chainsAll args
  | .case branches otherwise =>
    Branch.chainsAll branches ++
      match otherwise with
      | none => []
      | some result => result.chains
  | .call _ args => Expr.chainsAll args
  | .scalar query => query.chains

def Expr.chainsAll : List Expr → List Chain
  | [] => []
  | e :: rest => e.chains ++ Expr.chainsAll rest

def Branch.chainsAll : List Branch → List Chain
  | [] => []
  | ⟨test, result⟩ :: rest => test.chains ++ (result.chains ++ Branch.chainsAll rest)

/-- The chains in a condition, at any depth. Membership in no values has none. -/
def Cond.chains : Cond → List Chain
  | .compare left _ right => left.chains ++ right.chains
  | .inList expr values _ => if values.isEmpty then [] else expr.chains ++ Expr.chainsAll values
  | .inQuery expr query _ => expr.chains ++ query.chains
  | .between expr low high _ => expr.chains ++ (low.chains ++ high.chains)
  | .isNull expr _ => expr.chains
  | .group k conds => chainOf k conds ++ Cond.chainsAll conds
  | .not cond => cond.chains
  | .hasRow query _ => query.chains
  | .raw _ => []

def Cond.chainsAll : List Cond → List Chain
  | [] => []
  | cond :: rest => cond.chains ++ Cond.chainsAll rest

def Source.chainsAll : List Source → List Chain
  | [] => []
  | .table .. :: rest => Source.chainsAll rest
  | .joined _ _ _ on :: rest => on.chains ++ Source.chainsAll rest

def Projection.chainsAll : List Projection → List Chain
  | [] => []
  | ⟨expr, _⟩ :: rest => expr.chains ++ Projection.chainsAll rest

def OrderTerm.chainsAll : List OrderTerm → List Chain
  | [] => []
  | ⟨expr, _⟩ :: rest => expr.chains ++ OrderTerm.chainsAll rest

/-- The chains in a statement, at any depth; its conditions are one. -/
def Select.chains : Select → List Chain
  | ⟨sources, columns, _, conds, groupBy, order, _, _⟩ =>
    Projection.chainsAll columns ++ (Source.chainsAll sources ++ (chainOf .and conds ++
      (Cond.chainsAll conds ++ (Expr.chainsAll groupBy ++ OrderTerm.chainsAll order))))
end

theorem two_le_of_mem_chainOf {ch : Chain} {k : Connective} {conds : List Cond}
    (h : ch ∈ chainOf k conds) : ch = (k, conds) ∧ 2 ≤ conds.length := by
  unfold chainOf at h
  split at h
  · simp at h
  · exact ⟨by simpa using h, by omega⟩

/-- The operands of a chain are among the pieces, with the connective between them. -/
def Chain.Within (ch : Chain) (ps : List Piece) : Prop :=
  ∃ front lead back, ps = front ++ (Cond.operandPieces ch.1 ch.2 lead ++ back)

namespace Chain.Within

variable {ch : Chain} {ps : List Piece}

theorem append (h : Chain.Within ch ps) (qs : List Piece) : Chain.Within ch (ps ++ qs) := by
  obtain ⟨front, lead, back, rfl⟩ := h
  exact ⟨front, lead, back ++ qs, by simp only [List.append_assoc]⟩

theorem prepend (h : Chain.Within ch ps) (qs : List Piece) : Chain.Within ch (qs ++ ps) := by
  obtain ⟨front, lead, back, rfl⟩ := h
  exact ⟨qs ++ front, lead, back, by simp only [List.append_assoc]⟩

theorem cons (h : Chain.Within ch ps) (p : Piece) : Chain.Within ch (p :: ps) :=
  h.prepend [p]

theorem stopIf (h : Chain.Within ch ps) (refused : Bool) (fault : CompileFault) :
    Chain.Within ch (Piece.stopIf refused fault ps) := by
  cases refused with
  | false => exact h
  | true => exact h.cons _

theorem ofStart (h : Chain.Within ch ps) (sources : List Source) :
    Chain.Within ch (Piece.ofStart sources ps) := by
  match sources with
  | [] => exact h.cons _
  | .table .. :: _ => exact h
  | .joined .. :: _ => exact h.cons _

end Chain.Within

mutual
theorem Expr.chains_within {ch : Chain} : ∀ e : Expr, ch ∈ e.chains → Chain.Within ch e.pieces
  | .column _, h => by simp [Expr.chains] at h
  | .bound _, h => by simp [Expr.chains] at h
  | .raw _, h => by simp [Expr.chains] at h
  | .coalesce args, h => by
    have hargs := Expr.chainsAll_within args "" (by simpa only [Expr.chains] using h)
    exact ((hargs.append _).cons _).stopIf _ _
  | .case branches none, h => by
    have hbranches := Branch.chainsAll_within branches (by simpa [Expr.chains] using h)
    exact ((hbranches.append _).cons _).stopIf _ _
  | .case branches (some result), h => by
    simp only [Expr.chains, List.mem_append] at h
    obtain h | h := h
    · exact (((Branch.chainsAll_within branches h).append _).cons _).stopIf _ _
    · exact (((((Expr.chains_within result h).cons _).append _).prepend _).cons _).stopIf _ _
  | .call function args, h => by
    have hargs := Expr.chainsAll_within args "" (by simpa only [Expr.chains] using h)
    exact ((hargs.append _).cons _).cons _
  | .scalar query, h => by
    have hquery := Select.chains_within query (by simpa only [Expr.chains] using h)
    exact (hquery.append _).cons _

theorem Expr.chainsAll_within {ch : Chain} : ∀ (es : List Expr) (lead : String),
    ch ∈ Expr.chainsAll es → Chain.Within ch (Expr.piecesAll es lead)
  | [], _, h => by simp [Expr.chainsAll] at h
  | e :: rest, lead, h => by
    simp only [Expr.chainsAll, List.mem_append] at h
    obtain h | h := h
    · exact ((Expr.chains_within e h).append _).cons _
    · exact ((Expr.chainsAll_within rest ", " h).prepend _).cons _

theorem Branch.chainsAll_within {ch : Chain} : ∀ branches : List Branch,
    ch ∈ Branch.chainsAll branches → Chain.Within ch (Branch.piecesAll branches)
  | [], h => by simp [Branch.chainsAll] at h
  | ⟨test, result⟩ :: rest, h => by
    simp only [Branch.chainsAll, List.mem_append] at h
    obtain h | h | h := h
    · exact ((Cond.chains_within test h).append _).cons _
    · exact ((((Expr.chains_within result h).append _).cons _).prepend _).cons _
    · exact ((((Branch.chainsAll_within rest h).prepend _).cons _).prepend _).cons _

theorem Cond.chains_within {ch : Chain} : ∀ c : Cond, ch ∈ c.chains → Chain.Within ch c.pieces
  | .compare left comparison right, h => by
    simp only [Cond.chains, List.mem_append] at h
    obtain h | h := h
    · exact (Expr.chains_within left h).append _
    · exact ((Expr.chains_within right h).cons _).prepend _
  | .inList expr values negated, h => by
    simp only [Cond.chains, Cond.pieces] at h ⊢
    split at h
    · simp at h
    next hvalues =>
      rw [if_neg hvalues]
      obtain h | h := List.mem_append.1 h
      · exact (Expr.chains_within expr h).append _
      · exact (((Expr.chainsAll_within values "" h).append _).cons _).prepend _
  | .inQuery expr query negated, h => by
    simp only [Cond.chains, List.mem_append] at h
    obtain h | h := h
    · exact (Expr.chains_within expr h).append _
    · exact (((Select.chains_within query h).append _).cons _).prepend _
  | .between expr low high negated, h => by
    simp only [Cond.chains, List.mem_append] at h
    obtain h | h | h := h
    · exact (Expr.chains_within expr h).append _
    · exact (((Expr.chains_within low h).append _).cons _).prepend _
    · exact ((((Expr.chains_within high h).cons _).prepend _).cons _).prepend _
  | .isNull expr negated, h => by
    have hexpr := Expr.chains_within expr (by simpa only [Cond.chains] using h)
    exact hexpr.append _
  | .group _ [], h => by simp [Cond.chains, chainOf, Cond.chainsAll] at h
  | .group k [cond], h => by
    exact Cond.chains_within cond (by simpa [Cond.chains, chainOf, Cond.chainsAll] using h)
  | .group k (first :: second :: rest), h => by
    simp only [Cond.chains, List.mem_append] at h
    obtain h | h := h
    · obtain ⟨rfl, -⟩ := two_le_of_mem_chainOf h
      exact ⟨[], "(", [text ")"], rfl⟩
    · exact (Cond.chainsAll_within k (first :: second :: rest) "(" h).append _
  | .not cond, h => by
    have hcond := Cond.chains_within cond (by simpa only [Cond.chains] using h)
    exact (hcond.append _).cons _
  | .hasRow query negated, h => by
    have hquery := Select.chains_within query (by simpa only [Cond.chains] using h)
    exact (hquery.append _).cons _
  | .raw _, h => by simp [Cond.chains] at h

theorem Cond.chainsAll_within {ch : Chain} (k : Connective) : ∀ (conds : List Cond) (lead : String),
    ch ∈ Cond.chainsAll conds → Chain.Within ch (Cond.operandPieces k conds lead)
  | [], _, h => by simp [Cond.chainsAll] at h
  | cond :: rest, lead, h => by
    simp only [Cond.chainsAll, List.mem_append] at h
    obtain h | h := h
    · have hcond := Cond.chains_within cond h
      cases hraw : cond.rawText? with
      | none =>
        simp only [Cond.operandPieces, hraw]
        exact (hcond.append _).cons _
      | some t =>
        rw [Cond.eq_raw_of_rawText hraw] at h
        simp [Cond.chains] at h
    · exact ((Cond.chainsAll_within k rest k.separator h).prepend _).cons _

theorem Source.chainsAll_within {ch : Chain} : ∀ (sources : List Source) (lead : String),
    ch ∈ Source.chainsAll sources → Chain.Within ch (Source.piecesAll sources lead)
  | [], _, h => by simp [Source.chainsAll] at h
  | .table name label :: rest, lead, h => by
    have hrest := Source.chainsAll_within rest ", " (by simpa only [Source.chainsAll] using h)
    exact (hrest.prepend _).cons _
  | .joined join name label on :: rest, lead, h => by
    simp only [Source.chainsAll, List.mem_append] at h
    obtain h | h := h
    · exact ((((Cond.chains_within on h).append _).cons _).prepend _).cons _
    · exact ((((Source.chainsAll_within rest ", " h).prepend _).cons _).prepend _).cons _

theorem Projection.chainsAll_within {ch : Chain} : ∀ (columns : List Projection) (lead : String),
    ch ∈ Projection.chainsAll columns → Chain.Within ch (Projection.piecesAll columns lead)
  | [], _, h => by simp [Projection.chainsAll] at h
  | ⟨expr, label⟩ :: rest, lead, h => by
    simp only [Projection.chainsAll, List.mem_append] at h
    obtain h | h := h
    · exact ((Expr.chains_within expr h).append _).cons _
    · exact (((Projection.chainsAll_within rest ", " h).prepend _).prepend _).cons _

theorem OrderTerm.chainsAll_within {ch : Chain} : ∀ (terms : List OrderTerm) (lead : String),
    ch ∈ OrderTerm.chainsAll terms → Chain.Within ch (OrderTerm.piecesAll terms lead)
  | [], _, h => by simp [OrderTerm.chainsAll] at h
  | ⟨expr, direction⟩ :: rest, lead, h => by
    simp only [OrderTerm.chainsAll, List.mem_append] at h
    obtain h | h := h
    · exact ((Expr.chains_within expr h).append _).cons _
    · exact (((OrderTerm.chainsAll_within rest ", " h).cons _).prepend _).cons _

/-- The operands of each chain in a statement are written in a row. -/
theorem Select.chains_within {ch : Chain} : ∀ s : Select, ch ∈ s.chains → Chain.Within ch s.pieces
  | ⟨sources, columns, distinct, conds, groupBy, order, limit, offset⟩, h => by
    have hconds : ch ∈ chainOf .and conds ++ Cond.chainsAll conds →
        Chain.Within ch (Cond.wherePieces conds) := by
      intro h
      match conds, h with
      | [], h => simp [chainOf, Cond.chainsAll] at h
      | [cond], h =>
        have hcond := Cond.chains_within cond (by simpa [chainOf, Cond.chainsAll] using h)
        exact hcond.cons _
      | first :: second :: rest, h =>
        obtain h | h := List.mem_append.1 h
        · obtain ⟨rfl, -⟩ := two_le_of_mem_chainOf h
          exact ⟨[], " WHERE ", [], by simp [Cond.wherePieces]⟩
        · exact Cond.chainsAll_within .and (first :: second :: rest) " WHERE " h
    rw [Select.pieces_eq]
    rw [Select.chains] at h
    -- clause by clause: the chain is in this one, or the clause stands before it
    refine Chain.Within.ofStart ?_ sources
    refine Chain.Within.cons (Chain.Within.cons ?_ _) _
    obtain h | h := List.mem_append.1 h
    · exact (Projection.chainsAll_within columns "" h).append _
    refine Chain.Within.prepend (Chain.Within.cons ?_ _) _
    obtain h | h := List.mem_append.1 h
    · exact (Source.chainsAll_within sources "" h).append _
    refine Chain.Within.prepend ?_ _
    rw [← List.append_assoc] at h
    obtain h | h := List.mem_append.1 h
    · exact (hconds h).append _
    refine Chain.Within.prepend ?_ _
    obtain h | h := List.mem_append.1 h
    · exact (Expr.chainsAll_within groupBy " GROUP BY " h).append _
    · exact ((OrderTerm.chainsAll_within order " ORDER BY " h).append _).prepend _
end

end NamedQuery.Sql
