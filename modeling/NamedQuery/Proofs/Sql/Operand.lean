import NamedQuery.Proofs.Sql.Outline
import NamedQuery.Proofs.Sql.Tokens

namespace NamedQuery.Sql

/-- Whether a segment of a name is a word that tells where operands start and end. -/
def isReserved (segment : String) : Bool :=
  Lexeme.reserved.any (Lexeme.word segment.toList).is

/-- Inside a bracket, tokens that close no more than they open are part of the operand. -/
theorem Outline.symbols_of_nest {xs : List Lexeme} {d d' : Nat}
    (h : xs.foldlM Lexeme.nest d = some d') (ts : List Lexeme) (range : Bool)
    (rest : List Lexeme) :
    (Outline.operand ts (d + 1) range).symbols (xs.filter (· != .mark ' ') ++ rest) =
      (Outline.operand (ts ++ xs.filter (· != .mark ' ')) (d' + 1) range).symbols rest := by
  -- the reader counts brackets as `nest` does, with one more open around them
  induction xs generalizing d ts with
  | nil =>
    obtain rfl := Option.some.inj h
    simp
  | cons x xs ih =>
    rw [List.foldlM_cons] at h
    obtain ⟨e, he, hrest⟩ := Option.bind_eq_some_iff.1 h
    by_cases hblank : x = .mark ' '
    · subst hblank
      obtain rfl : d = e := Option.some.inj he
      simpa using ih hrest ts
    · have hstep : (Outline.operand ts (d + 1) range).step x =
          ([], .operand (ts ++ [x]) (e + 1) range) := by
        unfold Lexeme.nest at he
        rw [Outline.step]
        split_ifs at he with hopens hcloses
        · obtain rfl := Option.some.inj he
          rw [if_pos hopens]
        · cases d with
          | zero => simp at he
          | succ d =>
            obtain rfl := Option.some.inj he
            rw [if_neg hopens, if_pos hcloses]
        · obtain rfl := Option.some.inj he
          rw [if_neg hopens, if_neg hcloses]
      have hmore := ih hrest (ts ++ [x])
      have hkeep : (x :: xs).filter (· != .mark ' ') = x :: xs.filter (· != .mark ' ') := by
        simp [hblank]
      rw [hkeep, List.cons_append, Outline.symbols, hstep, hmore, List.append_assoc]
      rfl

namespace Piece

/-- The tokens of pieces, without the blanks between them. -/
def tokensAll (bound : Nat) (ps : List Piece) : List Lexeme :=
  (lexemesAll bound ps).filter (· != .mark ' ')

theorem tokensAll_append (bound : Nat) (ps qs : List Piece) : tokensAll bound (ps ++ qs) =
    tokensAll bound ps ++ tokensAll (bound + (values ps).length) qs := by
  rw [tokensAll, lexemesAll_append, List.filter_append]
  rfl

theorem tokensAll_text (bound : Nat) (t : String) (ps : List Piece) :
    tokensAll bound (text t :: ps) = tokens t.toList ++ tokensAll bound ps := by
  rw [tokensAll, lexemesAll, List.filter_append]
  rfl

/-- Whether a piece is neither text of the caller's own nor a reserved word for a name. -/
def isQuiet : Piece → Bool
  | raw _ => false
  | ident segment _ => !isReserved segment
  | _ => true

/-- Pieces that can be written, and whose tokens can be told apart when read. -/
def Legible (ps : List Piece) : Prop :=
  ∀ p ∈ ps, p.fault? = none ∧ p.isQuiet

theorem Legible.sound {ps : List Piece} (h : Legible ps) : Sound ps :=
  fun p hp => (h p hp).1

@[simp] theorem legible_cons (p : Piece) (ps : List Piece) :
    Legible (p :: ps) ↔ (p.fault? = none ∧ p.isQuiet) ∧ Legible ps :=
  List.forall_mem_cons

@[simp] theorem legible_append (ps qs : List Piece) :
    Legible (ps ++ qs) ↔ Legible ps ∧ Legible qs :=
  List.forall_mem_append

theorem Legible.of_stopIf {refused : Bool} {fault : CompileFault} {ps : List Piece}
    (h : Legible (stopIf refused fault ps)) : refused = false ∧ Legible ps := by
  cases refused with
  | false => exact ⟨rfl, h⟩
  | true =>
    obtain ⟨⟨hfault, -⟩, -⟩ := (legible_cons _ _).1 h
    simp [fault?] at hfault

theorem Legible.of_ofStart {sources : List Source} {ps : List Piece}
    (h : Legible (ofStart sources ps)) : ofStart sources ps = ps ∧ Legible ps := by
  match sources, h with
  | .table .. :: _, h => exact ⟨rfl, h⟩
  | [], h | .joined .. :: _, h =>
    obtain ⟨⟨hfault, -⟩, -⟩ := (legible_cons _ _).1 h
    simp [fault?] at hfault

/-- The tokens of names, values and numbers are plain. -/
theorem plain_lexemes {p : Piece} (htext : p.isText = false) (hs : p.fault? = none)
    (hq : p.isQuiet) (bound : Nat) : ∀ x ∈ p.lexemes bound, x.isPlain := by
  cases p with
  | text => simp [isText] at htext
  | raw => simp [isQuiet] at hq
  | value param =>
    rw [(value_lexemes bound param).2]
    intro x hx
    obtain rfl := List.mem_singleton.1 hx
    rfl
  | ident segment column =>
    obtain ⟨hword, -⟩ | ⟨name, hquoted⟩ := (ident_lexemes hs bound).2
    · rw [hword]
      intro x hx
      obtain rfl := List.mem_singleton.1 hx
      simpa [Lexeme.isPlain, isQuiet, isReserved] using hq
    · rw [hquoted]
      intro x hx
      obtain rfl := List.mem_singleton.1 hx
      rfl
  | count n fault =>
    obtain ⟨digits, hall, hdigits⟩ := (count_lexemes hs bound).2
    rw [hdigits]
    intro x hx
    obtain ⟨c, hc, rfl⟩ := List.mem_map.1 hx
    have hdigit := hall c hc
    have hne : c ≠ '(' ∧ c ≠ ')' ∧ c ≠ ' ' := by
      refine ⟨?_, ?_, ?_⟩ <;> rintro rfl <;> simp at hdigit
    simpa [Lexeme.isPlain, Lexeme.is] using hne
  | stop => simp [fault?] at hs

theorem tokensAll_solid {p : Piece} (htext : p.isText = false) (hs : p.fault? = none)
    (hq : p.isQuiet) (bound : Nat) (ps : List Piece) : tokensAll bound (p :: ps) =
      p.lexemes bound ++ tokensAll (bound + (values [p]).length) ps := by
  have hplain := plain_lexemes htext hs hq bound
  have hkeep : (p.lexemes bound).filter (· != .mark ' ') = p.lexemes bound := by
    refine List.filter_eq_self.2 fun x hx => ?_
    have hx' := hplain x hx
    simp_all [Lexeme.isPlain]
  rw [tokensAll, lexemesAll, List.filter_append, hkeep]
  rfl

/-- What is laid out inside a bracket is part of the operand. -/
theorem symbols_laid {d : Nat} {ps : List Piece} (h : Laid d ps) (hps : Legible ps) (bound : Nat)
    (ts : List Lexeme) (range : Bool) (hts : ts = [] → range = false) (rest : List Lexeme) :
    (Outline.operand ts (d + 1) range).symbols (tokensAll bound ps ++ rest) =
      (Outline.operand (ts ++ tokensAll bound ps) 1 range).symbols rest := by
  induction h generalizing bound ts with
  | nil => simp [tokensAll, lexemesAll]
  | @loose t d d' more nests _ _ ih | @tight t d d' more nests _ _ ih =>
    have htext := Outline.symbols_of_nest (nesting_eq_some nests).2.2 ts range
      (tokensAll bound more ++ rest)
    have hmore := ih ((legible_cons _ _).1 hps).2 bound (ts ++ tokens t.toList)
      (fun hnil => hts (List.append_eq_nil_iff.1 hnil).1)
    rw [tokensAll_text, List.append_assoc, ← List.append_assoc ts, ← hmore]
    exact htext
  | @solid p d more htext _ _ ih =>
    obtain ⟨⟨hs, hq⟩, hlegible⟩ := (legible_cons _ _).1 hps
    have hp : Inner (d + 1) (p.lexemes bound) := .of_plain (plain_lexemes htext hs hq bound)
    have hmore := ih hlegible (bound + (values [p]).length) (ts ++ p.lexemes bound)
      (fun hnil => hts (List.append_eq_nil_iff.1 hnil).1)
    rw [tokensAll_solid htext hs hq, List.append_assoc, hp ts range hts, hmore,
      List.append_assoc]
  | stop _ ih =>
    obtain ⟨⟨hfault, -⟩, -⟩ := (legible_cons _ _).1 hps
    simp [fault?] at hfault

theorem inner_of_laid {ps : List Piece} (h : Laid 0 ps) (hps : Legible ps) (bound : Nat) :
    Inner 1 (tokensAll bound ps) :=
  fun ts range hts rest => symbols_laid h hps bound ts range hts rest

theorem ident_token {segment : String} {column : Option ColumnRef}
    (h : (ident segment column).fault? = none ∧ (ident segment column).isQuiet) (bound : Nat) :
    ∃ x, x.isPlain ∧ (ident segment column).lexemes bound = [x] := by
  have hplain := plain_lexemes rfl h.1 h.2 bound
  obtain ⟨hword, -⟩ | ⟨name, hquoted⟩ := (ident_lexemes h.1 bound).2
  · exact ⟨_, hplain _ (hword ▸ .head _), hword⟩
  · exact ⟨_, hplain _ (hquoted ▸ .head _), hquoted⟩

theorem tokensAll_enclosed (bound : Nat) (ps : List Piece) :
    tokensAll bound (ps ++ [text ")"]) = tokensAll bound ps ++ [.mark ')'] := by
  rw [tokensAll_append, tokensAll_text]
  rfl

end Piece

open Piece

/-- Tokens that do not start with the word that a subquery starts with. -/
def Opens (xs : List Lexeme) : Prop :=
  ∃ x rest, xs = x :: rest ∧ x.is "SELECT" = false

theorem Opens.append {xs : List Lexeme} (h : Opens xs) (ys : List Lexeme) : Opens (xs ++ ys) := by
  obtain ⟨x, rest, rfl, hx⟩ := h
  exact ⟨x, rest ++ ys, rfl, hx⟩

theorem Lexeme.not_select_of_isPlain {x : Lexeme} (h : x.isPlain) : x.is "SELECT" = false := by
  simp_all [Lexeme.isPlain, Lexeme.reserved]

theorem Select.tokens_eq {s : Select} (h : Legible s.pieces) (bound : Nat) :
    ∃ more, tokensAll bound s.pieces = .word "SELECT".toList :: more := by
  rw [Select.pieces_eq] at h ⊢
  obtain ⟨heq, -⟩ := h.of_ofStart
  rw [heq, tokensAll_text]
  split <;> exact ⟨_, rfl⟩

theorem Select.inner {s : Select} (h : Legible s.pieces) (bound : Nat) :
    Inner 1 (tokensAll bound s.pieces) :=
  inner_of_laid s.laid_pieces h bound

theorem Expr.innerAll {es : List Expr} (h : Legible (Expr.piecesAll es "")) (bound : Nat) :
    Inner 1 (tokensAll bound (Expr.piecesAll es "")) := by
  have hlaid : Laid 0 (Expr.piecesAll es "" ++ []) := Expr.laidAll es rfl rfl Follows.nil
  rw [List.append_nil] at hlaid
  exact inner_of_laid hlaid h bound

theorem ColumnRef.name_token {c : ColumnRef} (bound : Nat)
    (h : Legible [if c.isWildcard then text "*" else ident c.name (some c)]) : ∃ x, x.isPlain ∧
      tokensAll bound [if c.isWildcard then text "*" else ident c.name (some c)] = [x] := by
  split at h
  · rw [if_pos ‹_›]
    exact ⟨.mark '*', rfl, rfl⟩
  · rw [if_neg ‹_›]
    obtain ⟨hident, -⟩ := (legible_cons _ _).1 h
    obtain ⟨x, hx, hlexeme⟩ := ident_token hident bound
    refine ⟨x, hx, ?_⟩
    rw [tokensAll_solid rfl hident.1 hident.2, hlexeme]
    rfl

theorem ColumnRef.inner {c : ColumnRef} (h : Legible (ofColumn c)) (bound : Nat) :
    Inner 0 (tokensAll bound (ofColumn c)) ∧ Opens (tokensAll bound (ofColumn c)) := by
  obtain ⟨table, name⟩ := c
  cases table with
  | none =>
    obtain ⟨x, hx, htokens⟩ := ColumnRef.name_token bound h
    rw [ofColumn, List.nil_append, htokens]
    exact ⟨.plain hx, x, [], rfl, Lexeme.not_select_of_isPlain hx⟩
  | some table =>
    obtain ⟨htable, hrest⟩ := (legible_cons _ _).1 h
    obtain ⟨x, hx, htokens⟩ := ColumnRef.name_token bound ((legible_cons _ _).1 hrest).2
    obtain ⟨y, hy, hlexeme⟩ := ident_token htable bound
    have hall : tokensAll bound (ofColumn ⟨some table, name⟩) = [y, .mark '.', x] := by
      rw [ofColumn, List.cons_append, tokensAll_solid rfl htable.1 htable.2, hlexeme,
        List.singleton_append, List.singleton_append, tokensAll_text]
      exact congrArg (fun zs => y :: .mark '.' :: zs) htokens
    rw [hall]
    exact ⟨(Inner.plain hy).append ((Inner.plain (x := .mark '.') rfl).append (.plain hx)), y, _,
      rfl, Lexeme.not_select_of_isPlain hy⟩

/-- The pieces between `CASE` and `END`. -/
def Branch.casePieces (branches : List Branch) (otherwise : Option Expr) : List Piece :=
  Branch.piecesAll branches ++
    match otherwise with
    | none => []
    | some result => text " ELSE " :: result.pieces

theorem Branch.case_pieces (branches : List Branch) (otherwise : Option Expr) :
    (Expr.case branches otherwise).pieces = stopIf branches.isEmpty .emptyCase
      (text "CASE" :: (Branch.casePieces branches otherwise ++ [text " END"])) := by
  cases otherwise <;> simp [Expr.pieces, Branch.casePieces]

theorem Branch.inner {branches : List Branch} {otherwise : Option Expr}
    (h : Legible (Branch.casePieces branches otherwise)) (bound : Nat) :
    Inner 1 (tokensAll bound (Branch.casePieces branches otherwise)) := by
  refine inner_of_laid ?_ h bound
  cases otherwise with
  | none => exact Branch.laidAll branches Follows.nil
  | some result =>
    have hresult : Laid 0 (result.pieces ++ []) := result.laid Follows.nil
    rw [List.append_nil] at hresult
    exact Branch.laidAll branches (.loose rfl rfl rfl hresult)

/-- An expression is part of an operand, and can start one. -/
theorem Expr.inner : ∀ {e : Expr}, Legible e.pieces → ∀ n,
    Inner 0 (tokensAll n e.pieces) ∧ Opens (tokensAll n e.pieces)
  | .column c, h, n => ColumnRef.inner h n
  | .bound param, h, n => by
    have htokens : tokensAll n (Expr.bound param).pieces =
        [.placeholder (toString (n + 1)).toList] := by
      rw [Expr.pieces, tokensAll_solid rfl rfl rfl, (value_lexemes n param).2]
      rfl
    rw [htokens]
    exact ⟨.plain rfl, _, [], rfl, rfl⟩
  | .raw t, h, _ => by
    obtain ⟨⟨-, hquiet⟩, -⟩ := (legible_cons _ _).1 h
    simp [isQuiet] at hquiet
  | .coalesce args, h, n => by
    rw [Expr.pieces] at h ⊢
    obtain ⟨hargs, h⟩ := h.of_stopIf
    have hinner := Expr.innerAll ((legible_append _ _).1 ((legible_cons _ _).1 h).2).1 n
    rw [hargs, stopIf, if_neg (by simp), tokensAll_text, tokensAll_enclosed]
    exact ⟨.call (x := .word "COALESCE".toList) rfl hinner, _, _, rfl, rfl⟩
  | .case branches otherwise, h, n => by
    rw [Branch.case_pieces] at h ⊢
    obtain ⟨hbranches, h⟩ := h.of_stopIf
    have hinner := Branch.inner ((legible_append _ _).1 ((legible_cons _ _).1 h).2).1 n
    rw [hbranches, stopIf, if_neg (by simp), tokensAll_text, tokensAll_append, tokensAll_text]
    exact ⟨.case hinner, _, _, rfl, rfl⟩
  | .call function args, h, n => by
    rw [Expr.pieces] at h ⊢
    obtain ⟨hname, h⟩ := (legible_cons _ _).1 h
    obtain ⟨-, h⟩ := (legible_cons _ _).1 h
    obtain ⟨x, hx, hlexeme⟩ := ident_token hname n
    have hinner := Expr.innerAll ((legible_append _ _).1 h).1 n
    rw [tokensAll_solid rfl hname.1 hname.2, hlexeme, tokensAll_text, tokensAll_enclosed]
    exact ⟨.call hx hinner, x, _, rfl, Lexeme.not_select_of_isPlain hx⟩
  | .scalar query, h, n => by
    rw [Expr.pieces] at h ⊢
    have hquery := ((legible_append _ _).1 ((legible_cons _ _).1 h).2).1
    have hinner := Select.inner hquery n
    obtain ⟨more, hmore⟩ := Select.tokens_eq hquery n
    rw [hmore] at hinner
    rw [tokensAll_text, tokensAll_enclosed, hmore]
    exact ⟨.subquery hinner, .mark '(', _, rfl, rfl⟩

/-- Whether a condition is one operand in its text. -/
def Cond.isOperand : Cond → Bool
  | .compare .. | .inQuery .. | .between .. | .isNull .. => true
  | .inList _ values _ => !values.isEmpty
  | .hasRow _ negated => !negated
  | .group .. | .not _ | .raw _ => false

theorem Comparison.continues (comparison : Comparison) :
    Continues (tokens s!" {comparison.symbol} ".toList) := by
  cases comparison with
  | eq | gt | lt => exact .token rfl rfl rfl
  | ne | ge | le | notLike | notIlike => exact .append (.token rfl rfl rfl) (.token rfl rfl rfl)
  | like | ilike => exact .token rfl rfl rfl

theorem not_continues : Continues [.word "NOT".toList] :=
  .token rfl rfl rfl

/-- The tokens of `IN` and of what it opens. -/
theorem continues_in (negated : Bool) {xs : List Lexeme} (h : Inner 1 xs) :
    Continues (tokens (negatable negated "IN" ++ "(").toList ++ (xs ++ [.mark ')'])) := by
  have hin : Continues ([.word "IN".toList] ++ .mark '(' :: (xs ++ [.mark ')'])) :=
    .append (.token rfl rfl rfl) (.enclosed h)
  have hnot := Continues.append not_continues hin
  cases negated with
  | false => exact hin
  | true => exact hnot

theorem continues_between (negated : Bool) {low high : List Lexeme} (hlow : Inner 0 low)
    (hhigh : Inner 0 high) : Continues (tokens (negatable negated "BETWEEN").toList ++
      (low ++ .word "AND".toList :: high)) := by
  have hbetween := Continues.between hlow hhigh
  have hnot := Continues.append not_continues hbetween
  cases negated with
  | false => exact hbetween
  | true => exact hnot

theorem continues_null (negated : Bool) :
    Continues (tokens (if negated then " IS NOT NULL" else " IS NULL").toList) := by
  cases negated with
  | false => exact .append (.token (x := .word "IS".toList) rfl rfl rfl) (.token rfl rfl rfl)
  | true =>
    exact .append (.token (x := .word "IS".toList) rfl rfl rfl)
      (not_continues.append (.token rfl rfl rfl))

/-- An expression and what an operand goes on with are an operand. -/
theorem Expr.isOperand_append {e : Expr} (h : Legible e.pieces) (n : Nat) {xs : List Lexeme}
    (hxs : Continues xs) :
    IsOperand (tokensAll n e.pieces ++ xs) ∧ Opens (tokensAll n e.pieces ++ xs) := by
  obtain ⟨hinner, hopens⟩ := Expr.inner h n
  have hne : tokensAll n e.pieces ≠ [] := by
    obtain ⟨x, rest, heq, -⟩ := hopens
    simp [heq]
  exact ⟨(hinner.isOperand hne).append hxs, hopens.append xs⟩

/-- A condition without connectives, negation and truth values is one operand in its text. -/
theorem Cond.isOperand_tokens : ∀ {c : Cond}, c.isOperand → Legible c.pieces → ∀ n,
    IsOperand (tokensAll n c.pieces) ∧ Opens (tokensAll n c.pieces)
  | .compare left comparison right, _, h, n => by
    rw [Cond.pieces, legible_append, legible_cons] at h
    obtain ⟨hleft, -, hright⟩ := h
    rw [Cond.pieces, tokensAll_append, tokensAll_text]
    exact Expr.isOperand_append hleft n
      (comparison.continues.append (Expr.inner hright _).1.continues)
  | .inList expr values negated, hc, h, n => by
    have hvalues : values.isEmpty = false := by simpa [Cond.isOperand] using hc
    simp only [Cond.pieces, hvalues, Bool.false_eq_true, if_false, legible_append,
      legible_cons] at h ⊢
    obtain ⟨hexpr, -, hall, -⟩ := h
    rw [tokensAll_append, tokensAll_text, tokensAll_enclosed]
    exact Expr.isOperand_append hexpr n (continues_in negated (Expr.innerAll hall _))
  | .inQuery expr query negated, _, h, n => by
    simp only [Cond.pieces, legible_append, legible_cons] at h ⊢
    obtain ⟨hexpr, -, hquery, -⟩ := h
    rw [tokensAll_append, tokensAll_text, tokensAll_enclosed]
    exact Expr.isOperand_append hexpr n (continues_in negated (Select.inner hquery _))
  | .between expr low high negated, _, h, n => by
    simp only [Cond.pieces, legible_append, legible_cons] at h ⊢
    obtain ⟨hexpr, -, hlow, -, hhigh⟩ := h
    rw [tokensAll_append, tokensAll_text, tokensAll_append, tokensAll_text]
    exact Expr.isOperand_append hexpr n
      (continues_between negated (Expr.inner hlow _).1 (Expr.inner hhigh _).1)
  | .isNull expr negated, _, h, n => by
    simp only [Cond.pieces, legible_append, legible_cons] at h ⊢
    rw [tokensAll_append, tokensAll_text]
    exact Expr.isOperand_append h.1 n ((continues_null negated).append Inner.nil.continues)
  | .hasRow query false, _, h, n => by
    simp only [Cond.pieces, legible_append, legible_cons] at h ⊢
    obtain ⟨-, hquery, -⟩ := h
    have hinner := Select.inner hquery n
    rw [tokensAll_text, tokensAll_enclosed]
    have hcall : Inner 0 (.word "EXISTS".toList :: .mark '(' ::
        (tokensAll n query.pieces ++ [.mark ')'])) := .call rfl hinner
    exact ⟨hcall.isOperand (by simp), _, _, rfl, rfl⟩

end NamedQuery.Sql
