import NamedQuery.Proofs.Sql.Formula
import NamedQuery.Proofs.Sql.Layout

namespace NamedQuery.Sql

/-- How far the operands in the text of a condition are made out. -/
inductive Outline where
  /-- Behind a parenthesis, which encloses a subquery or conditions. -/
  | parenthesis
  /-- The tokens of an operand, the brackets open in it, and whether a `BETWEEN` in it awaits its
  `AND`. -/
  | operand (tokens : List Lexeme) (depth : Nat) (range : Bool)

namespace Lexeme

/-- The symbol of a token that no operand goes on with. -/
def ending? (range : Bool) (x : Lexeme) : Option Symbol :=
  if x.is "AND" then if range then none else some (.join .and)
  else if x.is "OR" then some (.join .or)
  else if x == mark ')' then some .closing
  else none

/-- The words that tell where operands start and end. -/
def reserved : List String :=
  ["AND", "OR", "NOT", "TRUE", "FALSE", "BETWEEN", "CASE", "END", "SELECT"]

/-- Tokens that are part of an operand wherever they stand. -/
def isPlain (x : Lexeme) : Bool :=
  !reserved.any x.is && !([mark '(', mark ')', mark ' '].contains x)

end Lexeme

namespace Outline

def idle : Outline :=
  operand [] 0 false

def finish : Outline → List Symbol
  | parenthesis => [.opening]
  | operand [] _ _ => []
  | operand tokens _ _ => [.operand tokens]

/-- Reads a token where an operand can start. -/
def start (x : Lexeme) : List Symbol × Outline :=
  match x.ending? false with
  | some s => ([s], idle)
  | none =>
    if x.is "NOT" then ([.not], idle)
    else if x.is "TRUE" then ([.constant true], idle)
    else if x.is "FALSE" then ([.constant false], idle)
    else if x == .mark '(' then ([], parenthesis)
    else ([], operand [x] (if x.opens then 1 else 0) false)

/-- Reads a token. Inside brackets every token is part of the operand. -/
def step : Outline → Lexeme → List Symbol × Outline
  | parenthesis, x =>
    if x.is "SELECT" then ([], operand [.mark '(', x] 1 false)
    else (.opening :: (start x).1, (start x).2)
  | operand [] 0 _, x => start x
  | operand tokens 0 range, x =>
    match x.ending? range with
    | some s => ([.operand tokens, s], idle)
    | none =>
      ([], operand (tokens ++ [x]) (if x.opens then 1 else 0)
        (if x.is "AND" then false else range || x.is "BETWEEN"))
  | operand tokens (depth + 1) range, x =>
    ([], operand (tokens ++ [x])
      (if x.opens then depth + 2 else if x.closes then depth else depth + 1) range)

def symbols : Outline → List Lexeme → List Symbol
  | s, [] => s.finish
  | s, x :: rest => (s.step x).1 ++ (s.step x).2.symbols rest

end Outline

/-- The tokens of a text, without the blanks between them. -/
def tokens (text : List Char) : List Lexeme :=
  (Scan.between.lexemes text).filter (· != .mark ' ')

/-- What the text of a condition says, by the rules of precedence. -/
def readCondition (text : String) : Option Formula :=
  (Reading.before []).formula? (Outline.idle.symbols (tokens text.toList))

example : readCondition "a = $1 OR NOT b = $2 AND c BETWEEN $3 AND $4" = some
    (.join .or (.operand (tokens "a = $1".toList))
      (.join .and (.not (.operand (tokens "b = $2".toList)))
        (.operand (tokens "c BETWEEN $3 AND $4".toList)))) := rfl

/-- Tokens that are part of an operand wherever they stand in it. -/
def Inner (depth : Nat) (xs : List Lexeme) : Prop :=
  ∀ ts range, (ts = [] → range = false) → ∀ rest,
    (Outline.operand ts depth range).symbols (xs ++ rest) =
      (Outline.operand (ts ++ xs) depth range).symbols rest

namespace Inner

variable {depth : Nat}

theorem nil : Inner depth [] := by
  intro ts range _ rest
  rw [List.nil_append, List.append_nil]

theorem append {xs ys : List Lexeme} (hx : Inner depth xs) (hy : Inner depth ys) :
    Inner depth (xs ++ ys) := by
  intro ts range hrange rest
  rw [List.append_assoc, hx ts range hrange, hy (ts ++ xs) range, List.append_assoc]
  intro hnil
  exact hrange (List.append_eq_nil_iff.1 hnil).1

theorem plain {x : Lexeme} (h : x.isPlain) : Inner depth [x] := by
  intro ts range hrange rest
  have hstep : (Outline.operand ts depth range).step x =
      ([], .operand (ts ++ [x]) depth range) := by
    have hwords : x.is "AND" = false ∧ x.is "OR" = false ∧ x.is "NOT" = false ∧
        x.is "TRUE" = false ∧ x.is "FALSE" = false ∧ x.is "BETWEEN" = false ∧
        x.is "CASE" = false ∧ x.is "END" = false ∧ (x == .mark '(') = false ∧
        (x == .mark ')') = false := by
      simp_all [Lexeme.isPlain, Lexeme.reserved]
    obtain ⟨hand, hor, hnot, htrue, hfalse, hbetween, hcase, hend, hopen, hclose⟩ := hwords
    cases depth with
    | zero =>
      cases ts with
      -- the token starts the operand
      | nil =>
        simp [Outline.step, Outline.start, Lexeme.ending?, Lexeme.opens, hrange rfl, *]
      | cons t ts =>
        simp [Outline.step, Lexeme.ending?, Lexeme.opens, *]
    | succ depth => simp [Outline.step, Lexeme.opens, Lexeme.closes, *]
  rw [List.singleton_append, Outline.symbols, hstep]
  rfl

theorem of_plain {xs : List Lexeme} (h : ∀ x ∈ xs, x.isPlain) : Inner depth xs := by
  induction xs with
  | nil => exact nil
  | cons x rest ih =>
    obtain ⟨hx, hrest⟩ := List.forall_mem_cons.1 h
    exact (plain hx).append (ih hrest)

end Inner

/-- Tokens that are an operand together. -/
structure IsOperand (xs : List Lexeme) : Prop where
  ne_nil : xs ≠ []
  read : ∀ rest, Outline.idle.symbols (xs ++ rest) =
    (Outline.operand xs 0 false).symbols rest

/-- Tokens that an operand can go on with. -/
def Continues (xs : List Lexeme) : Prop :=
  ∀ ts, ts ≠ [] → ∀ rest, (Outline.operand ts 0 false).symbols (xs ++ rest) =
    (Outline.operand (ts ++ xs) 0 false).symbols rest

theorem Inner.isOperand {xs : List Lexeme} (h : Inner 0 xs) (hne : xs ≠ []) : IsOperand xs :=
  ⟨hne, h [] false fun _ => rfl⟩

theorem Inner.continues {xs : List Lexeme} (h : Inner 0 xs) : Continues xs :=
  fun ts _ => h ts false fun _ => rfl

theorem Continues.append {xs ys : List Lexeme} (hx : Continues xs) (hy : Continues ys) :
    Continues (xs ++ ys) := by
  intro ts hne rest
  have hne' : ts ++ xs ≠ [] := fun hnil => hne (List.append_eq_nil_iff.1 hnil).1
  rw [List.append_assoc, hx ts hne, hy (ts ++ xs) hne', List.append_assoc]

/-- Behind the start of an operand, `NOT` and the truth values are part of it. -/
theorem Continues.token {x : Lexeme} (hending : x.ending? false = none) (hopens : x.opens = false)
    (hbetween : x.is "BETWEEN" = false) : Continues [x] := by
  intro ts hne rest
  obtain ⟨t, ts, rfl⟩ := List.exists_cons_of_ne_nil hne
  simp [Outline.symbols, Outline.step, hending, hopens, hbetween]

/-- From inside a bracket, its content and the end of it lead out. -/
theorem Inner.symbols_close {xs : List Lexeme} (h : Inner 1 xs) {x : Lexeme}
    (hopens : x.opens = false) (hcloses : x.closes) (ts : List Lexeme) (hne : ts ≠ [])
    (range : Bool) (rest : List Lexeme) :
    (Outline.operand ts 1 range).symbols (xs ++ x :: rest) =
      (Outline.operand (ts ++ (xs ++ [x])) 0 range).symbols rest := by
  have hclose : (Outline.operand (ts ++ xs) 1 range).step x =
      ([], .operand (ts ++ xs ++ [x]) 0 range) := by
    rw [Outline.step, hopens, hcloses]
    rfl
  rw [h ts range (fun hnil => absurd hnil hne), Outline.symbols, hclose, List.append_assoc]
  rfl

theorem Continues.enclosed {xs : List Lexeme} (h : Inner 1 xs) :
    Continues (.mark '(' :: (xs ++ [.mark ')'])) := by
  intro ts hne rest
  obtain ⟨t, ts, rfl⟩ := List.exists_cons_of_ne_nil hne
  have hopen : (Outline.operand (t :: ts) 0 false).step (.mark '(') =
      ([], .operand (t :: ts ++ [.mark '(']) 1 false) := rfl
  have hclose := h.symbols_close (x := .mark ')') rfl rfl (t :: ts ++ [.mark '(']) (by simp)
    false rest
  rw [List.cons_append, Outline.symbols, hopen, List.append_assoc, List.singleton_append]
  simpa using hclose

/-- The `AND` of a `BETWEEN` does not end the operand. -/
theorem Continues.between {low high : List Lexeme} (hlow : Inner 0 low) (hhigh : Inner 0 high) :
    Continues (.word "BETWEEN".toList :: (low ++ .word "AND".toList :: high)) := by
  intro ts hne rest
  obtain ⟨t, ts, rfl⟩ := List.exists_cons_of_ne_nil hne
  have hbetween : (Outline.operand (t :: ts) 0 false).step (.word "BETWEEN".toList) =
      ([], .operand (t :: ts ++ [.word "BETWEEN".toList]) 0 true) := rfl
  have hand (u : Lexeme) (us : List Lexeme) :
      (Outline.operand (u :: us) 0 true).step (.word "AND".toList) =
        ([], .operand (u :: us ++ [.word "AND".toList]) 0 false) := rfl
  rw [List.cons_append, Outline.symbols, hbetween, List.append_assoc]
  -- the range is open up to the `AND`, and closed behind it
  simp only [hlow (t :: ts ++ [.word "BETWEEN".toList]) true (by simp)]
  simp only [List.cons_append, List.nil_append, Outline.symbols, hand]
  simp only [hhigh _ false (fun _ => rfl)]
  simp

theorem IsOperand.append {xs ys : List Lexeme} (hx : IsOperand xs) (hy : Continues ys) :
    IsOperand (xs ++ ys) := by
  refine ⟨fun hnil => hx.ne_nil (List.append_eq_nil_iff.1 hnil).1, fun rest => ?_⟩
  rw [List.append_assoc, hx.read, hy xs hx.ne_nil]

theorem Inner.case {xs : List Lexeme} (h : Inner 1 xs) :
    Inner 0 (.word "CASE".toList :: (xs ++ [.word "END".toList])) := by
  intro ts range hrange rest
  have hopen : (Outline.operand ts 0 range).step (.word "CASE".toList) =
      ([], .operand (ts ++ [.word "CASE".toList]) 1 range) := by
    cases ts with
    | nil =>
      rw [hrange rfl]
      rfl
    | cons => cases range <;> rfl
  have hclose := h.symbols_close (x := .word "END".toList) rfl rfl
    (ts ++ [.word "CASE".toList]) (by simp) range rest
  rw [List.cons_append, Outline.symbols, hopen, List.append_assoc, List.singleton_append]
  simpa only [List.append_assoc, List.singleton_append, List.nil_append] using hclose

/-- A parenthesis that a subquery follows is part of an operand. -/
theorem Inner.subquery {xs : List Lexeme} (h : Inner 1 (.word "SELECT".toList :: xs)) :
    Inner 0 (.mark '(' :: (.word "SELECT".toList :: xs ++ [.mark ')'])) := by
  intro ts range hrange rest
  have hopen (more : List Lexeme) :
      (Outline.operand ts 0 range).symbols (.mark '(' :: .word "SELECT".toList :: more) =
        (Outline.operand (ts ++ [.mark '(']) 1 range).symbols (.word "SELECT".toList :: more) := by
    cases ts with
    | nil =>
      rw [hrange rfl]
      rfl
    | cons => cases range <;> rfl
  have hclose := h.symbols_close (x := .mark ')') rfl rfl (ts ++ [.mark '(']) (by simp) range rest
  simp only [List.cons_append, List.append_assoc, List.nil_append] at hclose ⊢
  rw [hopen, hclose]

/-- A name with arguments. -/
theorem Inner.call {x : Lexeme} {xs : List Lexeme} (hx : x.isPlain) (h : Inner 1 xs) :
    Inner 0 (x :: .mark '(' :: (xs ++ [.mark ')'])) := by
  intro ts range hrange rest
  have hplain : Inner 0 [x] := .plain hx
  have hname := hplain ts range hrange (.mark '(' :: (xs ++ .mark ')' :: rest))
  have hopen (more : List Lexeme) :
      (Outline.operand (ts ++ [x]) 0 range).symbols (.mark '(' :: more) =
        (Outline.operand (ts ++ [x, .mark '(']) 1 range).symbols more := by
    cases ts <;> cases range <;> simp [Outline.symbols, Outline.step, Lexeme.ending?, Lexeme.is,
      Lexeme.opens]
  have hclose := h.symbols_close (x := .mark ')') rfl rfl (ts ++ [x, .mark '(']) (by simp) range
    rest
  simp only [List.cons_append, List.append_assoc, List.nil_append] at hname hclose ⊢
  rw [hname, hopen, hclose]

/-- Tokens that make out the symbols, up to an operand that may be left open. -/
def Outlined (xs : List Lexeme) (ss : List Symbol) : Prop :=
  ∃ done last, ss = done ++ (Outline.operand last 0 false).finish ∧
    ∀ rest, Outline.idle.symbols (xs ++ rest) =
      done ++ (Outline.operand last 0 false).symbols rest

theorem Outline.symbols_ending {x : Lexeme} {s : Symbol} (h : x.ending? false = some s)
    (ts rest : List Lexeme) : (Outline.operand ts 0 false).symbols (x :: rest) =
      (Outline.operand ts 0 false).finish ++ s :: Outline.idle.symbols rest := by
  cases ts <;> simp [Outline.symbols, Outline.step, Outline.start, Outline.finish, h]

namespace Outlined

variable {xs ys : List Lexeme} {ss ts : List Symbol}

theorem symbols_eq (h : Outlined xs ss) : Outline.idle.symbols xs = ss := by
  obtain ⟨done, last, rfl, hread⟩ := h
  simpa [Outline.symbols] using hread []

/-- Behind the symbols an operand ends, and another can start. -/
theorem ending (h : Outlined xs ss) {x : Lexeme} {s : Symbol} (hx : x.ending? false = some s)
    (rest : List Lexeme) :
    Outline.idle.symbols (xs ++ x :: rest) = ss ++ s :: Outline.idle.symbols rest := by
  obtain ⟨done, last, rfl, hread⟩ := h
  rw [hread, Outline.symbols_ending hx, List.append_assoc]

theorem operand (h : IsOperand xs) : Outlined xs [.operand xs] := by
  refine ⟨[], xs, ?_, h.read⟩
  cases xs with
  | nil => exact absurd rfl h.ne_nil
  | cons => rfl

theorem constant {x : Lexeme} {value : Bool} (hx : Outline.start x = ([.constant value], .idle)) :
    Outlined [x] [.constant value] := by
  refine ⟨[.constant value], [], rfl, fun rest => ?_⟩
  rw [List.singleton_append, Outline.symbols, Outline.idle, Outline.step, hx]
  rfl

theorem not (h : Outlined xs ss) {x : Lexeme} (hx : Outline.start x = ([.not], .idle)) :
    Outlined (x :: xs) (.not :: ss) := by
  obtain ⟨done, last, rfl, hread⟩ := h
  refine ⟨.not :: done, last, rfl, fun rest => ?_⟩
  rw [List.cons_append, Outline.symbols, Outline.idle, Outline.step, hx]
  exact congrArg (Symbol.not :: ·) (hread rest)

theorem join (h : Outlined xs ss) (h' : Outlined ys ts) {x : Lexeme} {s : Symbol}
    (hx : x.ending? false = some s) : Outlined (xs ++ x :: ys) (ss ++ s :: ts) := by
  obtain ⟨done, last, rfl, hread⟩ := h'
  refine ⟨ss ++ s :: done, last, by simp, fun rest => ?_⟩
  rw [List.append_assoc, List.cons_append, h.ending hx, hread]
  simp

/-- A parenthesis that no subquery follows encloses conditions. -/
theorem enclosed (h : Outlined xs ss) (hselect : ∀ x ∈ xs.head?, x.is "SELECT" = false)
    (hne : xs ≠ []) :
    Outlined (.mark '(' :: (xs ++ [.mark ')'])) (.opening :: (ss ++ [.closing])) := by
  refine ⟨.opening :: (ss ++ [.closing]), [], by simp [Outline.finish], fun rest => ?_⟩
  obtain ⟨x, more, rfl⟩ := List.exists_cons_of_ne_nil hne
  have hx : x.is "SELECT" = false := hselect x rfl
  have hopen : Outline.idle.symbols (.mark '(' :: (x :: more ++ [.mark ')']) ++ rest) =
      .opening :: Outline.idle.symbols (x :: more ++ .mark ')' :: rest) := by
    have hstep : Outline.idle.step (.mark '(') = ([], .parenthesis) := rfl
    simp only [List.cons_append, List.append_assoc, List.nil_append, Outline.symbols, hstep]
    simp [Outline.step, hx, Outline.idle]
  rw [hopen, h.ending (x := .mark ')') rfl]
  simp [Outline.idle]

end Outlined
end NamedQuery.Sql
