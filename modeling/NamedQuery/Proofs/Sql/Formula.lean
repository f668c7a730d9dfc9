import NamedQuery.Proofs.Sql.Lexeme
import NamedQuery.Sql.Fault

namespace NamedQuery.Sql

/-- A condition holds, fails, or is not known where a value is absent. -/
inductive Truth where
  | no
  | unknown
  | yes
  deriving DecidableEq

namespace Truth

def ofBool : Bool → Truth
  | true => yes
  | false => no

def not : Truth → Truth
  | no => yes
  | unknown => unknown
  | yes => no

def and : Truth → Truth → Truth
  | no, _ | _, no => no
  | yes, t | t, yes => t
  | unknown, unknown => unknown

def or : Truth → Truth → Truth
  | yes, _ | _, yes => yes
  | no, t | t, no => t
  | unknown, unknown => unknown

end Truth

namespace Connective

def join : Connective → Truth → Truth → Truth
  | .and => Truth.and
  | .or => Truth.or

/-- The value of no operands. -/
def neutral : Connective → Truth
  | .and => .yes
  | .or => .no

theorem join_assoc (k : Connective) (a b c : Truth) :
    k.join (k.join a b) c = k.join a (k.join b c) := by
  cases k <;> cases a <;> cases b <;> cases c <;> rfl

theorem join_neutral (k : Connective) (a : Truth) : k.join a k.neutral = a := by
  cases k <;> cases a <;> rfl

theorem neutral_join (k : Connective) (a : Truth) : k.join k.neutral a = a := by
  cases k <;> cases a <;> rfl

/-- `AND` binds tighter than `OR`. -/
def precedence : Connective → Nat
  | .or => 1
  | .and => 2

end Connective

/-- What the text of a condition says of its operands, which are given by their tokens. -/
inductive Formula where
  | operand (tokens : List Lexeme)
  | constant (value : Bool)
  | not (f : Formula)
  | join (k : Connective) (left right : Formula)

namespace Formula

def operands : Formula → List (List Lexeme)
  | operand tokens => [tokens]
  | constant _ => []
  | not f => f.operands
  | join _ left right => left.operands ++ right.operands

/-- The value where the operands, counted from left to right, have the values of `v`. -/
def truth (v : Nat → Truth) : Formula → Truth
  | operand _ => v 0
  | constant value => .ofBool value
  | not f => (f.truth v).not
  | join k left right =>
    k.join (left.truth v) (right.truth fun i => v (i + left.operands.length))

end Formula

/-- The parts of the text of a condition. -/
inductive Symbol where
  | operand (tokens : List Lexeme)
  | constant (value : Bool)
  | not
  | join (k : Connective)
  | opening
  | closing

/-- What waits for the operand that is being read. -/
inductive Pending where
  | not
  | join (k : Connective) (left : Formula)
  | opening

/-- A text of operands and operators as far as it is read. -/
inductive Reading where
  /-- An operand has to follow. -/
  | before (pending : List Pending)
  | behind (pending : List Pending) (f : Formula)

namespace Reading

/-- `NOT` binds tightest, and applies as soon as its operand is read. -/
def complete : List Pending → Formula → Reading
  | .not :: pending, f => complete pending (.not f)
  | pending, f => behind pending f

/-- Joins what is pending to the left, as far as it binds at least as tightly as `precedence`. -/
def reduce (precedence : Nat) : List Pending → Formula → List Pending × Formula
  | .join k left :: pending, f =>
    if precedence ≤ k.precedence then reduce precedence pending (.join k left f)
    else (.join k left :: pending, f)
  | pending, f => (pending, f)

def step : Reading → Symbol → Option Reading
  | before pending, .operand tokens => some (complete pending (.operand tokens))
  | before pending, .constant value => some (complete pending (.constant value))
  | before pending, .not => some (before (.not :: pending))
  | before pending, .opening => some (before (.opening :: pending))
  | behind pending f, .join k =>
    let (pending, f) := reduce k.precedence pending f
    some (before (.join k f :: pending))
  | behind pending f, .closing =>
    match reduce 0 pending f with
    | (.opening :: pending, f) => some (complete pending f)
    | _ => none
  | _, _ => none

/-- The formula of a text that ends here. -/
def result? : Reading → Option Formula
  | behind pending f =>
    match reduce 0 pending f with
    | ([], f) => some f
    | _ => none
  | before _ => none

def formula? : Reading → List Symbol → Option Formula
  | r, [] => r.result?
  | r, s :: rest => (r.step s).bind fun r => r.formula? rest

end Reading

/-- Symbols that are read as one operand of whatever stands around them. -/
def Primary (ss : List Symbol) (f : Formula) : Prop :=
  ∀ pending rest, (Reading.before pending).formula? (ss ++ rest) =
    (Reading.complete pending f).formula? rest

namespace Primary

theorem operand (tokens : List Lexeme) : Primary [.operand tokens] (.operand tokens) :=
  fun _ _ => rfl

theorem constant (value : Bool) : Primary [.constant value] (.constant value) :=
  fun _ _ => rfl

theorem not {ss : List Symbol} {f : Formula} (h : Primary ss f) :
    Primary (.not :: ss) (.not f) :=
  fun pending rest => h (.not :: pending) rest

/-- Parentheses enclose one operand. -/
theorem enclosed {ss : List Symbol} {f : Formula} (h : Primary ss f) :
    Primary (.opening :: (ss ++ [.closing])) f := by
  intro pending rest
  have hinner := h (.opening :: pending) (.closing :: rest)
  simpa [Reading.formula?, Reading.step, Reading.complete, Reading.reduce] using hinner

end Primary

/-- Operands that follow another, each with the connective in front of it. -/
inductive Tail (k : Connective) : List Symbol → Formula → Formula → Prop
  | nil {f : Formula} : Tail k [] f f
  | cons {ss rest : List Symbol} {f g whole : Formula} (head : Primary ss g)
      (more : Tail k rest (.join k f g) whole) : Tail k (.join k :: (ss ++ rest)) f whole

/-- Where a chain starts: nothing to the left of it binds its first operand. -/
def Fresh : List Pending → Prop
  | [] | .opening :: _ => True
  | _ => False

namespace Reading

theorem complete_of_fresh {pending : List Pending} (h : Fresh pending) (f : Formula) :
    complete pending f = behind pending f := by
  match pending, h with
  | [], _ | .opening :: _, _ => rfl

theorem reduce_of_fresh {pending : List Pending} (h : Fresh pending) (precedence : Nat)
    (f : Formula) : reduce precedence pending f = (pending, f) := by
  match pending, h with
  | [], _ | .opening :: _, _ => rfl

/-- A reading that stands for `f`, as far as the connective, a parenthesis or the end can tell. -/
def StandsFor (k : Connective) (pending : List Pending) (r : Reading) (f : Formula) : Prop :=
  r.step (.join k) = some (before (.join k f :: pending)) ∧
    r.step .closing = (behind pending f).step .closing ∧ r.result? = (behind pending f).result?

theorem standsFor_behind {k : Connective} {pending : List Pending} (h : Fresh pending)
    (f : Formula) : StandsFor k pending (behind pending f) f := by
  refine ⟨?_, rfl, rfl⟩
  rw [step, reduce_of_fresh h]

theorem standsFor_join {k : Connective} {pending : List Pending} (h : Fresh pending)
    (f g : Formula) : StandsFor k pending (complete (.join k f :: pending) g) (.join k f g) := by
  have hcomplete : complete (.join k f :: pending) g = behind (.join k f :: pending) g := rfl
  have hreduce (precedence : Nat) (hle : precedence ≤ k.precedence) :
      reduce precedence (.join k f :: pending) g = reduce precedence pending (.join k f g) := by
    rw [reduce, if_pos hle]
  rw [hcomplete]
  -- nothing in `pending` is joined, as the chain is fresh
  refine ⟨?_, ?_, ?_⟩
  · rw [step, hreduce _ (Nat.le_refl _), reduce_of_fresh h]
  · rw [step, step, hreduce _ (Nat.zero_le _)]
  · rw [result?, result?, hreduce _ (Nat.zero_le _)]

/-- A chain is read from left to right. -/
theorem formula_tail {k : Connective} {pending : List Pending} (hfresh : Fresh pending)
    {ss : List Symbol} {f whole : Formula} (h : Tail k ss f whole) {r : Reading}
    (hr : StandsFor k pending r f) (rest : List Symbol) :
    ∃ r', StandsFor k pending r' whole ∧ r.formula? (ss ++ rest) = r'.formula? rest := by
  -- `StandsFor` is kept by each operand: the formula to its left is joined once it is read
  induction h generalizing r with
  | nil => exact ⟨r, hr, rfl⟩
  | @cons ss more f g whole head _ ih =>
    obtain ⟨r', hr', hrest⟩ := ih (standsFor_join hfresh f g)
    refine ⟨r', hr', ?_⟩
    have hhead := head (.join k f :: pending) (more ++ rest)
    rw [List.cons_append, formula?, hr.1, Option.bind_some, List.append_assoc, hhead, hrest]

end Reading

/-- Operands with a connective between them. -/
structure Chained (k : Connective) (ss : List Symbol) (whole : Formula) : Prop where
  read : ∀ {pending : List Pending}, Fresh pending → ∀ rest, ∃ r,
    Reading.StandsFor k pending r whole ∧
      (Reading.before pending).formula? (ss ++ rest) = r.formula? rest

theorem Tail.chained {k : Connective} {first ss : List Symbol} {f whole : Formula}
    (hfirst : Primary first f) (h : Tail k ss f whole) : Chained k (first ++ ss) whole := by
  refine ⟨fun {pending} hfresh rest => ?_⟩
  obtain ⟨r, hr, hrest⟩ :=
    Reading.formula_tail hfresh h (Reading.standsFor_behind hfresh f) rest
  refine ⟨r, hr, ?_⟩
  rw [List.append_assoc, hfirst, Reading.complete_of_fresh hfresh, hrest]

namespace Chained

variable {k : Connective} {ss : List Symbol} {f : Formula}

/-- A chain in parentheses is one operand. -/
theorem enclosed (h : Chained k ss f) : Primary (.opening :: (ss ++ [.closing])) f := by
  intro pending rest
  have hfresh : Fresh (.opening :: pending) := trivial
  obtain ⟨r, ⟨-, hclosing, -⟩, hread⟩ := h.read hfresh (.closing :: rest)
  have hstep : (Reading.behind (.opening :: pending) f).step .closing =
      some (Reading.complete pending f) := rfl
  calc (Reading.before pending).formula? (.opening :: (ss ++ [.closing]) ++ rest)
      = (Reading.before (.opening :: pending)).formula? (ss ++ .closing :: rest) := by
        simp [Reading.formula?, Reading.step]
    _ = r.formula? (.closing :: rest) := hread
    _ = (Reading.complete pending f).formula? rest := by
        rw [Reading.formula?, hclosing, hstep, Option.bind_some]

theorem formula_eq (h : Chained k ss f) : (Reading.before []).formula? ss = some f := by
  have hfresh : Fresh [] := trivial
  obtain ⟨r, ⟨-, -, hresult⟩, hread⟩ := h.read hfresh []
  rw [List.append_nil] at hread
  rw [hread, Reading.formula?, hresult]
  rfl

end Chained

theorem Primary.formula_eq {ss : List Symbol} {f : Formula} (h : Primary ss f) :
    (Reading.before []).formula? ss = some f := by
  have hread := h [] []
  rw [List.append_nil] at hread
  rw [hread]
  rfl

end NamedQuery.Sql
