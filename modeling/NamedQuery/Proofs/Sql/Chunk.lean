import NamedQuery.Proofs.Sql.Rendering

namespace NamedQuery.Sql

/-- A stretch of a statement: text as it is, or the slot of a bound value. -/
inductive Chunk where
  | text (text : String)
  | slot
  deriving DecidableEq, Repr

namespace Chunk

/-- The text of chunks whose slots are numbered on from `bound`. -/
def render : Nat → List Chunk → String
  | _, [] => ""
  | bound, text t :: rest => t ++ render bound rest
  | bound, slot :: rest => "$" ++ toString (bound + 1) ++ render (bound + 1) rest

def slots (chunks : List Chunk) : Nat :=
  chunks.count slot

theorem slots_append (chunks more : List Chunk) :
    slots (chunks ++ more) = slots chunks + slots more :=
  List.count_append

theorem render_append (bound : Nat) (chunks more : List Chunk) :
    render bound (chunks ++ more) = render bound chunks ++ render (bound + slots chunks) more := by
  induction chunks generalizing bound with
  | nil => simp [render, slots]
  | cons chunk rest ih =>
    cases chunk with
    | text t =>
      have hslots : slots (text t :: rest) = slots rest := by simp [slots]
      rw [List.cons_append, render, render, ih, hslots, String.append_assoc]
    | slot =>
      have hslots : slots (slot :: rest) = slots rest + 1 := by simp [slots]
      rw [List.cons_append, render, render, ih, hslots, ← String.append_assoc, Nat.add_assoc,
        Nat.add_comm 1]

end Chunk

namespace Piece

/-- What a piece adds to a text. One that stops it adds nothing. -/
def chunk : Piece → Chunk
  | text t => .text t
  | raw t => .text t
  | value _ => .slot
  | ident segment _ => .text segment
  | count n _ => .text (toString n.toInt)
  | stop _ => .text ""

theorem slots_chunks (ps : List Piece) : Chunk.slots (ps.map chunk) = (values ps).length := by
  induction ps with
  | nil => rfl
  | cons p rest ih =>
    rw [values_cons, List.length_append, ← ih, List.map_cons, ← List.singleton_append,
      Chunk.slots_append]
    cases p <;> rfl

theorem render_chunk (bound : Nat) (p : Piece) :
    Chunk.render bound [p.chunk] = String.ofList (p.chars bound) := by
  cases p <;> simp only [chunk, Chunk.render, chars, String.append_empty, String.ofList_toList]

theorem render_chunks (bound : Nat) (ps : List Piece) :
    Chunk.render bound (ps.map chunk) = String.ofList (charsAll bound ps) := by
  induction ps generalizing bound with
  | nil => rfl
  | cons p rest ih =>
    have hslots : Chunk.slots [p.chunk] = (values [p]).length := slots_chunks [p]
    rw [List.map_cons, ← List.singleton_append, Chunk.render_append, hslots, ih, render_chunk,
      charsAll, String.ofList_append]

end Piece

open Piece

/-- A writer after chunks, with the values of their slots. -/
def Writer.extend (w : Writer) (chunks : List Chunk) (params : Array Param) : Writer :=
  ⟨w.text ++ Chunk.render w.params.size chunks, w.params ++ params⟩

theorem Writer.append_eq_extend (w : Writer) (ps : List Piece) :
    w.append ps = w.extend (ps.map chunk) (values ps).toArray := by
  rw [Writer.append, Writer.extend, render_chunks]

/-- Whatever a writer holds, the same chunks are written behind it and the same values bound as in an
empty one, or the same fault is met. -/
def Uniform (write : Writer → Except CompileFault Writer) : Prop :=
  ∃ chunks : List Chunk, ∀ w : Writer,
    match write .empty with
    | .error fault => write w = .error fault
    | .ok alone => alone.text = Chunk.render 0 chunks ∧ alone.params.size = Chunk.slots chunks ∧
        write w = .ok (w.extend chunks alone.params)

theorem Writer.extend_empty (chunks : List Chunk) (params : Array Param) :
    Writer.empty.extend chunks params = ⟨Chunk.render 0 chunks, params⟩ := by
  simp [Writer.extend, Writer.empty]

theorem Uniform.of_pieces {write : Writer → Except CompileFault Writer} {ps : List Piece}
    (h : ∀ w, write w = writeAll ps w) : Uniform write := by
  refine ⟨ps.map chunk, fun w => ?_⟩
  rw [h, h, writeAll_eq, writeAll_eq]
  -- what stops the pieces is the same behind any text, so one case settles both writers
  cases ps.findSome? fault? with
  | some fault => rfl
  | none =>
    rw [Writer.append_eq_extend, Writer.append_eq_extend, Writer.extend_empty]
    exact ⟨rfl, by rw [slots_chunks, List.size_toArray], rfl⟩

theorem Select.arrange_default (s : Select) : s.arrange .default = .ok s := by
  obtain ⟨sources, columns, distinct, conds, groupBy, order, limit, offset⟩ := s
  simp [Select.arrange, sortTerms, Criteria.default, Except.map]

theorem Select.build_eq (s : Select) : s.build =
    ((s.write .empty).map fun w => ⟨w.text, w.params⟩).mapError .compile := by
  rw [Select.build, Select.compile, s.arrange_default]
  rfl

/-- A statement is written into any other as it is built by itself, with its placeholders numbered on;
so is each expression, each condition, and each row of operands. -/
theorem Select.write_as_built :
    (∀ s : Select, ∃ chunks : List Chunk, ∀ w : Writer,
      match s.build with
      | .error error => (s.write w).mapError .compile = .error error
      | .ok st => st.sql = Chunk.render 0 chunks ∧ st.params.size = Chunk.slots chunks ∧
          s.write w = .ok (w.extend chunks st.params)) ∧
    (∀ e : Expr, Uniform e.write) ∧ (∀ cond : Cond, Uniform cond.write) ∧
    ∀ (k : Connective) (conds : List Cond) (lead : String),
      Uniform (Cond.writeOperands k conds lead) := by
  refine ⟨fun s => ?_, fun e => .of_pieces e.write_eq, fun cond => .of_pieces cond.write_eq,
    fun k conds lead => .of_pieces (Cond.writeOperands_eq k conds lead)⟩
  obtain ⟨chunks, hchunks⟩ := Uniform.of_pieces s.write_eq
  refine ⟨chunks, fun w => ?_⟩
  have hw := hchunks w
  rw [s.build_eq]
  cases halone : s.write .empty with
  | error fault =>
    rw [halone] at hw
    exact congrArg (Except.mapError Error.compile) hw
  | ok alone =>
    rw [halone] at hw
    exact hw

/-- A statement with one value, behind a text with two. -/
example : Select.write
    ⟨[.table "t" none], [], false, [.test (.unqualified "a") .eq (.int64 5)], [], [], none, none⟩
      ⟨"x = $1 OR y = $2 OR ", #[.absent, .bool true]⟩ =
    .ok ⟨"x = $1 OR y = $2 OR SELECT * FROM t WHERE a = $3", #[.absent, .bool true, .int64 5]⟩ :=
  rfl

end NamedQuery.Sql
