import NamedQuery.Proofs.Sql.Chunk
import NamedQuery.Proofs.Sql.Leaf
import NamedQuery.Proofs.Sql.Replacement

namespace NamedQuery.Sql

open Piece

def Leaf.raw? : Leaf → Option String
  | raw t => some t
  | _ => none

/-- The texts of the caller's own in a statement, from left to right. -/
def Select.rawTexts (s : Select) : List String :=
  s.leaves.filterMap Leaf.raw?

/-- The statement with nothing in the place of each text of the caller's own. -/
def Select.hollow (s : Select) : Select :=
  s.replace id fun _ => ""

/-- A stretch of a statement in which the caller's own texts are left open. -/
inductive Stretch where
  | chunk (chunk : Chunk)
  | hole

namespace Stretch

/-- The chunks with one text after the other in the place of each hole. -/
def fill : List Stretch → List String → List Chunk
  | [], _ => []
  | chunk c :: rest, texts => c :: fill rest texts
  | hole :: rest, t :: texts => .text t :: fill rest texts
  | hole :: rest, [] => fill rest []

def isHole : Stretch → Bool
  | hole => true
  | chunk _ => false

def holes (stretches : List Stretch) : Nat :=
  stretches.countP isHole

end Stretch

namespace Piece

def stretch : Piece → Stretch
  | raw _ => .hole
  | p => .chunk p.chunk

def rawTexts (ps : List Piece) : List String :=
  (leaves ps).filterMap Leaf.raw?

theorem holes_stretches (ps : List Piece) :
    Stretch.holes (ps.map stretch) = (rawTexts ps).length := by
  induction ps with
  | nil => rfl
  | cons p rest ih =>
    rw [List.map_cons, Stretch.holes, List.countP_cons]
    cases p with
    | raw t => exact congrArg (· + 1) ih
    | _ => exact ih

/-- Filled with the texts that were taken out, the stretches are the chunks again. -/
theorem fill_stretches (ps : List Piece) :
    Stretch.fill (ps.map stretch) (rawTexts ps) = ps.map chunk := by
  induction ps with
  | nil => rfl
  | cons p rest ih => cases p <;> exact congrArg (List.cons _) ih

theorem stretch_replace (g : String → String) (ps : List Piece) :
    (ps.map (replace id g)).map stretch = ps.map stretch := by
  rw [List.map_map]
  apply List.map_congr_left
  intro p _
  cases p <;> rfl

end Piece

theorem Select.rawTexts_pieces (s : Select) : Piece.rawTexts s.pieces = s.rawTexts := by
  rw [Piece.rawTexts, s.leaves_pieces, Select.rawTexts]

theorem Select.arrange_rawTexts {s arranged : Select} {c : Criteria}
    (h : s.arrange c = .ok arranged) : arranged.rawTexts = s.rawTexts := by
  obtain ⟨names, hnames⟩ := s.arrange_leaves h
  have hnone : (names.map Leaf.name).filterMap Leaf.raw? = [] := by
    simp [List.filterMap_eq_nil_iff, Leaf.raw?]
  rw [Select.rawTexts, hnames, List.filterMap_append, hnone, List.append_nil, Select.rawTexts]

/-- How a statement compiles is told by what is left of it when its own texts are taken out; they are put
back as they were. -/
theorem Select.compile_hollow (s : Select) (c : Criteria) :
    match s.hollow.arrange c with
    | .error fault => s.compile c = .error (.compile fault)
    | .ok arranged =>
      match arranged.pieces.findSome? fault? with
      | some fault => s.compile c = .error (.compile fault)
      | none =>
        let stretches := arranged.pieces.map stretch
        Stretch.holes stretches = s.rawTexts.length ∧
          Chunk.slots (Stretch.fill stretches s.rawTexts) = s.values.length ∧
          arranged.values = s.values ∧
          s.compile c = .ok ⟨Chunk.render 0 (Stretch.fill stretches s.rawTexts),
            arranged.values.toArray⟩ := by
  rw [Select.hollow, Select.arrange_replace, Select.compile_eq]
  cases harrange : s.arrange c with
  | error fault => rfl
  | ok arranged =>
    -- neither the first fault nor the values depend on the texts that are taken out
    have hvalues : (arranged.replace id fun _ => "").values = s.values := by
      rw [← Select.values_pieces, Select.pieces_replace, values_replace, List.map_id,
        Select.values_pieces, Select.arrange_values harrange]
    simp only [Except.map, Select.pieces_replace, findSome_fault_replace, stretch_replace, hvalues,
      true_and]
    cases arranged.pieces.findSome? fault? with
    | some fault => rfl
    | none =>
      have hfill : Stretch.fill (arranged.pieces.map stretch) s.rawTexts =
          arranged.pieces.map chunk := by
        rw [← Select.arrange_rawTexts harrange, ← Select.rawTexts_pieces, fill_stretches]
      refine ⟨?_, ?_, ?_⟩
      · rw [holes_stretches, Select.rawTexts_pieces, Select.arrange_rawTexts harrange]
      · rw [hfill, slots_chunks, Select.values_pieces, Select.arrange_values harrange]
      · rw [hfill, render_chunks, Select.values_pieces, Select.arrange_values harrange]

/-- Statements that differ in texts of the caller's own alone fail alike or bind the same values, and are
written as the same stretches with each of these texts in its place, as it is. -/
theorem Select.raw_texts_spliced (s : Select) (c : Criteria) :
    (∃ error, ∀ s' : Select, s'.hollow = s.hollow → s'.compile c = .error error) ∨
    ∃ (stretches : List Stretch) (params : Array Param), ∀ s' : Select, s'.hollow = s.hollow →
      s'.compile c = .ok ⟨Chunk.render 0 (Stretch.fill stretches s'.rawTexts), params⟩ ∧
        Stretch.holes stretches = s'.rawTexts.length ∧
        Chunk.slots (Stretch.fill stretches s'.rawTexts) = params.size ∧
        params.toList = s'.values := by
  have hcases {s' : Select} (h : s'.hollow = s.hollow) := h ▸ s'.compile_hollow c
  cases harrange : s.hollow.arrange c with
  | error fault =>
    refine .inl ⟨.compile fault, fun s' h => ?_⟩
    simpa only [harrange] using hcases h
  | ok arranged =>
    cases hfault : arranged.pieces.findSome? fault? with
    | some fault =>
      refine .inl ⟨.compile fault, fun s' h => ?_⟩
      simpa only [harrange, hfault] using hcases h
    | none =>
      refine .inr ⟨arranged.pieces.map stretch, arranged.values.toArray, fun s' h => ?_⟩
      have hs' := hcases h
      simp only [harrange, hfault] at hs'
      obtain ⟨hholes, hslots, hvalues, hcompile⟩ := hs'
      exact ⟨hcompile, hholes, by rw [hslots, List.size_toArray, hvalues], hvalues⟩

/-- A statement with two texts of the caller's own, in a join, a call, a chain, a group and a subquery. -/
def openAt (own other : String) : Select where
  sources := [.table "t" none, .joined .left "u" none (.raw own)]
  columns := [⟨.call "f" [.raw other, .bound (.int64 1)], none⟩]
  distinct := false
  conds := [.raw own, .group .or [.raw other, .hasRow
    ⟨[.table "v" none], [], false, [.group .and [.raw own]], [], [], none, none⟩ true]]
  groupBy := []
  order := [⟨.case [⟨.raw other, .bound (.int64 2)⟩] none, .ascending⟩]
  limit := none
  offset := none

def openAtPlain : String :=
  "SELECT f(b, $1) FROM t LEFT JOIN u ON a WHERE (a) AND ((b) OR NOT EXISTS " ++
    "(SELECT * FROM v WHERE a)) ORDER BY CASE WHEN b THEN $2 END ASC"

def openAtHostile : String :=
  "SELECT f(--\", $1) FROM t LEFT JOIN u ON $1 OR 'x WHERE ($1 OR 'x) AND ((--\") OR NOT EXISTS " ++
    "(SELECT * FROM v WHERE $1 OR 'x)) ORDER BY CASE WHEN --\" THEN $2 END ASC"

theorem openAt_spliced : (openAt "$1 OR 'x" "--\"").hollow = (openAt "a" "b").hollow ∧
    ∃ stretches : List Stretch, Stretch.holes stretches = 6 ∧
      Chunk.render 0 (Stretch.fill stretches ["b", "a", "a", "b", "a", "b"]) = openAtPlain ∧
      Chunk.render 0 (Stretch.fill stretches ["--\"", "$1 OR 'x", "$1 OR 'x", "--\"", "$1 OR 'x",
        "--\""]) = openAtHostile ∧
      (openAt "$1 OR 'x" "--\"").compile .default =
        .ok ⟨openAtHostile, #[.int64 1, .int64 2]⟩ := by
  have hhollow : (openAt "$1 OR 'x" "--\"").hollow = (openAt "a" "b").hollow := rfl
  have hplain : (openAt "a" "b").compile .default = .ok ⟨openAtPlain, #[.int64 1, .int64 2]⟩ := rfl
  have hhostile : (openAt "$1 OR 'x" "--\"").compile .default =
      .ok ⟨openAtHostile, #[.int64 1, .int64 2]⟩ := rfl
  obtain ⟨error, herror⟩ | ⟨stretches, params, hspliced⟩ :=
    Select.raw_texts_spliced (openAt "a" "b") .default
  · cases hplain.symm.trans (herror _ rfl)
  · obtain ⟨hcompile, hholes, -⟩ := hspliced _ rfl
    obtain ⟨hcompile', -⟩ := hspliced _ hhollow
    have hsql := congrArg Statement.sql (Except.ok.inj (hcompile.symm.trans hplain))
    have hsql' := congrArg Statement.sql (Except.ok.inj (hcompile'.symm.trans hhostile))
    exact ⟨hhollow, stretches, hholes, hsql, hsql', hhostile⟩

end NamedQuery.Sql
