import NamedQuery.Proofs.Sql.Ident
import NamedQuery.Proofs.Sql.Piece

namespace NamedQuery.Sql
namespace Piece

/-- What keeps a piece from being written. It is the same wherever the piece stands. -/
def fault? : Piece → Option CompileFault
  | ident segment column =>
    match Ident.parse segment with
    | .ok _ => none
    | .error fault => some (column.elim (.ident fault) fun c => .column c fault)
  | count n fault => if n < 0 then some fault else none
  | stop fault => some fault
  | _ => none

def value? : Piece → Option Param
  | value param => some param
  | _ => none

/-- The values that pieces bind, in order. -/
def values (ps : List Piece) : List Param :=
  ps.filterMap value?

/-- The text of a piece that is written after `bound` values. -/
def chars (bound : Nat) : Piece → List Char
  | text t => t.toList
  | raw t => t.toList
  | value _ => ("$" ++ toString (bound + 1)).toList
  | ident segment _ => segment.toList
  | count n _ => (toString n.toInt).toList
  | stop _ => []

def charsAll : Nat → List Piece → List Char
  | _, [] => []
  | bound, p :: rest => p.chars bound ++ charsAll (bound + (values [p]).length) rest

/-- Pieces that can all be written. -/
def Sound (ps : List Piece) : Prop :=
  ∀ p ∈ ps, p.fault? = none

theorem sound_cons {p : Piece} {ps : List Piece} :
    Sound (p :: ps) ↔ p.fault? = none ∧ Sound ps :=
  List.forall_mem_cons

theorem sound_append {ps qs : List Piece} : Sound (ps ++ qs) ↔ Sound ps ∧ Sound qs :=
  List.forall_mem_append

@[simp] theorem values_nil : values [] = [] := rfl

theorem values_cons (p : Piece) (ps : List Piece) : values (p :: ps) = values [p] ++ values ps := by
  simp only [values, ← List.filterMap_append, List.singleton_append]

@[simp] theorem values_append (ps qs : List Piece) : values (ps ++ qs) = values ps ++ values qs :=
  List.filterMap_append

theorem charsAll_append (bound : Nat) (ps qs : List Piece) :
    charsAll bound (ps ++ qs) = charsAll bound ps ++ charsAll (bound + (values ps).length) qs := by
  induction ps generalizing bound with
  | nil => rfl
  | cons p rest ih =>
    rw [List.cons_append, charsAll, charsAll, ih, values_cons p rest]
    simp [Nat.add_assoc]

end Piece

open Piece

/-- A writer after pieces that can all be written. -/
def Writer.append (w : Writer) (ps : List Piece) : Writer :=
  ⟨w.text ++ String.ofList (charsAll w.params.size ps), w.params ++ (values ps).toArray⟩

theorem Writer.append_append (w : Writer) (ps qs : List Piece) :
    (w.append ps).append qs = w.append (ps ++ qs) := by
  simp [Writer.append, charsAll_append, String.append_assoc]

namespace Piece

theorem write_eq (p : Piece) (w : Writer) : p.write w =
    match p.fault? with
    | some fault => .error fault
    | none => .ok (w.append [p]) := by
  cases p with
  | ident segment column =>
    cases h : Ident.parse segment with
    | error fault =>
      cases column <;> simp [Piece.write, fault?, h, w.ident_of_error h, Except.mapError]
    | ok i =>
      have hpush : w.push segment = w.append [.ident segment column] := by
        simp [Writer.push, Writer.append, charsAll, chars, values, value?]
      cases column <;> simp [Piece.write, fault?, h, w.ident_of_ok h, hpush, Except.mapError]
  | value param =>
    simp only [Piece.write, fault?, Writer.append, charsAll, chars, Writer.bind, List.append_nil,
      String.ofList_toList, String.append_assoc, Array.push_eq_append]
    rfl
  | count n fault =>
    by_cases hn : n < 0 <;>
      simp [Piece.write, fault?, hn, Writer.append, charsAll, chars, values, value?, Writer.push,
        Writer.int]
  | _ =>
    simp [Piece.write, fault?, Writer.append, charsAll, chars, values, value?, Writer.push]

/-- Pieces are written up to the first that cannot be. -/
theorem writeAll_eq (ps : List Piece) (w : Writer) : writeAll ps w =
    match ps.findSome? fault? with
    | some fault => .error fault
    | none => .ok (w.append ps) := by
  -- a fault does not depend on the writer, so the first one is found whatever is written before it
  induction ps generalizing w with
  | nil => simp [writeAll_nil, Writer.append, charsAll]
  | cons p rest ih =>
    rw [writeAll_cons, write_eq, List.findSome?_cons]
    cases p.fault? with
    | some fault => rfl
    | none =>
      rw [ok_bind, ih, Writer.append_append]
      rfl

theorem writeAll_of_sound {ps : List Piece} (h : Sound ps) (w : Writer) :
    writeAll ps w = .ok (w.append ps) := by
  rw [writeAll_eq, List.findSome?_eq_none_iff.2 h]

theorem writeAll_eq_ok {ps : List Piece} {w w' : Writer} (h : writeAll ps w = .ok w') :
    Sound ps ∧ w' = w.append ps := by
  rw [writeAll_eq] at h
  split at h
  · simp at h
  next hnone => exact ⟨List.findSome?_eq_none_iff.1 hnone, (Except.ok.inj h).symm⟩

end Piece

theorem Cond.sound_asOperand {cond : Cond} : Sound cond.asOperand ↔ Sound cond.pieces := by
  unfold Cond.asOperand
  cases hraw : cond.rawText? with
  | none => rfl
  | some t =>
    rw [Cond.eq_raw_of_rawText hraw]
    simp [Cond.pieces, Sound, fault?]

theorem Cond.sound_operandPieces {k : Connective} {conds : List Cond} {lead : String} :
    Sound (Cond.operandPieces k conds lead) ↔ ∀ cond ∈ conds, Sound cond.pieces := by
  induction conds generalizing lead with
  | nil => simp [Cond.operandPieces, Sound]
  | cons cond rest ih =>
    rw [Cond.operandPieces_cons, sound_cons, sound_append, Cond.sound_asOperand, ih,
      List.forall_mem_cons]
    simp [fault?]

/-- A group can be written if it has conditions, and each of them can. -/
theorem Cond.sound_group {k : Connective} {conds : List Cond} :
    Sound (Cond.group k conds).pieces ↔ conds ≠ [] ∧ ∀ cond ∈ conds, Sound cond.pieces := by
  cases conds with
  | nil => simp [Cond.pieces, Sound, fault?]
  | cons first rest =>
    cases rest with
    | nil => simp [Cond.pieces]
    | cons second rest =>
      rw [Cond.pieces, sound_append, Cond.sound_operandPieces]
      simp [Sound, fault?]

theorem Cond.sound_wherePieces {conds : List Cond} :
    Sound (Cond.wherePieces conds) ↔ ∀ cond ∈ conds, Sound cond.pieces := by
  cases conds with
  | nil => simp [Cond.wherePieces, Sound]
  | cons first rest =>
    cases rest with
    | nil => simp [Cond.wherePieces, sound_cons, fault?]
    | cons second rest => exact Cond.sound_operandPieces

/-- The term of an order that criteria ask for. -/
def OrderTerm.ofSort (term : SortTerm) : OrderTerm :=
  ⟨.column (.parse term.field), term.direction⟩

/-- Criteria order by one column for each of their terms, and by no wildcard. -/
theorem sortTerms_eq_ok {sort : List SortTerm} {terms : List OrderTerm}
    (h : sortTerms sort = .ok terms) : terms = sort.map OrderTerm.ofSort ∧
      ∀ term ∈ sort, (ColumnRef.parse term.field).isWildcard = false := by
  induction sort generalizing terms with
  | nil => exact ⟨(Except.ok.inj h).symm, nofun⟩
  | cons term rest ih =>
    simp only [sortTerms] at h
    split at h
    · simp at h
    next hname =>
      cases hrest : sortTerms rest with
      | error fault => simp [hrest, Except.map] at h
      | ok more =>
        obtain ⟨hmore, hnames⟩ := ih hrest
        refine ⟨?_, List.forall_mem_cons.2 ⟨by simpa using hname, hnames⟩⟩
        simpa [hrest, Except.map, hmore, OrderTerm.ofSort, eq_comm] using h

theorem Select.arrange_eq_ok {s arranged : Select} {c : Criteria}
    (h : s.arrange c = .ok arranged) : ∃ terms, sortTerms c.sort = .ok terms ∧
      arranged = { s with
        order := s.order ++ terms
        limit := c.take <|> s.limit
        offset := c.skip <|> s.offset } := by
  unfold Select.arrange at h
  cases hterms : sortTerms c.sort with
  | error fault => simp [hterms, Except.map] at h
  | ok terms => exact ⟨terms, rfl, (Except.ok.inj (hterms ▸ h)).symm⟩

theorem Select.write_of_compile {s : Select} {c : Criteria} {st : Statement}
    (h : s.compile c = .ok st) : ∃ arranged w, s.arrange c = .ok arranged ∧
      arranged.write .empty = .ok w ∧ st = ⟨w.text, w.params⟩ := by
  unfold Select.compile at h
  cases harrange : s.arrange c with
  | error fault => simp [harrange, Except.bind, Except.map, Except.mapError] at h
  | ok arranged =>
    cases hwrite : arranged.write .empty with
    | error fault => simp [harrange, hwrite, Except.bind, Except.map, Except.mapError] at h
    | ok w =>
      refine ⟨arranged, w, rfl, hwrite, ?_⟩
      simpa [harrange, hwrite, Except.bind, Except.map, Except.mapError, eq_comm] using h

theorem Select.sound_of_write {s : Select} {w w' : Writer} (h : s.write w = .ok w') :
    Sound s.pieces ∧ w' = w.append s.pieces :=
  writeAll_eq_ok (s.write_eq w ▸ h)

/-- What the arrangement of a statement refuses, what first stops its pieces, or their text and
values. -/
theorem Select.compile_eq (s : Select) (c : Criteria) : s.compile c =
    match s.arrange c with
    | .error fault => .error (.compile fault)
    | .ok arranged =>
      match arranged.pieces.findSome? fault? with
      | some fault => .error (.compile fault)
      | none =>
        .ok ⟨String.ofList (charsAll 0 arranged.pieces), (values arranged.pieces).toArray⟩ := by
  unfold Select.compile
  cases s.arrange c with
  | error fault => rfl
  | ok arranged =>
    simp only [Except.bind, Select.write_eq, writeAll_eq]
    cases arranged.pieces.findSome? fault? with
    | some fault => rfl
    | none => simp [Except.map, Except.mapError, Writer.append, Writer.empty]

/-- A statement that is put together from criteria is written from the pieces of its arrangement. -/
theorem Select.compile_eq_ok {s : Select} {c : Criteria} {st : Statement}
    (h : s.compile c = .ok st) : ∃ arranged, s.arrange c = .ok arranged ∧ Sound arranged.pieces ∧
      st.sql.toList = charsAll 0 arranged.pieces ∧ st.params.toList = values arranged.pieces := by
  obtain ⟨arranged, w, harrange, hwrite, rfl⟩ := Select.write_of_compile h
  obtain ⟨hsound, rfl⟩ := Select.sound_of_write hwrite
  exact ⟨arranged, harrange, hsound, by simp [Writer.append, Writer.empty]⟩

end NamedQuery.Sql
