import NamedQuery.Proofs.Sql.Meaning
import NamedQuery.Sql.Draft

namespace NamedQuery.Sql
open Piece

/-- Whether a leaf is neither text of the caller's own nor a reserved word for a name. -/
def Leaf.isReadable : Leaf → Bool
  | value _ => true
  | raw _ => false
  | name segment => !isReserved segment

theorem Piece.legible_of_leaves {ps : List Piece} (hs : Sound ps)
    (h : ∀ leaf ∈ Piece.leaves ps, leaf.isReadable) : Legible ps := by
  intro p hp
  refine ⟨hs p hp, ?_⟩
  cases p with
  | raw t => exact h (.raw t) (List.mem_filterMap.2 ⟨_, hp, rfl⟩)
  | ident segment column => exact h (.name segment) (List.mem_filterMap.2 ⟨_, hp, rfl⟩)
  | _ => rfl

theorem Cond.sound_of_write {c : Cond} {w w' : Writer} (h : c.write w = .ok w') :
    Sound c.pieces ∧ w' = w.append c.pieces :=
  writeAll_eq_ok (c.write_eq w ▸ h)

theorem Cond.legible_pieces {c : Cond} (hs : Sound c.pieces)
    (h : ∀ leaf ∈ c.leaves, leaf.isReadable) : Legible c.pieces :=
  legible_of_leaves hs (c.leaves_pieces ▸ h)

/-- The text of a condition says what the condition does. -/
theorem Cond.read_of_write {c : Cond} {w w' : Writer} (hc : ∀ leaf ∈ c.leaves, leaf.isReadable)
    (h : c.write w = .ok w') :
    ∃ text f, w'.text = w.text ++ text ∧ readCondition text = some f ∧ f.Means c := by
  obtain ⟨hs, rfl⟩ := Cond.sound_of_write h
  have hlegible := Cond.legible_pieces hs hc
  obtain ⟨ss, f, hreads⟩ := Cond.reads hlegible w.params.size
  refine ⟨_, f, rfl, ?_, hreads.means⟩
  rw [readCondition, String.toList_ofList, tokens_charsAll c.laid_pieces hlegible,
    hreads.outlined.symbols_eq]
  exact hreads.primary.formula_eq

theorem Cond.laid_chain (k : Connective) (first : Cond) (rest : List Cond) :
    Laid 0 (first.pieces ++ Cond.operandPieces k rest k.separator) := by
  obtain ⟨hn, hl, hb⟩ := nesting_separator (d := 0) k
  have hrest : Follows 0 (Cond.operandPieces k rest k.separator ++ []) :=
    ⟨Cond.laidOperands k rest (fun _ => rfl) hn hl Follows.nil,
      Cond.apartOperands k rest hb Follows.nil.apart⟩
  rw [List.append_nil] at hrest
  exact first.laid hrest

/-- The text of a chain without parentheses says what the group of its operands does. -/
theorem Cond.read_chain {k : Connective} {first : Cond} {rest : List Cond}
    (h : Legible (first.pieces ++ Cond.operandPieces k rest k.separator)) (n : Nat) :
    ∃ f, readCondition (String.ofList
        (charsAll n (first.pieces ++ Cond.operandPieces k rest k.separator))) = some f ∧
      f.Means (.group k (first :: rest)) := by
  obtain ⟨hfirst, hrest⟩ := (legible_append _ _).1 h
  obtain ⟨ss, f, hreads⟩ := Cond.reads hfirst n
  obtain ⟨ts, whole, houtlined, htail⟩ := Cond.readsOperands k hrest
    (n + (values first.pieces).length) hreads.outlined f
  refine ⟨whole, ?_, hreads.means.of_tail htail⟩
  rw [← tokensAll_append] at houtlined
  rw [readCondition, String.toList_ofList, tokens_charsAll (Cond.laid_chain k first rest) h,
    houtlined.symbols_eq]
  exact (htail.tail.chained hreads.primary).formula_eq

theorem Cond.wherePieces_of_legible {first : Cond} {rest : List Cond}
    (h : Legible (Cond.wherePieces (first :: rest))) : Cond.wherePieces (first :: rest) =
      text " WHERE " ::
        (first.pieces ++ Cond.operandPieces .and rest Connective.and.separator) := by
  cases rest with
  | nil => rw [Cond.operandPieces, List.append_nil, Cond.wherePieces]
  | cons second rest => exact Cond.operandPieces_of_legible h

/-- The text behind `WHERE` says what the group of all conditions does. -/
theorem Cond.read_wherePieces {conds : List Cond} (h : Legible (Cond.wherePieces conds))
    (hne : conds ≠ []) (n : Nat) : ∃ text f,
      String.ofList (charsAll n (Cond.wherePieces conds)) = " WHERE " ++ text ∧
        readCondition text = some f ∧ f.Means (.group .and conds) := by
  obtain ⟨first, rest, rfl⟩ := List.exists_cons_of_ne_nil hne
  have hpieces := Cond.wherePieces_of_legible h
  rw [hpieces] at h ⊢
  obtain ⟨f, hread, hmeans⟩ := Cond.read_chain ((legible_cons _ _).1 h).2 n
  refine ⟨_, f, ?_, hread, hmeans⟩
  rw [← String.toList_inj]
  simp only [String.toList_append, String.toList_ofList]
  rfl

/-- A statement up to its tables. -/
def Select.head (s : Select) : Select :=
  { s with conds := [], groupBy := [], order := [], limit := none, offset := none }

/-- The pieces of a statement behind its conditions. -/
def Select.tailPieces (s : Select) : List Piece :=
  Expr.piecesAll s.groupBy " GROUP BY " ++ (OrderTerm.piecesAll s.order " ORDER BY " ++
    (ofLimit s.limit ++ ofOffset s.offset))

theorem Select.pieces_split (s : Select) :
    s.pieces = s.head.pieces ++ (Cond.wherePieces s.conds ++ s.tailPieces) := by
  simp [Select.pieces_eq, Select.head, Select.tailPieces, ofStart_append, Cond.wherePieces,
    Expr.piecesAll, OrderTerm.piecesAll, ofLimit, ofOffset]

/-- What the clauses behind the conditions start with. -/
def clauseLeads : List String :=
  [" GROUP BY ", " ORDER BY ", " LIMIT ", " OFFSET "]

theorem Select.tailPieces_cases (s : Select) : s.tailPieces = [] ∨
    ∃ lead ∈ clauseLeads, ∃ rest, s.tailPieces = text lead :: rest := by
  cases hgroup : s.groupBy with
  | cons expr rest => simp [Select.tailPieces, hgroup, Expr.piecesAll, clauseLeads]
  | nil =>
    cases horder : s.order with
    | cons term rest =>
      obtain ⟨expr, direction⟩ := term
      simp [Select.tailPieces, hgroup, horder, Expr.piecesAll, OrderTerm.piecesAll, clauseLeads]
    | nil =>
      cases hlimit : s.limit <;> cases hoffset : s.offset <;>
        simp [Select.tailPieces, hgroup, horder, hlimit, hoffset, Expr.piecesAll,
          OrderTerm.piecesAll, ofLimit, ofOffset, clauseLeads]

/-- Behind its tables a statement has the condition that all its conditions hold, if it has any, and
then its other clauses. -/
def Select.Restricts (s : Select) (front sql : String) : Prop :=
  ∃ clause rest, sql = front ++ clause ++ rest ∧
    (s.conds = [] → clause = "") ∧
    (s.conds ≠ [] → ∃ text f, clause = " WHERE " ++ text ∧ readCondition text = some f ∧
      f.Means (.group .and s.conds)) ∧
    (rest = "" ∨ ∃ lead ∈ clauseLeads, ∃ more, rest = lead ++ more)

theorem Select.restricts_of_write {s : Select} {w w' : Writer} (h : s.write w = .ok w')
    (hs : ∀ leaf ∈ Cond.leavesAll s.conds, leaf.isReadable) :
    ∃ u, s.head.write w = .ok u ∧ s.Restricts u.text w'.text := by
  obtain ⟨hsound, rfl⟩ := Select.sound_of_write h
  rw [s.pieces_split] at hsound ⊢
  obtain ⟨hsoundHead, hsoundRest⟩ := sound_append.1 hsound
  obtain ⟨hsoundWhere, -⟩ := sound_append.1 hsoundRest
  have hwrite : s.head.write w = .ok (w.append s.head.pieces) := by
    rw [s.head.write_eq, writeAll_of_sound hsoundHead]
  -- the text is cut where the conditions start and where they end
  rw [← Writer.append_append, ← Writer.append_append]
  refine ⟨_, hwrite, _, _, rfl, ?_, ?_, ?_⟩
  · intro hnil
    rw [hnil]
    rfl
  · intro hne
    have hlegible : Legible (Cond.wherePieces s.conds) :=
      legible_of_leaves hsoundWhere (Cond.leaves_wherePieces s.conds ▸ hs)
    exact Cond.read_wherePieces hlegible hne _
  · obtain hnil | ⟨lead, hlead, rest, hcons⟩ := s.tailPieces_cases
    · rw [hnil]
      exact .inl rfl
    · refine .inr ⟨lead, hlead, ?_⟩
      rw [hcons, charsAll, chars, String.ofList_append, String.ofList_toList]
      exact ⟨_, rfl⟩

/-- Criteria change neither the tables of a statement nor its conditions. -/
theorem Select.restricts_of_compile {s : Select} {c : Criteria} {st : Statement}
    (h : s.compile c = .ok st) (hs : ∀ leaf ∈ Cond.leavesAll s.conds, leaf.isReadable) :
    ∃ u, s.head.write .empty = .ok u ∧ s.Restricts u.text st.sql := by
  obtain ⟨arranged, w, harrange, hwrite, rfl⟩ := Select.write_of_compile h
  obtain ⟨terms, -, rfl⟩ := Select.arrange_eq_ok harrange
  have hrestricts := Select.restricts_of_write hwrite hs
  exact hrestricts

theorem Cond.truthAll_append (k : Connective) (conds more : List Cond) (v : Nat → Truth) :
    Cond.truthAll k (conds ++ more) v = k.join (Cond.truthAll k conds v)
      (Cond.truthAll k more fun i => v (i + (Cond.conditionsAll conds).length)) := by
  induction conds generalizing v with
  | nil => exact (k.neutral_join _).symm
  | cons cond rest ih =>
    rw [List.cons_append, Cond.truthAll, ih, Cond.truthAll, k.join_assoc, Cond.conditionsAll,
      List.length_append, shift_add]

theorem Cond.conditionsAll_append (conds more : List Cond) :
    Cond.conditionsAll (conds ++ more) =
      Cond.conditionsAll conds ++ Cond.conditionsAll more := by
  induction conds with
  | nil => rfl
  | cons cond rest ih =>
    rw [List.cons_append, Cond.conditionsAll, ih, Cond.conditionsAll, List.append_assoc]

theorem Cond.leavesAll_append (conds more : List Cond) :
    Cond.leavesAll (conds ++ more) = Cond.leavesAll conds ++ Cond.leavesAll more := by
  induction conds with
  | nil => rfl
  | cons cond rest ih =>
    rw [List.cons_append, Cond.leavesAll, ih, Cond.leavesAll, List.append_assoc]

theorem Cond.joinWith_eq (k : Connective) (a b : Cond) :
    (∃ conds, a = .group k conds ∧ a.joinWith k b = .group k (conds ++ [b])) ∨
      a.joinWith k b = .group k [a, b] := by
  cases a with
  | group k' conds =>
    by_cases hk : k' = k
    · subst hk
      exact .inl ⟨conds, rfl, by simp [Cond.joinWith]⟩
    · exact .inr (by simp [Cond.joinWith, hk])
  | _ => exact .inr rfl

theorem Cond.sound_joinWith {k : Connective} {a b : Cond} (ha : Sound a.pieces)
    (hb : Sound b.pieces) : Sound (a.joinWith k b).pieces := by
  obtain ⟨conds, rfl, heq⟩ | heq := Cond.joinWith_eq k a b
  · rw [heq, Cond.sound_group]
    rw [Cond.sound_group] at ha
    refine ⟨by simp, List.forall_mem_append.2 ⟨ha.2, ?_⟩⟩
    simpa using hb
  · rw [heq, Cond.sound_group]
    simp [ha, hb]

theorem Cond.conditions_joinWith (k : Connective) (a b : Cond) :
    (a.joinWith k b).conditions = a.conditions ++ b.conditions := by
  obtain ⟨conds, rfl, heq⟩ | heq := Cond.joinWith_eq k a b
  · rw [heq, Cond.conditions, Cond.conditionsAll_append, Cond.conditions]
    simp [Cond.conditionsAll]
  · rw [heq]
    simp [Cond.conditions, Cond.conditionsAll]

theorem Cond.leaves_joinWith (k : Connective) (a b : Cond) :
    (a.joinWith k b).leaves = a.leaves ++ b.leaves := by
  obtain ⟨conds, rfl, heq⟩ | heq := Cond.joinWith_eq k a b
  · rw [heq, Cond.leaves, Cond.leavesAll_append, Cond.leaves]
    simp [Cond.leavesAll]
  · rw [heq]
    simp [Cond.leaves, Cond.leavesAll]

theorem Cond.truth_joinWith (k : Connective) (a b : Cond) (v : Nat → Truth) :
    (a.joinWith k b).truth v =
      k.join (a.truth v) (b.truth fun i => v (i + a.conditions.length)) := by
  obtain ⟨conds, rfl, heq⟩ | heq := Cond.joinWith_eq k a b
  · rw [heq, Cond.truth, Cond.truthAll_append, Cond.truth, Cond.truthAll, Cond.truthAll,
      k.join_neutral, Cond.conditions]
  · rw [heq, Cond.truth, Cond.truthAll, Cond.truthAll, Cond.truthAll, k.join_neutral]

/-- Text is read as what was written. A condition says in its text what it does; behind its `WHERE`
a statement says that all its conditions hold; and a condition that another is joined to says both,
with the connective between them. -/
theorem Cond.meaning_of_text :
    (∀ (c : Cond) (w w' : Writer), (∀ leaf ∈ c.leaves, leaf.isReadable) → c.write w = .ok w' →
      ∃ text f, w'.text = w.text ++ text ∧ readCondition text = some f ∧ f.Means c) ∧
    (∀ (s : Select), (∀ leaf ∈ Cond.leavesAll s.conds, leaf.isReadable) →
      (∀ w w', s.write w = .ok w' → ∃ u, s.head.write w = .ok u ∧ s.Restricts u.text w'.text) ∧
      ∀ c st, s.compile c = .ok st →
        ∃ u, s.head.write .empty = .ok u ∧ s.Restricts u.text st.sql) ∧
    (∀ (k : Connective) (a b : Cond) (u u' w w' : Writer), a.write u = .ok u' → b.write w = .ok w' →
      (∀ v, (a.joinWith k b).truth v =
        k.join (a.truth v) (b.truth fun i => v (i + a.conditions.length))) ∧
      ∀ x, ∃ x', (a.joinWith k b).write x = .ok x' ∧
        ((∀ leaf ∈ a.leaves ++ b.leaves, leaf.isReadable) →
          ∃ text f, x'.text = x.text ++ text ∧ readCondition text = some f ∧
            List.Forall₂ Cond.Written (a.conditions ++ b.conditions) f.operands ∧
            ∀ v, f.truth v =
              k.join (a.truth v) (b.truth fun i => v (i + a.conditions.length)))) := by
  refine ⟨fun c w w' hc h => Cond.read_of_write hc h, ?_, ?_⟩
  · intro s hs
    exact ⟨fun w w' h => Select.restricts_of_write h hs,
      fun c st h => Select.restricts_of_compile h hs⟩
  · intro k a b u u' w w' ha hb
    have hsound : Sound (a.joinWith k b).pieces :=
      Cond.sound_joinWith (Cond.sound_of_write ha).1 (Cond.sound_of_write hb).1
    refine ⟨Cond.truth_joinWith k a b, fun x => ?_⟩
    have hwrite : (a.joinWith k b).write x = .ok (x.append (a.joinWith k b).pieces) := by
      rw [Cond.write_eq, writeAll_of_sound hsound]
    refine ⟨_, hwrite, fun hreadable => ?_⟩
    rw [← Cond.leaves_joinWith k] at hreadable
    obtain ⟨text, f, htext, hread, hmeans⟩ := Cond.read_of_write hreadable hwrite
    refine ⟨text, f, htext, hread, ?_, fun v => ?_⟩
    · rw [← Cond.conditions_joinWith k]
      exact hmeans.operands
    · rw [hmeans.truth, Cond.truth_joinWith]

/-- A negated group of a range, membership in no values and a group of one, or the lack of a row. -/
def nestedCond : Cond :=
  .group .or [.not (.group .and [.between (.column (.unqualified "a")) (.bound (.int64 1))
      (.bound (.int64 2)) false, .inList (.column (.unqualified "b")) [] true,
      .group .or [.isNull (.column (.unqualified "\"AND\"")) false]]),
    .hasRow (Select.empty.addTable "t" "") true]

def nestedText : String :=
  "NOT ((a BETWEEN $1 AND $2 AND TRUE AND \"AND\" IS NULL)) OR NOT EXISTS (SELECT * FROM t)"

def flagCond : Cond :=
  .test (.unqualified "c") .eq (.bool true)

def restricted : Select :=
  ((Select.empty.addTable "t" "").restrict nestedCond).restrict flagCond

def restrictedSql : String :=
  "SELECT * FROM t WHERE (" ++ nestedText ++ ") AND c = $3"

theorem nestedCond_readable :
    ∀ leaf ∈ nestedCond.leaves ++ flagCond.leaves, leaf.isReadable := by
  have hleaves : nestedCond.leaves ++ flagCond.leaves = [.name "a", .value (.int64 1),
      .value (.int64 2), .name "\"AND\"", .name "t", .name "c", .value (.bool true)] := rfl
  rw [hleaves]
  decide

theorem meaning_of_nestedText :
    (∃ f, readCondition ("(" ++ nestedText ++ ")") = some f ∧ f.Means nestedCond) ∧
    restricted.compile .default = .ok ⟨restrictedSql, #[.int64 1, .int64 2, .bool true]⟩ ∧
    restricted.Restricts "SELECT * FROM t" restrictedSql ∧
    ∃ f, readCondition ("(" ++ nestedText ++ " OR c = $3)") = some f ∧
      ∀ v, f.truth v = (nestedCond.truth v).or (flagCond.truth fun i => v (i + 3)) := by
  obtain ⟨hwritten, hrestricts, hjoined⟩ := Cond.meaning_of_text
  have hnested : nestedCond.write .empty =
      .ok ⟨"(" ++ nestedText ++ ")", #[.int64 1, .int64 2]⟩ := rfl
  have hflag : flagCond.write .empty = .ok ⟨"c = $1", #[.bool true]⟩ := rfl
  have hcompile : restricted.compile .default =
      .ok ⟨restrictedSql, #[.int64 1, .int64 2, .bool true]⟩ := rfl
  have hhead : restricted.head.write .empty = .ok ⟨"SELECT * FROM t", #[]⟩ := rfl
  have hor : (nestedCond.joinWith .or flagCond).write .empty =
      .ok ⟨"(" ++ nestedText ++ " OR c = $3)", #[.int64 1, .int64 2, .bool true]⟩ := rfl
  obtain ⟨hreadable, -⟩ := List.forall_mem_append.1 nestedCond_readable
  refine ⟨?_, hcompile, ?_, ?_⟩
  · obtain ⟨text, f, htext, hread, hmeans⟩ := hwritten _ _ _ hreadable hnested
    obtain rfl : _ = text := htext.trans (String.empty_append)
    exact ⟨f, hread, hmeans⟩
  · have hall : ∀ leaf ∈ Cond.leavesAll restricted.conds, leaf.isReadable := nestedCond_readable
    obtain ⟨u, hu, hrest⟩ := (hrestricts restricted hall).2 _ _ hcompile
    obtain rfl : _ = u := Except.ok.inj (hhead.symm.trans hu)
    exact hrest
  · obtain ⟨-, hwrite⟩ := hjoined .or _ _ _ _ _ _ hnested hflag
    obtain ⟨x, hx, hmeaning⟩ := hwrite .empty
    obtain rfl : _ = x := Except.ok.inj (hor.symm.trans hx)
    obtain ⟨text, f, htext, hread, -, htruth⟩ := hmeaning nestedCond_readable
    obtain rfl : _ = text := htext.trans (String.empty_append)
    exact ⟨f, hread, htruth⟩

end NamedQuery.Sql
