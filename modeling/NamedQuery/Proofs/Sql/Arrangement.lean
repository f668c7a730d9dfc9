import NamedQuery.Proofs.Definition
import NamedQuery.Proofs.Sql.Chunk
import NamedQuery.Proofs.Sql.Layout
import NamedQuery.Proofs.Sql.Naming

namespace NamedQuery.Sql

open Piece

/-- The text of the order that criteria ask for; `lead` stands before the first term. -/
def sortText : List SortTerm → String → String
  | [], _ => ""
  | term :: rest, lead =>
    lead ++ (term.field ++ (" " ++ term.direction.word ++ sortText rest ", "))

/-- The text of one side of a window, its number in decimal. -/
def windowText (word : String) : Option Int64 → String
  | none => ""
  | some n => word ++ toString n.toInt.toNat

/-- A name of one column: a valid segment, or two with a dot between them. -/
def NamesColumn (field : String) : Prop :=
  (ColumnRef.parse field).isWildcard = false ∧
    (Segment field.toList ∨ ∃ table name, field = table ++ "." ++ name ∧
      Segment table.toList ∧ Segment name.toList)

theorem namesColumn_of_sortable {term : SortTerm} (h : Sortable term) : NamesColumn term.field := by
  obtain ⟨⟨htable, hname⟩, hne⟩ := h
  have hshown := ColumnRef.display_parse term.field
  have hname := hname.resolve_left hne
  refine ⟨by simpa [ColumnRef.isWildcard] using hne, ?_⟩
  cases hcolumn : (ColumnRef.parse term.field).table with
  | none =>
    rw [ColumnRef.display, hcolumn] at hshown
    exact .inl (hshown ▸ hname)
  | some table =>
    rw [ColumnRef.display, hcolumn] at hshown
    exact .inr ⟨table, _, hshown.symm, htable table hcolumn, hname⟩

theorem OrderTerm.piecesAll_append (terms more : List OrderTerm) (lead : String) :
    OrderTerm.piecesAll (terms ++ more) lead = OrderTerm.piecesAll terms lead ++
      OrderTerm.piecesAll more (if terms.isEmpty then lead else ", ") := by
  induction terms generalizing lead with
  | nil => rfl
  | cons term rest ih =>
    obtain ⟨expr, direction⟩ := term
    simp [OrderTerm.piecesAll, ih]

theorem OrderTerm.piecesAll_ofSort (term : SortTerm) (rest : List OrderTerm) (lead : String) :
    OrderTerm.piecesAll (.ofSort term :: rest) lead =
      text lead :: (ofColumn (.parse term.field) ++ text (" " ++ term.direction.word) ::
        OrderTerm.piecesAll rest ", ") :=
  rfl

theorem charsAll_ofSort (bound : Nat) (sort : List SortTerm) (lead : String) :
    charsAll bound (OrderTerm.piecesAll (sort.map .ofSort) lead) = (sortText sort lead).toList := by
  induction sort generalizing bound lead with
  | nil => rfl
  | cons term rest ih =>
    simp [OrderTerm.piecesAll_ofSort, charsAll, charsAll_append, charsAll_ofColumn,
      ColumnRef.display_parse, sortText, chars, ih]

theorem charsAll_count (bound : Nat) (word : String) {n : Int64} (fault : CompileFault) (h : 0 ≤ n) :
    charsAll bound [text word, count n fault] = (windowText word (some n)).toList := by
  have hn : (0 : Int) ≤ n.toInt := by simpa using Int64.le_iff_toInt_le.1 h
  have htext : toString n.toInt = toString n.toInt.toNat := by
    conv => lhs; rw [← Int.toNat_of_nonneg hn]
    rfl
  simp [windowText, charsAll, chars, htext]

theorem charsAll_ofLimit (bound : Nat) {limit : Option Int64} (h : ∀ n ∈ limit, 0 ≤ n) :
    charsAll bound (ofLimit limit) = (windowText " LIMIT " limit).toList := by
  cases limit with
  | none => rfl
  | some n => exact charsAll_count bound _ _ (h n rfl)

theorem charsAll_ofOffset (bound : Nat) {offset : Option Int64} (h : ∀ n ∈ offset, 0 ≤ n) :
    charsAll bound (ofOffset offset) = (windowText " OFFSET " offset).toList := by
  cases offset with
  | none => rfl
  | some n => exact charsAll_count bound _ _ (h n rfl)

namespace Select

/-- The statement without its window, which ends with its own order. -/
def unwindowed (s : Select) : Select :=
  { s with limit := none, offset := none }

theorem values_unwindowed (s : Select) : s.unwindowed.values = s.values := by
  cases s
  rfl

/-- The statement under criteria, as one without any: columns are added to its order and its window is
replaced. All else is as it was, the queries within it too. -/
def under (s : Select) (c : Criteria) : Select :=
  { s with
    order := s.order ++ c.sort.map .ofSort
    limit := c.take <|> s.limit
    offset := c.skip <|> s.offset }

/-- What stands between the order of a statement and the first term of criteria. -/
def sortLead (s : Select) : String :=
  if s.order.isEmpty then " ORDER BY " else ", "

theorem pieces_under (s : Select) (c : Criteria) : (s.under c).pieces =
    s.unwindowed.pieces ++ (OrderTerm.piecesAll (c.sort.map .ofSort) s.sortLead ++
      (ofLimit (c.take <|> s.limit) ++ ofOffset (c.skip <|> s.offset))) := by
  have hwindow : ofLimit none ++ ofOffset none = [] := rfl
  rw [pieces_eq, pieces_eq, ofStart_append]
  simp only [under, unwindowed, OrderTerm.piecesAll_append, sortLead, hwindow, List.append_assoc,
    List.cons_append, List.append_nil]
  rfl

theorem build_eq_pieces (s : Select) : s.build =
    match s.pieces.findSome? fault? with
    | some fault => .error (.compile fault)
    | none => .ok ⟨String.ofList (charsAll 0 s.pieces), (Piece.values s.pieces).toArray⟩ := by
  have hcompile := s.compile_eq .default
  rw [arrange_default] at hcompile
  exact hcompile

theorem build_of_sound {s : Select} (h : Sound s.pieces) :
    s.build = .ok ⟨String.ofList (charsAll 0 s.pieces), (Piece.values s.pieces).toArray⟩ := by
  rw [build_eq_pieces, List.findSome?_eq_none_iff.2 h]

/-- A statement under criteria: what it is built to without its window, and behind that the order
and the window that the criteria ask for. No value is bound there, and no query is asked within. -/
structure Arranged (s : Select) (c : Criteria) (static st : Statement) : Prop where
  params : st.params = static.params
  sql : st.sql = static.sql ++ (sortText c.sort s.sortLead ++
    (windowText " LIMIT " (c.take <|> s.limit) ++ windowText " OFFSET " (c.skip <|> s.offset)))
  limit : ∀ n, (c.take <|> s.limit) = some n → 0 ≤ n
  offset : ∀ n, (c.skip <|> s.offset) = some n → 0 ≤ n
  columns : ∀ term ∈ c.sort, NamesColumn term.field
  built : (s.under c).build = .ok st

theorem eq_under_of_arrange {s arranged : Select} {c : Criteria}
    (h : s.arrange c = .ok arranged) : arranged = s.under c := by
  obtain ⟨terms, hterms, rfl⟩ := arrange_eq_ok h
  obtain ⟨rfl, -⟩ := sortTerms_eq_ok hterms
  rfl

theorem build_under {s : Select} {c : Criteria} {st : Statement} (h : s.compile c = .ok st) :
    (s.under c).build = .ok st := by
  obtain ⟨arranged, harrange, -⟩ := compile_eq_ok h
  rw [compile, harrange, eq_under_of_arrange harrange] at h
  rw [build, compile, arrange_default]
  exact h

theorem arranged_of_compile {s : Select} {c : Criteria} {st : Statement}
    (h : s.compile c = .ok st) :
    ∃ static, s.unwindowed.build = .ok static ∧ s.Arranged c static st := by
  obtain ⟨hsort, -⟩ := wellFormed_of_compile h
  obtain ⟨arranged, harrange, hsound, htext, hvalues⟩ := compile_eq_ok h
  -- criteria bind nothing, so the numbers of the placeholders do not matter behind the static text
  rw [values_pieces, arrange_values harrange] at hvalues
  rw [eq_under_of_arrange harrange, pieces_under] at hsound htext
  obtain ⟨hstatic, hadded⟩ := sound_append.1 hsound
  obtain ⟨hlimit, hoffset⟩ := sound_append.1 (sound_append.1 hadded).2
  rw [sound_ofLimit] at hlimit
  rw [sound_ofOffset] at hoffset
  refine ⟨_, build_of_sound hstatic, ?_, ?_, hlimit, hoffset, ?_, build_under h⟩
  · rw [← Array.toList_inj, hvalues, values_pieces, values_unwindowed]
  · rw [charsAll_append, charsAll_append, charsAll_ofSort, charsAll_append,
      charsAll_ofLimit _ hlimit, charsAll_ofOffset _ hoffset] at htext
    simp [← String.toList_inj, htext]
  · exact fun term hterm => namesColumn_of_sortable (hsort term hterm)

theorem arranged_of_compile_twice {s : Select} {c c' : Criteria} {st st' : Statement}
    (h : s.compile c = .ok st) (h' : s.compile c' = .ok st') : st.params = st'.params ∧
      ∃ static, s.unwindowed.build = .ok static ∧ s.Arranged c static st ∧
        s.Arranged c' static st' := by
  obtain ⟨static, hstatic, harranged⟩ := arranged_of_compile h
  obtain ⟨static', hstatic', harranged'⟩ := arranged_of_compile h'
  obtain rfl : static = static' := Except.ok.inj (hstatic.symm.trans hstatic')
  exact ⟨harranged.params.trans harranged'.params.symm, static, hstatic, harranged, harranged'⟩

/-- Of a statement, criteria reach the order and the window alone: two that are compiled bind the same
values and have the same text up to the end of the statement's own order. So have two that a
definition compiles for criteria with the same filters, as its rules are not shown the rest. -/
theorem criteria_reach_order_and_window :
    (∀ (s : Select) (c c' : Criteria) (st st' : Statement),
      s.compile c = .ok st → s.compile c' = .ok st' → st.params = st'.params ∧
        ∃ static, s.unwindowed.build = .ok static ∧ s.Arranged c static st ∧
          s.Arranged c' static st') ∧
    ∀ (d : Definition) (c c' : Criteria) (st st' : Statement), c.filters = c'.filters →
      (d.compile c).outcome = .ok st → (d.compile c').outcome = .ok st' →
        st.params = st'.params ∧ ∃ s static, (d.prepare c).outcome = .ok s ∧
          (d.prepare c').outcome = .ok s ∧ s.unwindowed.build = .ok static ∧
          s.Arranged c static st ∧ s.Arranged c' static st' := by
  refine ⟨fun _ _ _ _ _ => arranged_of_compile_twice, fun d c c' st st' hfilters h h' => ?_⟩
  have hprepare : d.prepare c = d.prepare c' := by
    apply Definition.prepare_congr
    · rw [Criteria.active, Criteria.active, hfilters]
    · rw [Definition.unknownFilters, Definition.unknownFilters, hfilters]
  obtain ⟨s, hs, hcompile⟩ := Definition.compile_eq_ok.1 h
  obtain ⟨s', hs', hcompile'⟩ := Definition.compile_eq_ok.1 h'
  obtain rfl : s = s' := Except.ok.inj (hs.symm.trans (hprepare ▸ hs'))
  obtain ⟨hparams, static, hstatic, harranged, harranged'⟩ :=
    arranged_of_compile_twice hcompile hcompile'
  exact ⟨hparams, s, static, hs, hs', hstatic, harranged, harranged'⟩

/-- Users in an order that binds a value and asks a query of its own, ten of them. -/
def ranked : Select :=
  (((Select.empty.addTable "users" "u").addOrder
    (.coalesce [.column (.qualified "u" "rank"), .bound (.int64 0)]) .descending).addOrder
      (.scalar ((Select.empty.addTable "logins" "").withLimit 1)) .ascending).withLimit 10

def rankedUsers : Definition :=
  { Definition.users .ignore with source := fun _ => ranked }

def thirdFive : Criteria :=
  { Definition.searched.sortBy "u.name" .ascending with take := some 5, skip := some 10 }

def byLastName : Criteria :=
  Definition.searched.sortBy "\"Last.Name\"" .descending

def rankedSql : String :=
  "SELECT * FROM users u ORDER BY COALESCE(u.rank, $1) DESC, (SELECT * FROM logins LIMIT 1) ASC"

theorem ranked_under_both :
    ranked.compile thirdFive = .ok ⟨rankedSql ++ ", u.name ASC LIMIT 5 OFFSET 10", #[.int64 0]⟩ ∧
      ranked.compile byLastName =
        .ok ⟨rankedSql ++ ", \"Last.Name\" DESC LIMIT 10", #[.int64 0]⟩ ∧
      NamesColumn "u.name" ∧ NamesColumn "\"Last.Name\"" ∧
      ∃ st st', (rankedUsers.compile thirdFive).outcome = .ok st ∧
        (rankedUsers.compile byLastName).outcome = .ok st' ∧ st.params = st'.params ∧
        st.params = #[.int64 18, .filter (.text "active"), .int64 0] := by
  have h : ranked.compile thirdFive =
    .ok ⟨rankedSql ++ ", u.name ASC LIMIT 5 OFFSET 10", #[.int64 0]⟩ := rfl
  have h' : ranked.compile byLastName =
    .ok ⟨rankedSql ++ ", \"Last.Name\" DESC LIMIT 10", #[.int64 0]⟩ := rfl
  obtain ⟨-, static, -, hfirst, hlast⟩ := criteria_reach_order_and_window.1 _ _ _ _ _ h h'
  obtain ⟨hparams, -⟩ :=
    criteria_reach_order_and_window.2 rankedUsers thirdFive byLastName _ _ rfl rfl rfl
  exact ⟨h, h', hfirst.columns _ (List.mem_singleton.2 rfl),
    hlast.columns _ (List.mem_singleton.2 rfl), _, _, rfl, rfl, hparams, rfl⟩

end Select
end NamedQuery.Sql
