import NamedQuery.Proofs.Sql.ColumnRef
import NamedQuery.Proofs.Sql.WellFormed

namespace NamedQuery.Sql

open Piece

/-- The texts that name a column, or all columns. -/
inductive ColumnText : String → Prop
  | name {name : String} (segment : Segment name.toList) : ColumnText name
  | wildcard : ColumnText "*"
  | qualified {table name : String} (segment : Segment table.toList)
      (name_segment : Segment name.toList) : ColumnText (table ++ "." ++ name)
  | qualifiedWildcard {table : String} (segment : Segment table.toList) :
      ColumnText (table ++ "." ++ "*")

/-- Segments with dots between them, one at least. -/
def TableText (text : String) : Prop :=
  ∃ parts : List String, parts ≠ [] ∧ (∀ part ∈ parts, Segment part.toList) ∧
    text = ".".intercalate parts

namespace ColumnRef

theorem isPart_name {c : ColumnRef} (h : c.WellFormed) : IsPart c.name.toList := by
  obtain hname | hname := h.2
  · rw [hname]
    exact isPart_wildcard
  · exact hname.isPart

/-- A column that can be written is read from the text that shows it. -/
theorem parse_display {c : ColumnRef} (h : c.WellFormed) : parse c.display = c := by
  have hname := isPart_name h
  obtain ⟨table, name⟩ := c
  cases table with
  | none =>
    have hparts : segments name = [name] := by
      simpa using segments_intercalate (List.cons_ne_nil name []) (List.forall_mem_singleton.2 hname)
    rw [display_unqualified, parse, hparts]
    rfl
  | some table =>
    have htable : IsPart table.toList := (h.1 table rfl).isPart
    have hparts : segments (table ++ "." ++ name) = [table, name] := by
      simpa using segments_intercalate (List.cons_ne_nil table [name])
        (List.forall_mem_cons.2 ⟨htable, List.forall_mem_singleton.2 hname⟩)
    rw [display_qualified, parse, hparts]
    simp [qualified]

theorem columnText_display {c : ColumnRef} (h : c.WellFormed) : ColumnText c.display := by
  obtain ⟨table, name⟩ := c
  obtain ⟨htable, rfl | hname⟩ := h
  · cases table with
    | none => exact .wildcard
    | some table => exact .qualifiedWildcard (htable table rfl)
  · cases table with
    | none => exact .name hname
    | some table => exact .qualified (htable table rfl) hname

theorem exists_of_columnText {text : String} (h : ColumnText text) :
    ∃ c : ColumnRef, c.WellFormed ∧ c.display = text := by
  cases h with
  | name segment => exact ⟨⟨none, _⟩, ⟨nofun, .inr segment⟩, rfl⟩
  | wildcard => exact ⟨⟨none, "*"⟩, ⟨nofun, .inl rfl⟩, rfl⟩
  | qualified segment name_segment =>
    exact ⟨⟨some _, _⟩, ⟨by simpa using segment, .inr name_segment⟩, rfl⟩
  | qualifiedWildcard segment =>
    exact ⟨⟨some _, "*"⟩, ⟨by simpa using segment, .inl rfl⟩, rfl⟩

/-- The texts from which a column is read that can be written. -/
theorem wellFormed_parse {text : String} : (parse text).WellFormed ↔ ColumnText text := by
  constructor
  · intro h
    exact display_parse text ▸ columnText_display h
  · intro h
    obtain ⟨c, hc, rfl⟩ := exists_of_columnText h
    rwa [parse_display hc]

end ColumnRef

theorem charsAll_ofColumn (bound : Nat) (c : ColumnRef) :
    charsAll bound (ofColumn c) = c.display.toList := by
  obtain ⟨table, name⟩ := c
  by_cases hname : name = "*" <;> cases table <;>
    simp [ofColumn, ColumnRef.isWildcard, hname, charsAll, chars]

theorem charsAll_ofSegments (bound : Nat) (part : String) (rest : List String) (lead : String) :
    charsAll bound (ofSegments (part :: rest) lead) =
      lead.toList ++ (".".intercalate (part :: rest)).toList := by
  induction rest generalizing bound part lead with
  | nil => simp [ofSegments, charsAll, chars]
  | cons next more ih =>
    rw [ofSegments, charsAll, charsAll, ih]
    simp [chars]

theorem values_ofSegments (parts : List String) (lead : String) :
    values (ofSegments parts lead) = [] := by
  induction parts generalizing lead with
  | nil => rfl
  | cons part rest ih => exact ih "."

/-- A table's name with its alias. -/
def tableText (name : String) (label : Option String) : String :=
  name ++ label.elim "" (" " ++ ·)

namespace Writer

theorem append_ofColumn (w : Writer) (c : ColumnRef) :
    w.append (ofColumn c) = ⟨w.text ++ c.display, w.params⟩ := by
  have hvalues : values (ofColumn c) = [] := by
    obtain ⟨table, name⟩ := c
    by_cases hname : name = "*" <;> cases table <;>
      simp [ofColumn, ColumnRef.isWildcard, hname, values, value?]
  simp [append, charsAll_ofColumn, hvalues]

theorem append_ofTable (w : Writer) (name : String) (label : Option String) :
    w.append (ofTable name label) = ⟨w.text ++ tableText name label, w.params⟩ := by
  have hvalues : values (ofTable name label) = [] := by
    cases label <;> simp only [ofTable, values_append, values_ofSegments] <;> rfl
  have hchars : charsAll w.params.size (ofSegments (Sql.segments name) "") = name.toList := by
    obtain ⟨part, rest, hsegments⟩ := List.exists_cons_of_ne_nil (segments_ne_nil name)
    rw [hsegments, charsAll_ofSegments, ← hsegments, intercalate_segments]
    rfl
  rw [append, hvalues]
  cases label <;> simp [ofTable, tableText, charsAll_append, hchars, charsAll, chars]

theorem column_eq_ok {w w' : Writer} {c : ColumnRef} :
    w.column c = .ok w' ↔ c.WellFormed ∧ w' = ⟨w.text ++ c.display, w.params⟩ := by
  rw [column_eq]
  constructor
  · intro h
    obtain ⟨hsound, rfl⟩ := writeAll_eq_ok h
    exact ⟨(sound_ofColumn c).1 hsound, w.append_ofColumn c⟩
  · rintro ⟨h, rfl⟩
    rw [writeAll_of_sound ((sound_ofColumn c).2 h), append_ofColumn]

theorem table_eq_ok {w w' : Writer} {name : String} {label : Option String} :
    w.table name label = .ok w' ↔
      TableWellFormed name label ∧ w' = ⟨w.text ++ tableText name label, w.params⟩ := by
  rw [table_eq]
  constructor
  · intro h
    obtain ⟨hsound, rfl⟩ := writeAll_eq_ok h
    exact ⟨(sound_ofTable name label).1 hsound, w.append_ofTable name label⟩
  · rintro ⟨h, rfl⟩
    rw [writeAll_of_sound ((sound_ofTable name label).2 h), append_ofTable]

/-- What was written behind a text is known from the whole. -/
theorem text_inj {w : Writer} {text other : String}
    (h : (⟨w.text ++ text, w.params⟩ : Writer) = ⟨w.text ++ other, w.params⟩) : text = other :=
  (String.append_right_inj _).1 (congrArg Writer.text h)

end Writer

theorem segments_of_segments {parts : List String} (hne : parts ≠ [])
    (h : ∀ part ∈ parts, Segment part.toList) : segments (".".intercalate parts) = parts :=
  segments_intercalate hne fun part hpart => (h part hpart).isPart

theorem segments_all_iff {name : String} :
    (∀ segment ∈ segments name, Segment segment.toList) ↔ TableText name := by
  constructor
  · intro h
    exact ⟨segments name, segments_ne_nil name, h, (intercalate_segments name).symm⟩
  · rintro ⟨parts, hne, hparts, rfl⟩
    rwa [segments_of_segments hne hparts]

/-- A column is shown as it was given, and written as it was given when it is one segment or `*`, alone
or behind a table's segment. What is written of a column names no other. A table's name is written as it
was given when it is segments with dots between them, and these are the dots it is split at. -/
theorem dotted_names_as_given :
    (∀ text, (ColumnRef.parse text).display = text) ∧
    (∀ (w w' : Writer) (text : String),
      w.column (.parse text) = .ok w' ↔ ColumnText text ∧ w' = ⟨w.text ++ text, w.params⟩) ∧
    (∀ (w w' : Writer) (c : ColumnRef), w.column c = .ok w' →
      ∃ text, w' = ⟨w.text ++ text, w.params⟩ ∧ ColumnRef.parse text = c) ∧
    (∀ (w w' : Writer) (c c' : ColumnRef), w.column c = .ok w' → w.column c' = .ok w' → c = c') ∧
    (∀ (w w' : Writer) (name : String) (label : Option String), w.table name label = .ok w' ↔
      TableText name ∧ (∀ l ∈ label, Segment l.toList) ∧
        w' = ⟨w.text ++ tableText name label, w.params⟩) ∧
    ∀ parts : List String, parts ≠ [] → (∀ part ∈ parts, Segment part.toList) →
      segments (".".intercalate parts) = parts := by
  have hread {w w' : Writer} {c : ColumnRef} (h : w.column c = .ok w') :
      w' = ⟨w.text ++ c.display, w.params⟩ ∧ ColumnRef.parse c.display = c := by
    obtain ⟨hc, rfl⟩ := Writer.column_eq_ok.1 h
    exact ⟨rfl, ColumnRef.parse_display hc⟩
  refine ⟨ColumnRef.display_parse, fun w w' text => ?_, fun w w' c h => ⟨_, hread h⟩,
    fun w w' c c' h h' => ?_, fun w w' name label => ?_, fun parts => segments_of_segments⟩
  · rw [Writer.column_eq_ok, ColumnRef.wellFormed_parse, ColumnRef.display_parse]
  · obtain ⟨rfl, hparse⟩ := hread h
    obtain ⟨htext, hparse'⟩ := hread h'
    rw [← hparse, Writer.text_inj htext, hparse']
  · rw [Writer.table_eq_ok, TableWellFormed, segments_all_iff, and_assoc]

/-- A column whose names hold dots and quotes. -/
def dottedColumn : ColumnRef := .qualified "\"a.b\"" "\"c\"\".\"\"d\""

def dottedColumnText : String := "\"a.b\".\"c\"\".\"\"d\""

theorem dottedColumn_as_given :
    Writer.empty.column dottedColumn = .ok ⟨dottedColumnText, #[]⟩ ∧
      ColumnRef.parse dottedColumnText = dottedColumn ∧
      (∀ c, Writer.empty.column c = .ok ⟨dottedColumnText, #[]⟩ → dottedColumn = c) ∧
      segments "shop.\"Order.Items\"" = ["shop", "\"Order.Items\""] := by
  have hwrite : Writer.empty.column dottedColumn = .ok ⟨dottedColumnText, #[]⟩ := rfl
  have hshop : ∀ part ∈ ["shop", "\"Order.Items\""], Segment part.toList :=
    List.forall_mem_cons.2 ⟨Ident.parse_isOk_iff.1 ⟨.plain "shop", by decide⟩,
      List.forall_mem_singleton.2 (Ident.parse_isOk_iff.1 ⟨.quoted "Order.Items", by decide⟩)⟩
  obtain ⟨-, -, hread, hinj, -, hsegments⟩ := dotted_names_as_given
  obtain ⟨text, htext, hparse⟩ := hread _ _ _ hwrite
  obtain rfl : dottedColumnText = text := congrArg Writer.text htext
  exact ⟨hwrite, hparse, fun c => hinj _ _ _ _ hwrite,
    hsegments ["shop", "\"Order.Items\""] (List.cons_ne_nil _ _) hshop⟩

end NamedQuery.Sql
