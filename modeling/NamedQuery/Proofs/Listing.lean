import NamedQuery.Listing.Json
import NamedQuery.Proofs.Bounded
import NamedQuery.Proofs.Json

namespace NamedQuery

open Json (fields? free? required nullable only? Canonical)

theorem Page.ofJson?_toJson (p : Page) : ofJson? p.toJson = some p := by
  have hcurrent : Json.int64? (.int p.current.toInt) = some p.current := int64?_eq_some.2 rfl
  have hrows : Json.int64? (.int p.rows.toInt) = some p.rows := int64?_eq_some.2 rfl
  have hfields : fields? ["current", "rows", "hasNext"] p.toJson =
      some [some (.int p.current.toInt), some (.int p.rows.toInt), some (.bool p.hasNext)] := rfl
  rw [ofJson?, hfields]
  simp only [Option.bind_eq_bind, Option.bind_some, required, hcurrent, hrows]
  rfl

namespace Listing

/-- The names of the members that hold the rows and the page. -/
def taken : List String := ["items", "pagination"]

theorem extras?_cons_of_mem {name : String} (h : name ∈ taken) (value : Json)
    (rest : List (String × Json)) (done : Dict Json) :
    extras? ((name, value) :: rest) done = extras? rest done := by
  rw [extras?, if_pos (by simpa [taken] using h)]

theorem extras?_cons_of_not_mem {name : String} (h : name ∉ taken) (value : Json)
    (rest : List (String × Json)) (done : Dict Json) :
    extras? ((name, value) :: rest) done =
      (free? value).bind fun value => extras? rest (done.insert name value) := by
  rw [extras?, if_neg (by simpa [taken] using h)]
  rfl

/-- Added values are read one behind the other. -/
theorem extras?_eq_some {members : List (String × Json)} {done all : Dict Json}
    (hall : all.entries = done.entries ++ members)
    (hread : ∀ member ∈ members, free? member.2 = some member.2)
    (happart : ∀ member ∈ members, member.1 ∉ taken) : extras? members done = some all := by
  induction members generalizing done with
  | nil =>
    rw [List.append_nil] at hall
    rw [extras?, Dict.ext hall]
  | cons member rest ih =>
    obtain ⟨hmember, hrest⟩ := List.forall_mem_cons.1 hread
    obtain ⟨hname, hnames⟩ := List.forall_mem_cons.1 happart
    have hinsert : (done.insert member.1 member.2).entries = done.entries ++ [member] :=
      Ascending.insertByKey_append (hall ▸ all.ascending)
    rw [extras?_cons_of_not_mem hname, hmember, Option.bind_some]
    refine ih ?_ hrest hnames
    rw [hall, hinsert, List.append_assoc]
    rfl

/-- What is read as an added value does not have a name that is taken. -/
theorem not_mem_keys_of_extras? {members : List (String × Json)} {done extras : Dict Json}
    (h : extras? members done = some extras) {name : String} (htaken : name ∈ taken)
    (hdone : name ∉ done.keys) : name ∉ extras.keys := by
  induction members generalizing done with
  | nil =>
    obtain rfl : done = extras := by simpa [extras?] using h
    exact hdone
  | cons member rest ih =>
    obtain ⟨key, value⟩ := member
    by_cases hkey : key ∈ taken
    · rw [extras?_cons_of_mem hkey] at h
      exact ih h hdone
    · rw [extras?_cons_of_not_mem hkey] at h
      obtain ⟨value, -, h⟩ := Option.bind_eq_some_iff.1 h
      refine ih h ?_
      have hne : name ≠ key := fun heq => hkey (heq ▸ htaken)
      simpa only [Dict.mem_keys, Dict.get?_insert, if_neg hne] using hdone

/-- The members that a listing is written with. -/
def members (l : Listing Json) : List (String × Json) :=
  ("items", .array l.items) ::
    ((l.page.elim [] fun p => [("pagination", p.toJson)]) ++ l.extras.entries)

theorem toJson_eq (l : Listing Json) : l.toJson id = .object l.members := by
  rw [toJson, List.map_id]
  rfl

theorem required_rows_eq_some {α : Type} {read : Json → Option α} {found : Option Json}
    {items : List α} : required (fun j => j.array?.bind (·.mapM read)) found = some items ↔
      ∃ rows, found = some (.array rows) ∧ rows.mapM read = some items := by
  match found with
  | none => simp [required]
  | some (.array rows) => simp [required, Json.array?]
  | some .null | some (.bool _) | some (.int _) | some (.float _) | some (.text _)
  | some (.object _) | some .unreadable => simp [required, Json.array?]

/-- What a listing is read from: its rows and its page from the only members of these names, and the
added values from the others. -/
theorem ofJson?_eq_some {α : Type} {read : Json → Option α} {members : List (String × Json)}
    {l : Listing α} : ofJson? read (.object members) = some l ↔
      (∃ rows, only? members "items" = some (some (.array rows)) ∧ rows.mapM read = some l.items) ∧
      (∃ page, only? members "pagination" = some page ∧
        Json.optional none (nullable Page.ofJson?) page = some l.page) ∧
      extras? members .empty = some l.extras := by
  simp only [ofJson?, Json.object?, Option.bind_eq_bind, Option.bind_eq_some_iff, Option.pure_def,
    Option.some_inj]
  constructor
  · rintro ⟨_, rfl, found, hfound, items, hitems, page, hpage, paged, hpaged, extras, hextras, rfl⟩
    obtain ⟨rows, rfl, hrows⟩ := required_rows_eq_some.1 hitems
    exact ⟨⟨rows, hfound, hrows⟩, ⟨page, hpage, hpaged⟩, hextras⟩
  · rintro ⟨⟨rows, hfound, hrows⟩, ⟨page, hpage, hpaged⟩, hextras⟩
    exact ⟨members, rfl, _, hfound, _, required_rows_eq_some.2 ⟨rows, rfl, hrows⟩, _, hpage, _,
      hpaged, _, hextras, rfl⟩

/-- Whatever a listing is read from, no value that has been added to it has a name that is taken. -/
theorem not_mem_keys_of_ofJson? {α : Type} {read : Json → Option α} {members : List (String × Json)}
    {l : Listing α} (h : ofJson? read (.object members) = some l) {name : String}
    (htaken : name ∈ taken) : name ∉ l.extras.keys := by
  obtain ⟨-, -, hextras⟩ := ofJson?_eq_some.1 h
  exact not_mem_keys_of_extras? hextras htaken List.not_mem_nil

/-- A name that is taken and comes twice leaves nothing to read. -/
theorem ofJson?_of_repeated {α : Type} (read : Json → Option α) {members : List (String × Json)}
    {name : String} (htaken : name ∈ taken) (h : 2 ≤ (members.map (·.1)).count name) :
    ofJson? read (.object members) = none := by
  have hnone : only? members name = none := Json.only?_eq_none.2 h
  rw [Option.eq_none_iff_forall_ne_some]
  intro l hl
  obtain ⟨⟨rows, hrows, -⟩, ⟨page, hpage, -⟩, -⟩ := ofJson?_eq_some.1 hl
  obtain rfl | rfl : name = "items" ∨ name = "pagination" := by simpa [taken] using htaken
  · cases hnone.symm.trans hrows
  · cases hnone.symm.trans hpage

/-- A name that is taken comes twice if an added value has it as well. -/
theorem repeated_of_mem_keys {l : Listing Json}
    (h : "items" ∈ l.extras.keys ∨ "pagination" ∈ l.extras.keys ∧ l.page.isSome = true) :
    ∃ name ∈ taken, 2 ≤ (l.members.map (·.1)).count name := by
  obtain hitems | ⟨hpage, hsome⟩ := h
  · refine ⟨"items", by decide, ?_⟩
    have hcount : 1 ≤ l.extras.keys.count "items" := List.one_le_count_iff.2 hitems
    rw [members, List.map_cons, List.map_append, List.count_cons_self, List.count_append]
    change 2 ≤ _ + l.extras.keys.count "items" + 1
    omega
  · refine ⟨"pagination", by decide, ?_⟩
    have hcount : 1 ≤ l.extras.keys.count "pagination" := List.one_le_count_iff.2 hpage
    obtain ⟨p, hp⟩ := Option.isSome_iff_exists.1 hsome
    rw [members, hp]
    change 2 ≤ ("items" :: "pagination" :: l.extras.keys).count "pagination"
    rw [List.count_cons_of_ne (by decide), List.count_cons_self]
    omega

theorem only?_items {l : Listing Json} (h : "items" ∉ l.extras.keys) :
    only? l.members "items" = some (some (.array l.items)) := by
  rw [members]
  refine Json.only?_cons_of_not_mem ?_ _
  cases l.page with
  | none => exact h
  | some p =>
    have hne : "items" ≠ "pagination" := by decide
    exact List.not_mem_cons_of_ne_of_not_mem hne h

theorem only?_pagination {l : Listing Json} (h : "pagination" ∉ l.extras.keys) :
    only? l.members "pagination" = some (l.page.map Page.toJson) := by
  rw [members, Json.only?_cons_of_ne (by decide)]
  cases l.page with
  | none => exact Json.only?_of_not_mem h
  | some p => exact Json.only?_cons_of_not_mem h _

theorem extras?_members (l : Listing Json) :
    extras? l.members .empty = extras? l.extras.entries .empty := by
  rw [members, extras?_cons_of_mem (by decide)]
  cases l.page with
  | none => rfl
  | some p => exact extras?_cons_of_mem (by decide) ..

theorem optional_page (page : Option Page) :
    Json.optional none (nullable Page.ofJson?) (page.map Page.toJson) = some page :=
  Json.optional_map (fun p => congrArg (Option.map some) p.ofJson?_toJson) page

/-- Where no added value has a name that is taken, everything is read as it was. -/
theorem ofJson?_members {l : Listing Json} (hitems : ∀ item ∈ l.items, item.Canonical)
    (hextras : ∀ e ∈ l.extras.entries, e.2.Canonical) (hkeys : ∀ name ∈ taken, name ∉ l.extras.keys) :
    ofJson? free? (.object l.members) = some l := by
  have hrows : l.items.mapM free? = some l.items :=
    Json.mapM_eq_some_self fun item hitem => (hitems item hitem).free?_eq_self
  have hadded : extras? l.extras.entries .empty = some l.extras := by
    refine extras?_eq_some rfl (fun e he => (hextras e he).free?_eq_self) fun e he htaken => ?_
    exact hkeys e.1 htaken (List.mem_map_of_mem he)
  rw [ofJson?_eq_some, only?_items (hkeys _ (by decide)), only?_pagination (hkeys _ (by decide)),
    extras?_members]
  exact ⟨⟨l.items, rfl, hrows⟩, ⟨_, rfl, optional_page l.page⟩, hadded⟩

/-- What is written of a listing is read as the same listing if no added value has a name that is taken,
and only then. A name that comes twice by that is an error. -/
theorem reads_back_iff {l : Listing Json} (hitems : ∀ item ∈ l.items, item.Canonical)
    (hextras : ∀ e ∈ l.extras.entries, e.2.Canonical) :
    (ofJson? free? (l.toJson id) = some l ↔
      "items" ∉ l.extras.keys ∧ "pagination" ∉ l.extras.keys) ∧
    ("items" ∈ l.extras.keys ∨ "pagination" ∈ l.extras.keys ∧ l.page.isSome = true →
      (∃ members, l.toJson id = .object members ∧ ¬ (members.map (·.1)).Nodup) ∧
        ofJson? free? (l.toJson id) = none) := by
  rw [toJson_eq]
  refine ⟨⟨fun h => ?_, fun ⟨hfirst, hsecond⟩ => ?_⟩, fun h => ?_⟩
  · exact ⟨not_mem_keys_of_ofJson? h (by decide), not_mem_keys_of_ofJson? h (by decide)⟩
  · refine ofJson?_members hitems hextras fun name htaken => ?_
    obtain rfl | rfl : name = "items" ∨ name = "pagination" := by simpa [taken] using htaken
    · exact hfirst
    · exact hsecond
  · obtain ⟨name, htaken, hcount⟩ := repeated_of_mem_keys h
    refine ⟨⟨l.members, rfl, fun hnodup => ?_⟩, ofJson?_of_repeated free? htaken hcount⟩
    have hle := List.nodup_iff_count_le_one.1 hnodup name
    omega

/-- A listing with rows of some shapes, a page and a value beside them. -/
def labelled : Listing Json where
  items := [.object [("id", .int 1), ("tags", .array [.text "a", .null])], .int 2]
  page := some ⟨1, 2, true⟩
  extras := Dict.ofList [("total", .int 9)]

/-- The same listing, with a null under a name that is taken. -/
def crowded : Listing Json :=
  { labelled with extras := labelled.extras.insert "pagination" .null }

theorem labelled_reads_back : (∀ item ∈ labelled.items, item.Canonical) ∧
    (∀ e ∈ labelled.extras.entries, e.2.Canonical) ∧
    (∀ e ∈ crowded.extras.entries, e.2.Canonical) ∧
    ofJson? free? (labelled.toJson id) = some labelled ∧
    ofJson? free? (crowded.toJson id) = none := by
  have htags : (Json.array [.text "a", .null]).Canonical :=
    .array (List.forall_mem_cons.2 ⟨.text, List.forall_mem_singleton.2 .null⟩)
  have hrow : (Json.object [("id", .int 1), ("tags", .array [.text "a", .null])]).Canonical :=
    .object (List.pairwise_pair.2 (by decide))
      (List.forall_mem_cons.2 ⟨.int, List.forall_mem_singleton.2 htags⟩)
  have hitems : ∀ item ∈ labelled.items, item.Canonical :=
    List.forall_mem_cons.2 ⟨hrow, List.forall_mem_singleton.2 .int⟩
  have hextras : ∀ e ∈ labelled.extras.entries, e.2.Canonical :=
    List.forall_mem_singleton.2 .int
  have hcrowded : ∀ e ∈ crowded.extras.entries, e.2.Canonical :=
    List.forall_mem_cons.2 ⟨.null, hextras⟩
  have hread := (reads_back_iff hitems hextras).1.2 ⟨by decide, by decide⟩
  have hunread := (@reads_back_iff crowded hitems hcrowded).2 (.inr ⟨by decide, rfl⟩)
  exact ⟨hitems, hextras, hcrowded, hread, hunread.2⟩

/-- An added value of the shape of a page is read as the page where there is none. -/
example :
    let p : Page := ⟨1, 2, true⟩
    let l : Listing Json := ⟨[], none, Dict.ofList [("pagination", p.toJson)]⟩
    ofJson? free? (l.toJson id) = some ⟨[], some p, .empty⟩ :=
  rfl

end Listing
end NamedQuery
