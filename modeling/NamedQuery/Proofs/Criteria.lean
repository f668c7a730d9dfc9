import NamedQuery.Criteria.Json
import NamedQuery.Proofs.Filter

namespace NamedQuery

open Json (fields? only? nullable present readMembers readMembers_cons)

theorem filters?_eq_readMembers (members : List (String × Json)) (done : Dict FilterValue) :
    (filters? members done).map Dict.entries =
      readMembers FilterValue.ofJson? members done.entries := by
  induction members generalizing done with
  | nil => rfl
  | cons member rest ih =>
    rw [filters?, readMembers_cons]
    cases FilterValue.ofJson? member.2 with
    | none => rfl
    | some value => exact ih _

theorem filters?_eq_some {members : List (String × Json)} {filters : Dict FilterValue} :
    filters? members .empty = some filters ↔
      readMembers FilterValue.ofJson? members [] = some filters.entries := by
  have hentries := filters?_eq_readMembers members .empty
  rw [show Dict.empty.entries = ([] : List (String × FilterValue)) from rfl] at hentries
  rw [← hentries, Option.map_eq_some_iff]
  constructor
  · intro h
    exact ⟨filters, h, rfl⟩
  · rintro ⟨read, hread, heq⟩
    rw [hread, Dict.ext heq]

theorem Sql.Direction.ofJson?_toJson (d : Sql.Direction) : ofJson? d.toJson = some d := by
  cases d <;> rfl

theorem SortTerm.ofJson?_toJson (t : SortTerm) : ofJson? t.toJson = some t := by
  have hfields : fields? ["field", "direction"] t.toJson =
      some [some (.text t.field), some t.direction.toJson] := rfl
  rw [ofJson?, hfields]
  simp only [Option.bind_eq_bind, Option.bind_some, Json.required, Json.text?, Json.optional,
    Sql.Direction.ofJson?_toJson, Option.pure_def]

namespace Criteria

/-- The keys of the maps in its filters ascend, as in all that is read. -/
def Canonical (c : Criteria) : Prop :=
  ∀ e ∈ c.filters.entries, e.2.Canonical

/-- The floats in its filters are finite, at every depth. -/
def Finite (c : Criteria) : Prop :=
  ∀ e ∈ c.filters.entries, e.2.Finite

/-- The fields that may be null. -/
def numbers : List String := ["take", "skip", "page", "rows"]

/-- The field of that name, if there is one, has its default. -/
def HasDefault (c : Criteria) : String → Prop
  | "filters" => c.filters = .empty
  | "sort" => c.sort = []
  | "take" => c.take = none
  | "skip" => c.skip = none
  | "page" => c.page = none
  | "rows" => c.rows = none
  | "noPagination" => c.noPagination = false
  | _ => True

/-- What the members of an object give for a field. -/
def field? {α : Type} (members : List (String × Json)) (name : String) (default : α)
    (read : Json → Option α) : Option α :=
  (only? members name).bind (Json.optional default read)

/-- Each field is what the members of an object give for it. -/
@[mk_iff]
structure Reads (members : List (String × Json)) (c : Criteria) : Prop where
  filters : field? members "filters" .empty (fun j => j.object?.bind (filters? · .empty)) =
    some c.filters
  sort : field? members "sort" [] (fun j => j.array?.bind (·.mapM SortTerm.ofJson?)) = some c.sort
  take : field? members "take" none (nullable Json.int64?) = some c.take
  skip : field? members "skip" none (nullable Json.int64?) = some c.skip
  page : field? members "page" none (nullable Json.int64?) = some c.page
  rows : field? members "rows" none (nullable Json.int64?) = some c.rows
  noPagination : field? members "noPagination" false Json.bool? = some c.noPagination

theorem ofJson?_eq_some {members : List (String × Json)} {c : Criteria} :
    ofJson? (.object members) = some c ↔ Reads members c := by
  simp only [reads_iff, field?, ofJson?, fields?, names, List.mapM_cons, List.mapM_nil,
    Option.bind_eq_bind, Option.bind_eq_some_iff, Option.pure_def, Option.some_inj, ↓existsAndEq,
    and_true, and_assoc]
  constructor
  · rintro ⟨f, s, t, k, p, r, n, hf, hs, ht, hk, hp, hr, hn,
      _, hf', _, hs', _, ht', _, hk', _, hp', _, hr', _, hn', rfl⟩
    exact ⟨⟨f, hf, hf'⟩, ⟨s, hs, hs'⟩, ⟨t, ht, ht'⟩, ⟨k, hk, hk'⟩, ⟨p, hp, hp'⟩, ⟨r, hr, hr'⟩,
      ⟨n, hn, hn'⟩⟩
  · rintro ⟨⟨f, hf, hf'⟩, ⟨s, hs, hs'⟩, ⟨t, ht, ht'⟩, ⟨k, hk, hk'⟩, ⟨p, hp, hp'⟩, ⟨r, hr, hr'⟩,
      ⟨n, hn, hn'⟩⟩
    exact ⟨f, s, t, k, p, r, n, hf, hs, ht, hk, hp, hr, hn,
      _, hf', _, hs', _, ht', _, hk', _, hp', _, hr', _, hn', rfl⟩

/-- The members that a criteria is written with. -/
def table (c : Criteria) : List (String × Option Json) :=
  [("filters", some (.object (c.filters.entries.map fun e => (e.1, e.2.toJson)))),
    ("sort", some (.array (c.sort.map SortTerm.toJson))), ("take", c.take.map fun n => .int n.toInt),
    ("skip", c.skip.map fun n => .int n.toInt), ("page", c.page.map fun n => .int n.toInt),
    ("rows", c.rows.map fun n => .int n.toInt), ("noPagination", some (.bool c.noPagination))]

theorem toJson_eq (c : Criteria) : c.toJson = .object (present c.table) := by
  obtain ⟨filters, sort, take, skip, page, rows, noPagination⟩ := c
  cases take <;> cases skip <;> cases page <;> cases rows <;> rfl

theorem field?_table {α : Type} {c : Criteria} {name : String} {default value : α}
    {read : Json → Option α} (found : Option Json) (h : (name, found) ∈ c.table)
    (hread : Json.optional default read found = some value) :
    field? (present c.table) name default read = some value := by
  have hnames : (c.table.map (·.1)).Nodup := (by decide : names.Nodup)
  rw [field?, Json.only?_present hnames h, Option.bind_some, hread]

theorem optional_number (n : Option Int64) :
    Json.optional none (nullable Json.int64?) (n.map fun n => .int n.toInt) = some n :=
  Json.optional_map (fun _ => congrArg (Option.map some) (int64?_eq_some.2 rfl)) n

theorem ofJson?_toJson {c : Criteria} (hcanonical : c.Canonical) (hfinite : c.Finite) :
    ofJson? c.toJson = some c := by
  have hfilters : filters? (c.filters.entries.map fun e => (e.1, e.2.toJson)) .empty =
      some c.filters :=
    filters?_eq_some.2 <| Json.readMembers_map_eq_self c.filters.ascending
      fun e he => FilterValue.ofJson?_toJson (hcanonical e he) (hfinite e he)
  have hsort : (c.sort.map SortTerm.toJson).mapM SortTerm.ofJson? = some c.sort :=
    Json.mapM_map_eq_some fun t _ => t.ofJson?_toJson
  rw [toJson_eq, ofJson?_eq_some]
  exact
    { filters := field?_table (some (.object _)) (by simp [table]) hfilters
      sort := field?_table (some (.array _)) (by simp [table]) hsort
      take := field?_table _ (by simp [table]) (optional_number c.take)
      skip := field?_table _ (by simp [table]) (optional_number c.skip)
      page := field?_table _ (by simp [table]) (optional_number c.page)
      rows := field?_table _ (by simp [table]) (optional_number c.rows)
      noPagination := field?_table (some (.bool _)) (by simp [table]) rfl }

theorem canonical_of_filters? {members : List (String × Json)} {filters : Dict FilterValue}
    (h : filters? members .empty = some filters) : ∀ e ∈ filters.entries, e.2.Canonical := by
  rw [filters?_eq_some, ← FilterValue.ofJsonMembers?_eq_readMembers] at h
  exact FilterValue.canonicalEntries_iff.1
    (FilterValue.canonicalEntries_of_ofJsonMembers? members ⟨List.Pairwise.nil, trivial⟩ h).2

/-- The keys of the maps in all that is read ascend. -/
theorem canonical_of_ofJson? {j : Json} {c : Criteria} (h : ofJson? j = some c) : c.Canonical := by
  obtain ⟨fields, -, h⟩ := Option.bind_eq_some_iff.1 h
  split at h
  case h_2 => cases h
  case h_1 filters _ _ _ _ _ _ =>
    obtain ⟨read, hread, h⟩ := Option.bind_eq_some_iff.1 h
    simp only [Option.bind_eq_bind, Option.bind_eq_some_iff, Option.pure_def, Option.some_inj] at h
    obtain ⟨_, -, _, -, _, -, _, -, _, -, _, -, rfl⟩ := h
    -- maps are found in the filters alone
    cases filters with
    | none =>
      obtain rfl := Option.some.inj hread
      exact fun e he => absurd he List.not_mem_nil
    | some j =>
      obtain ⟨members, -, hmembers⟩ := Option.bind_eq_some_iff.1 hread
      exact canonical_of_filters? hmembers

section
variable {members more before after : List (String × Json)} {c : Criteria} {key : String}
  {α : Type}

/-- Members of other names are skipped, and those of the fields may come in any order. -/
theorem ofJson?_of_perm (h : (members.filter (·.1 ∈ names)).Perm (more.filter (·.1 ∈ names))) :
    ofJson? (.object members) = ofJson? (.object more) := by
  have honly : ∀ name ∈ names, only? members name = only? more name := by
    intro name hname
    calc only? members name = only? (members.filter (·.1 ∈ names)) name :=
          (Json.only?_filter (· ∈ names) hname members).symm
      _ = only? (more.filter (·.1 ∈ names)) name := Json.only?_of_perm (h.filter _)
      _ = only? more name := Json.only?_filter (· ∈ names) hname more
  have hfields : names.mapM (only? members) = names.mapM (only? more) := Json.mapM_congr honly
  simp only [ofJson?, fields?, hfields]

theorem field?_dropped {name : String} {default value : α} {read : Json → Option α}
    {dropped : List String} (h : field? members name default read = some value)
    (hdefault : name ∈ dropped → value = default) :
    field? (members.filter (·.1 ∉ dropped)) name default read = some value := by
  by_cases hname : name ∈ dropped
  · have habsent : name ∉ (members.filter (·.1 ∉ dropped)).map (·.1) := by
      intro hmem
      obtain ⟨member, hmember, rfl⟩ := List.mem_map.1 hmem
      exact of_decide_eq_true (List.mem_filter.1 hmember).2 hname
    rw [field?, Json.only?_of_not_mem habsent, hdefault hname]
    rfl
  · rwa [field?, Json.only?_filter (· ∉ dropped) hname]

/-- A field that has its default need not be given. -/
theorem ofJson?_of_dropped {dropped : List String} (h : ofJson? (.object members) = some c)
    (hdefault : ∀ name ∈ dropped, c.HasDefault name) :
    ofJson? (.object (members.filter (·.1 ∉ dropped))) = some c := by
  rw [ofJson?_eq_some] at h ⊢
  exact
    { filters := field?_dropped h.filters (hdefault "filters")
      sort := field?_dropped h.sort (hdefault "sort")
      take := field?_dropped h.take (hdefault "take")
      skip := field?_dropped h.skip (hdefault "skip")
      page := field?_dropped h.page (hdefault "page")
      rows := field?_dropped h.rows (hdefault "rows")
      noPagination := field?_dropped h.noPagination (hdefault "noPagination") }

theorem field?_insert_of_ne {name : String} (h : key ≠ name) (value : Json) (default : α)
    (read : Json → Option α) :
    field? (before ++ (key, value) :: after) name default read =
      field? (before ++ after) name default read := by
  rw [field?, field?, Json.only?_of_perm (List.perm_middle.filter _), Json.only?_cons_of_ne h]

theorem field?_insert_null (h : key ∉ (before ++ after).map (·.1)) (name : String)
    (read : Json → Option α) :
    field? (before ++ (key, .null) :: after) name none (nullable read) =
      field? (before ++ after) name none (nullable read) := by
  by_cases hname : key = name
  · subst hname
    rw [field?, field?, Json.only?_of_perm (List.perm_middle.filter _),
      Json.only?_cons_of_not_mem h, Json.only?_of_not_mem h]
    rfl
  · exact field?_insert_of_ne hname ..

/-- A number that is not given may as well be null. -/
theorem ofJson?_of_null (hkey : key ∈ numbers) (habsent : key ∉ (before ++ after).map (·.1))
    (h : ofJson? (.object (before ++ after)) = some c) :
    ofJson? (.object (before ++ (key, .null) :: after)) = some c := by
  have hne {name : String} (hname : name ∉ numbers) : key ≠ name := ne_of_mem_of_not_mem hkey hname
  rw [ofJson?_eq_some] at h ⊢
  exact
    { filters := (field?_insert_of_ne (hne (by decide)) ..).trans h.filters
      sort := (field?_insert_of_ne (hne (by decide)) ..).trans h.sort
      take := (field?_insert_null habsent ..).trans h.take
      skip := (field?_insert_null habsent ..).trans h.skip
      page := (field?_insert_null habsent ..).trans h.page
      rows := (field?_insert_null habsent ..).trans h.rows
      noPagination := (field?_insert_of_ne (hne (by decide)) ..).trans h.noPagination }

end

/-- What is written of a criteria is read as the same criteria if its floats are finite, and of a
value likewise; an exact document that is read as a value is written as that document again. To an
object that is read as a criteria, members of other names, a member for a field with its default and
null for a number that is not given make no difference. -/
theorem documents_read_back :
    (∀ c : Criteria, c.Canonical → c.Finite → ofJson? c.toJson = some c) ∧
    (∀ v : FilterValue, v.Canonical → v.Finite → FilterValue.ofJson? v.toJson = some v) ∧
    (∀ j c, ofJson? j = some c → c.Canonical) ∧
    (∀ j v, FilterValue.ofJson? j = some v → v.Canonical) ∧
    (∀ j : Json, j.Canonical → j.Exact → ∃ v, FilterValue.ofJson? j = some v ∧ v.toJson = j) ∧
    ∀ members c, ofJson? (.object members) = some c →
      (∀ more, (more.filter (·.1 ∈ names)).Perm (members.filter (·.1 ∈ names)) →
        ofJson? (.object more) = some c) ∧
      (∀ dropped : List String, (∀ name ∈ dropped, c.HasDefault name) →
        ofJson? (.object (members.filter (·.1 ∉ dropped))) = some c) ∧
      ∀ key ∈ numbers, key ∉ members.map (·.1) → ∀ before after, members = before ++ after →
        ofJson? (.object (before ++ (key, .null) :: after)) = some c := by
  refine ⟨fun c => ofJson?_toJson, fun v => FilterValue.ofJson?_toJson,
    fun j c => canonical_of_ofJson?, fun j v => FilterValue.canonical_of_ofJson? j,
    fun j hcanonical hexact => ?_, fun members c h => ⟨fun more hperm => ?_, fun dropped => ?_, ?_⟩⟩
  · have hread := FilterValue.toJson_ofJson? hexact
    rw [hcanonical.free?_eq_self] at hread
    exact Option.map_eq_some_iff.1 hread
  · exact (ofJson?_of_perm hperm).trans h
  · exact ofJson?_of_dropped h
  · rintro key hkey habsent before after rfl
    exact ofJson?_of_null hkey habsent h

/-- The second page of the newest in a range, with values of all shapes to filter by. -/
def newest : Criteria where
  filters := Dict.ofList [("ids", .list [.int 1, .float 1, .null]),
    ("made", .map [("from", .text "2024"), ("open", .bool true)])]
  sort := [⟨"u.created_at", .descending⟩]
  take := none
  skip := none
  page := some 2
  rows := none
  noPagination := false

theorem newest_reads_back : newest.Canonical ∧ newest.Finite ∧
    ofJson? newest.toJson = some newest ∧
    ofJson? (.object (("trace", .bool true) :: present newest.table)) = some newest ∧
    ofJson? (.object ((present newest.table).filter (·.1 ∉ ["noPagination"]))) = some newest ∧
    ofJson? (.object (("rows", .null) :: present newest.table)) = some newest ∧
    ∃ v, FilterValue.ofJson? (.array [.int 1, .float 1]) = some v ∧
      v.toJson = .array [.int 1, .float 1] := by
  obtain ⟨hback, -, -, -, hvalue, hmembers⟩ := documents_read_back
  have hcanonical : newest.Canonical :=
    List.forall_mem_cons.2 ⟨⟨trivial, trivial, trivial, trivial⟩, List.forall_mem_singleton.2
      ⟨List.pairwise_pair.2 (by decide), trivial, trivial, trivial⟩⟩
  have hfinite : newest.Finite := by
    refine List.forall_mem_cons.2 ⟨.list ?_, List.forall_mem_singleton.2 (.map ?_)⟩
    · exact List.forall_mem_cons.2 ⟨.int, List.forall_mem_cons.2 ⟨.float (by decide),
        List.forall_mem_singleton.2 .null⟩⟩
    · exact List.forall_mem_cons.2 ⟨.text, List.forall_mem_singleton.2 .bool⟩
  have hread := hback newest hcanonical hfinite
  obtain ⟨hmore, hdropped, hnull⟩ :=
    hmembers (present newest.table) newest (toJson_eq newest ▸ hread)
  refine ⟨hcanonical, hfinite, hread, hmore _ (.of_eq rfl),
    hdropped ["noPagination"] (List.forall_mem_singleton.2 rfl),
    hnull "rows" (by decide) (by decide) [] _ rfl, ?_⟩
  have hitems : ∀ item ∈ [Json.int 1, .float 1], item.Canonical ∧ item.Exact :=
    List.forall_mem_cons.2 ⟨⟨.int, .int (by decide) (by decide)⟩,
      List.forall_mem_singleton.2 ⟨.float, .float (by decide)⟩⟩
  exact hvalue _ (.array fun item hitem => (hitems item hitem).1)
    (.array fun item hitem => (hitems item hitem).2)

end Criteria
end NamedQuery
