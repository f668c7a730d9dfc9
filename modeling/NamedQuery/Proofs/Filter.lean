import NamedQuery.Filter.Json
import NamedQuery.Proofs.Bounded
import NamedQuery.Proofs.Json

namespace NamedQuery

open Json (readMembers readMembers_cons)

/-- At every depth the integers of a document are words of 64 bits and its floats are finite. -/
inductive Json.Exact : Json → Prop
  | null : Exact .null
  | bool {value : Bool} : Exact (.bool value)
  | int {n : Int} (low : -2 ^ 63 ≤ n) (high : n < 2 ^ 63) : Exact (.int n)
  | float {x : Float} (finite : x.isFinite) : Exact (.float x)
  | text {value : String} : Exact (.text value)
  | array {items : List Json} (items_exact : ∀ item ∈ items, Exact item) : Exact (.array items)
  | object {members : List (String × Json)} (members_exact : ∀ member ∈ members, Exact member.2) :
      Exact (.object members)

theorem int64?_of_fits {n : Int} (low : -2 ^ 63 ≤ n) (high : n < 2 ^ 63) :
    ∃ m : Int64, int64? n = some m ∧ m.toInt = n := by
  have htoInt : (Int64.ofInt n).toInt = n := Int64.toInt_ofInt_of_le low high
  exact ⟨Int64.ofInt n, int64?_eq_some.2 htoInt, htoInt⟩

section
variable {α : Type} {β : Type}

theorem insertByKey_map (f : α → β) (key : String) (value : α) (entries : List (String × α)) :
    (insertByKey key value entries).map (fun e => (e.1, f e.2)) =
      insertByKey key (f value) (entries.map fun e => (e.1, f e.2)) := by
  induction entries with
  | nil => rfl
  | cons e rest ih =>
    simp only [insertByKey, List.map_cons]
    split
    · rfl
    · split
      · rfl
      · rw [List.map_cons, ih]

theorem readMembers_map_of_forall {read : Json → Option α} {write : α → β}
    {whole : Json → Option β} {members : List (String × Json)}
    (h : ∀ member ∈ members, (read member.2).map write = whole member.2)
    (done : List (String × α)) :
    (readMembers read members done).map (List.map fun e => (e.1, write e.2)) =
      readMembers whole members (done.map fun e => (e.1, write e.2)) := by
  induction members generalizing done with
  | nil => rfl
  | cons member rest ih =>
    obtain ⟨hmember, hrest⟩ := List.forall_mem_cons.1 h
    rw [readMembers_cons, readMembers_cons, ← hmember]
    cases read member.2 with
    | none => rfl
    | some value =>
      simp only [Option.map_some, Option.bind_some, ← insertByKey_map, ih hrest]

end

namespace FilterValue

/-- At every depth the floats of a value are finite. -/
inductive Finite : FilterValue → Prop
  | null : Finite .null
  | bool {value : Bool} : Finite (.bool value)
  | int {value : Int64} : Finite (.int value)
  | float {value : Float} (finite : value.isFinite) : Finite (.float value)
  | text {value : String} : Finite (.text value)
  | list {items : List FilterValue} (items_finite : ∀ item ∈ items, Finite item) :
      Finite (.list items)
  | map {entries : List (String × FilterValue)} (entries_finite : ∀ e ∈ entries, Finite e.2) :
      Finite (.map entries)

theorem canonicalItems_iff {items : List FilterValue} :
    CanonicalItems items ↔ ∀ item ∈ items, item.Canonical := by
  induction items with
  | nil => simp [CanonicalItems]
  | cons item rest ih => rw [CanonicalItems, ih, List.forall_mem_cons]

theorem canonicalEntries_iff {entries : List (String × FilterValue)} :
    CanonicalEntries entries ↔ ∀ e ∈ entries, e.2.Canonical := by
  induction entries with
  | nil => simp [CanonicalEntries]
  | cons e rest ih => rw [CanonicalEntries, ih, List.forall_mem_cons]

theorem toJsonItems_eq_map (items : List FilterValue) : toJsonItems items = items.map toJson := by
  induction items with
  | nil => rfl
  | cons item rest ih => rw [toJsonItems, ih, List.map_cons]

theorem toJsonEntries_eq_map (entries : List (String × FilterValue)) :
    toJsonEntries entries = entries.map fun e => (e.1, e.2.toJson) := by
  induction entries with
  | nil => rfl
  | cons e rest ih => rw [toJsonEntries, ih, List.map_cons]

theorem ofJsonItems?_eq_mapM (items : List Json) : ofJsonItems? items = items.mapM ofJson? := by
  induction items with
  | nil => rfl
  | cons item rest ih => rw [ofJsonItems?, List.mapM_cons, ih]

theorem ofJsonMembers?_eq_readMembers (members : List (String × Json))
    (done : List (String × FilterValue)) :
    ofJsonMembers? members done = readMembers ofJson? members done := by
  induction members generalizing done with
  | nil => rfl
  | cons member rest ih =>
    rw [readMembers_cons, ofJsonMembers?]
    exact congrArg _ (funext fun value => ih _)

/-- A value is read as it was written, if its floats are finite. -/
theorem ofJson?_toJson {v : FilterValue} (hcanonical : v.Canonical) (hfinite : v.Finite) :
    ofJson? v.toJson = some v := by
  induction hfinite with
  | null | bool | text => rfl
  | @int n =>
    have hn : int64? n.toInt = some n := int64?_eq_some.2 rfl
    rw [toJson, ofJson?, hn, Option.elim_some]
  | float finite => rw [toJson, if_pos finite, ofJson?]
  | list _ ih =>
    have hitems := canonicalItems_iff.1 hcanonical
    rw [toJson, toJsonItems_eq_map, ofJson?, ofJsonItems?_eq_mapM,
      Json.mapM_map_eq_some fun item hitem => ih item hitem (hitems item hitem), Option.map_some]
  | map _ ih =>
    obtain ⟨hascending, hentries⟩ := hcanonical
    have hread := Json.readMembers_map_eq_self hascending
      fun e he => ih e he (canonicalEntries_iff.1 hentries e he)
    rw [toJson, toJsonEntries_eq_map, ofJson?, ofJsonMembers?_eq_readMembers, hread, Option.map_some]

/-- What is read of an exact document is written as that document, with its members in key order. -/
theorem toJson_ofJson? {j : Json} (h : j.Exact) : (ofJson? j).map toJson = j.free? := by
  induction h with
  | null | bool | text => rfl
  | int low high =>
    obtain ⟨m, hm, rfl⟩ := int64?_of_fits low high
    rw [ofJson?, hm]
    rfl
  | float finite => rw [ofJson?, Option.map_some, toJson, if_pos finite]; rfl
  | @array items _ ih =>
    rw [ofJson?, Json.free?, ofJsonItems?_eq_mapM, Json.freeItems?_eq_mapM,
      ← Json.mapM_map_of_forall ih]
    cases items.mapM ofJson? with
    | none => rfl
    | some values => simp [toJson, toJsonItems_eq_map]
  | @object members _ ih =>
    have hread := readMembers_map_of_forall ih []
    rw [ofJson?, Json.free?, ofJsonMembers?_eq_readMembers, Json.freeMembers?_eq_readMembers]
    rw [List.map_nil] at hread
    rw [← hread]
    cases readMembers ofJson? members [] with
    | none => rfl
    | some entries => simp [toJson, toJsonEntries_eq_map]

theorem canonical_insertByKey {key : String} {value : FilterValue}
    {entries : List (String × FilterValue)} (hvalue : value.Canonical)
    (h : (map entries).Canonical) : (map (insertByKey key value entries)).Canonical := by
  obtain ⟨hascending, hentries⟩ := h
  refine ⟨ascending_insertByKey key value hascending, canonicalEntries_iff.2 fun e he => ?_⟩
  obtain rfl | he := mem_insertByKey he
  · exact hvalue
  · exact canonicalEntries_iff.1 hentries e he

mutual
/-- The keys of a map that has been read ascend, at every depth. -/
theorem canonical_of_ofJson? : ∀ (j : Json) {v : FilterValue}, ofJson? j = some v → v.Canonical
  | .array items, v, h => by
    rw [ofJson?] at h
    obtain ⟨values, hvalues, rfl⟩ := Option.map_eq_some_iff.1 h
    exact canonicalItems_of_ofJsonItems? items hvalues
  | .object members, v, h => by
    rw [ofJson?] at h
    obtain ⟨entries, hentries, rfl⟩ := Option.map_eq_some_iff.1 h
    exact canonicalEntries_of_ofJsonMembers? members ⟨List.Pairwise.nil, trivial⟩ hentries
  | .null, v, h | .bool _, v, h | .float _, v, h | .text _, v, h => by
    rw [ofJson?] at h
    obtain rfl := Option.some.inj h
    trivial
  | .int n, v, h => by
    rw [ofJson?] at h
    obtain rfl := Option.some.inj h
    cases int64? n <;> trivial

theorem canonicalItems_of_ofJsonItems? : ∀ (items : List Json) {values : List FilterValue},
    ofJsonItems? items = some values → CanonicalItems values
  | [], values, h => by
    rw [ofJsonItems?] at h
    obtain rfl := Option.some.inj h
    trivial
  | item :: rest, values, h => by
    rw [ofJsonItems?] at h
    obtain ⟨value, hvalue, h⟩ := Option.bind_eq_some_iff.1 h
    obtain ⟨more, hmore, h⟩ := Option.bind_eq_some_iff.1 h
    obtain rfl := Option.some.inj h
    exact ⟨canonical_of_ofJson? item hvalue, canonicalItems_of_ofJsonItems? rest hmore⟩

theorem canonicalEntries_of_ofJsonMembers? : ∀ (members : List (String × Json))
    {done entries : List (String × FilterValue)}, (map done).Canonical →
      ofJsonMembers? members done = some entries → (map entries).Canonical
  | [], done, entries, hdone, h => by
    rw [ofJsonMembers?] at h
    obtain rfl := Option.some.inj h
    exact hdone
  | (key, value) :: rest, done, entries, hdone, h => by
    rw [ofJsonMembers?] at h
    obtain ⟨v, hv, h⟩ := Option.bind_eq_some_iff.1 h
    exact canonicalEntries_of_ofJsonMembers? rest
      (canonical_insertByKey (canonical_of_ofJson? value hv) hdone) h
end

end FilterValue
end NamedQuery
