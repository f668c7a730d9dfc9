import NamedQuery.Json.Read
import NamedQuery.Proofs.Dict

namespace NamedQuery.Json

/-- A value as it is held in memory: the members of its objects come in key order, each key once, and
nothing in it is unreadable. -/
inductive Canonical : Json → Prop
  | null : Canonical .null
  | bool {value : Bool} : Canonical (.bool value)
  | int {value : Int} : Canonical (.int value)
  | float {value : Float} : Canonical (.float value)
  | text {value : String} : Canonical (.text value)
  | array {items : List Json} (items_canonical : ∀ item ∈ items, Canonical item) :
      Canonical (.array items)
  | object {members : List (String × Json)} (ascending : Ascending members)
      (members_canonical : ∀ member ∈ members, Canonical member.2) : Canonical (.object members)

theorem freeItems?_eq_mapM (items : List Json) : freeItems? items = items.mapM free? := by
  induction items with
  | nil => rfl
  | cons item rest ih =>
    rw [freeItems?, List.mapM_cons, ih]

section
universe u v w

variable {α : Type u} {β : Type v}

theorem mapM_map_eq_some {write : α → β} {read : β → Option α} {items : List α}
    (h : ∀ item ∈ items, read (write item) = some item) :
    (items.map write).mapM read = some items := by
  induction items with
  | nil => rfl
  | cons item rest ih =>
    obtain ⟨hitem, hrest⟩ := List.forall_mem_cons.1 h
    rw [List.map_cons, List.mapM_cons, hitem, ih hrest]
    rfl

theorem mapM_eq_some_self {read : α → Option α} {items : List α}
    (h : ∀ item ∈ items, read item = some item) : items.mapM read = some items := by
  simpa using mapM_map_eq_some h

theorem mapM_map_of_forall {ι : Type w} {read : ι → Option α} {write : α → β} {whole : ι → Option β}
    {items : List ι} (h : ∀ item ∈ items, (read item).map write = whole item) :
    (items.mapM read).map (List.map write) = items.mapM whole := by
  induction items with
  | nil => rfl
  | cons item rest ih =>
    obtain ⟨hitem, hrest⟩ := List.forall_mem_cons.1 h
    rw [List.mapM_cons, List.mapM_cons, ← hitem, ← ih hrest]
    cases read item with
    | none => rfl
    | some value => cases rest.mapM read <;> rfl

theorem mapM_congr {f g : α → Option β} {items : List α} (h : ∀ item ∈ items, f item = g item) :
    items.mapM f = items.mapM g := by
  have hmap : ∀ item ∈ items, (f item).map id = g item := by simpa using h
  simpa using mapM_map_of_forall hmap

/-- Members that are read one after the other, each put in its place by its name. Of members with the
same name the last one counts. -/
def readMembers (read : Json → Option α) (members : List (String × Json))
    (done : List (String × α)) : Option (List (String × α)) :=
  members.foldlM (fun done member => (read member.2).map (insertByKey member.1 · done)) done

theorem readMembers_cons (read : Json → Option α) (member : String × Json)
    (rest : List (String × Json)) (done : List (String × α)) :
    readMembers read (member :: rest) done =
      (read member.2).bind fun value => readMembers read rest (insertByKey member.1 value done) := by
  rw [readMembers, List.foldlM_cons]
  cases read member.2 <;> rfl

/-- Members in key order are put in one behind the other. -/
theorem readMembers_map_eq_append {write : α → Json} {read : Json → Option α}
    {entries done : List (String × α)} (ascending : Ascending (done ++ entries))
    (h : ∀ e ∈ entries, read (write e.2) = some e.2) :
    readMembers read (entries.map fun e => (e.1, write e.2)) done = some (done ++ entries) := by
  induction entries generalizing done with
  | nil => rw [List.append_nil]; rfl
  | cons e rest ih =>
    obtain ⟨he, hrest⟩ := List.forall_mem_cons.1 h
    have hsplit : done ++ e :: rest = (done ++ [e]) ++ rest := by simp
    rw [List.map_cons, readMembers_cons, he, Option.bind_some, ascending.insertByKey_append, hsplit]
    exact ih (hsplit ▸ ascending) hrest

theorem readMembers_map_eq_self {write : α → Json} {read : Json → Option α}
    {entries : List (String × α)} (ascending : Ascending entries)
    (h : ∀ e ∈ entries, read (write e.2) = some e.2) :
    readMembers read (entries.map fun e => (e.1, write e.2)) [] = some entries :=
  @readMembers_map_eq_append _ write read entries [] ascending h

end

theorem freeMembers?_eq_readMembers (members done : List (String × Json)) :
    freeMembers? members done = readMembers free? members done := by
  induction members generalizing done with
  | nil => rfl
  | cons member rest ih =>
    rw [readMembers_cons, freeMembers?]
    exact congrArg _ (funext fun value => ih _)

/-- Reading a value that is held in memory gives the same value. -/
theorem Canonical.free?_eq_self {value : Json} (h : Canonical value) : free? value = some value := by
  induction h with
  | array _ ih => rw [free?, freeItems?_eq_mapM, mapM_eq_some_self ih, Option.map_some]
  | @object members ascending _ ih =>
    have hmembers : readMembers free? members [] = some members := by
      simpa using @readMembers_map_eq_self _ id free? members ascending ih
    rw [free?, freeMembers?_eq_readMembers, hmembers, Option.map_some]
  | null | bool | int | float | text => rfl

/-- A member that is left out where there is no value is read as that. -/
theorem optional_map {α : Type} {write : α → Json} {read : Json → Option (Option α)}
    (h : ∀ a, read (write a) = some (some a)) (value : Option α) :
    optional none read (value.map write) = some value := by
  cases value with
  | none => rfl
  | some a => exact h a

theorem only?_eq_none {members : List (String × Json)} {name : String} :
    only? members name = none ↔ 2 ≤ (members.map (·.1)).count name := by
  have hcount : (members.map (·.1)).count name = (members.filter (·.1 == name)).length := by
    rw [List.count, List.countP_map, List.countP_eq_length_filter]
    rfl
  rw [hcount, only?]
  generalize members.filter (·.1 == name) = found
  obtain _ | ⟨member, _ | ⟨other, more⟩⟩ := found
  · simp
  · simp
  · simp

theorem filter_of_not_mem {members : List (String × Json)} {name : String}
    (h : name ∉ members.map (·.1)) : members.filter (·.1 == name) = [] := by
  rw [List.filter_eq_nil_iff]
  intro member hmember hname
  exact h (List.mem_map.2 ⟨member, hmember, eq_of_beq hname⟩)

theorem only?_of_not_mem {members : List (String × Json)} {name : String}
    (h : name ∉ members.map (·.1)) : only? members name = some none := by
  rw [only?, filter_of_not_mem h]

theorem only?_cons_of_ne {key name : String} (h : key ≠ name) (value : Json)
    (rest : List (String × Json)) : only? ((key, value) :: rest) name = only? rest name := by
  rw [only?, only?, List.filter_cons_of_neg (by simpa using h)]

theorem only?_cons_of_not_mem {name : String} {rest : List (String × Json)}
    (h : name ∉ rest.map (·.1)) (value : Json) :
    only? ((name, value) :: rest) name = some (some value) := by
  rw [only?, List.filter_cons_of_pos (by simp), filter_of_not_mem h]

theorem only?_of_perm {members more : List (String × Json)} {name : String}
    (h : (members.filter (·.1 == name)).Perm (more.filter (·.1 == name))) :
    only? members name = only? more name := by
  rw [only?, only?]
  generalize members.filter (·.1 == name) = found at h
  generalize more.filter (·.1 == name) = others at h
  obtain _ | ⟨member, _ | ⟨second, rest⟩⟩ := found
  · rw [List.nil_perm.1 h]
  · rw [List.singleton_perm.1 h]
  · -- of two or more nothing is read, whatever they are
    obtain _ | ⟨other, _ | ⟨third, tail⟩⟩ := others
    · simpa using h.length_eq
    · simpa using h.length_eq
    · rfl

/-- Members of other names play no part. -/
theorem only?_filter (keep : String → Prop) [DecidablePred keep] {name : String} (h : keep name)
    (members : List (String × Json)) :
    only? (members.filter fun member => keep member.1) name = only? members name := by
  rw [only?, only?, List.filter_filter]
  have hkeep : members.filter (fun member => member.1 == name && decide (keep member.1)) =
      members.filter (·.1 == name) := by
    refine List.filter_congr fun member _ => ?_
    by_cases hname : member.1 = name
    · simp [hname, h]
    · simp [hname]
  rw [hkeep]

/-- The members of a record, of which some are left out. -/
def present (table : List (String × Option Json)) : List (String × Json) :=
  table.filterMap fun e => e.2.map (e.1, ·)

theorem mem_keys_of_present {table : List (String × Option Json)} {name : String}
    (h : name ∈ (present table).map (·.1)) : name ∈ table.map (·.1) := by
  obtain ⟨member, hmember, rfl⟩ := List.mem_map.1 h
  obtain ⟨e, he, hvalue⟩ := List.mem_filterMap.1 hmember
  obtain ⟨value, -, rfl⟩ := Option.map_eq_some_iff.1 hvalue
  exact List.mem_map_of_mem he

/-- What is found under a name of a record is what its table has. -/
theorem only?_present {table : List (String × Option Json)} (hnames : (table.map (·.1)).Nodup)
    {name : String} {found : Option Json} (h : (name, found) ∈ table) :
    only? (present table) name = some found := by
  induction table with
  | nil => simp at h
  | cons e rest ih =>
    obtain ⟨key, value⟩ := e
    rw [List.map_cons, List.nodup_cons] at hnames
    obtain ⟨hkey, hrest⟩ := hnames
    obtain heq | hmem := List.mem_cons.1 h
    · obtain ⟨rfl, rfl⟩ := Prod.mk.inj heq
      have hbehind : name ∉ (present rest).map (·.1) := fun hmem => hkey (mem_keys_of_present hmem)
      cases found with
      | none => exact only?_of_not_mem hbehind
      | some value => exact only?_cons_of_not_mem hbehind value
    · have hne : key ≠ name := by
        rintro rfl
        exact hkey (List.mem_map.2 ⟨_, hmem, rfl⟩)
      cases value with
      | none => exact ih hrest hmem
      | some value => exact (only?_cons_of_ne hne value _).trans (ih hrest hmem)

end NamedQuery.Json
