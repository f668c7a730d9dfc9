import NamedQuery.Dict
import Mathlib.Data.List.Sort

namespace NamedQuery

universe u

variable {α : Type u}

instance irrefl_keyLess : Std.Irrefl fun a b : String × α => a.1 < b.1 :=
  ⟨fun _ => String.lt_irrefl _⟩

instance antisymm_keyLess : Std.Antisymm fun a b : String × α => a.1 < b.1 :=
  ⟨fun _ _ h h' => absurd h' (String.lt_asymm h)⟩

theorem lookup_pair (e : String × α) (rest : List (String × α)) (key : String) :
    (e :: rest).lookup key = if key = e.1 then some e.2 else rest.lookup key := by
  rw [List.lookup_cons]
  by_cases h : key = e.1
  · simp [h]
  · rw [if_neg h, beq_false_of_ne h]

theorem lookup_insertByKey (key : String) (value : α) (entries : List (String × α))
    (other : String) : (insertByKey key value entries).lookup other =
      if other = key then some value else entries.lookup other := by
  induction entries with
  | nil => simp [insertByKey, lookup_pair]
  | cons e rest ih =>
    unfold insertByKey
    split
    · rw [lookup_pair]
    · split
      next heq =>
        subst heq
        simp only [lookup_pair]
        split <;> rfl
      next hne =>
        rw [lookup_pair, ih, lookup_pair]
        by_cases hkey : other = key
        · simp [hkey, hne]
        · simp [hkey]

namespace Ascending

/-- A pair that comes behind all entries is put in behind them. -/
theorem insertByKey_append {entries rest : List (String × α)} {key : String} {value : α}
    (h : Ascending (entries ++ (key, value) :: rest)) :
    insertByKey key value entries = entries ++ [(key, value)] := by
  induction entries with
  | nil => rfl
  | cons e more ih =>
    obtain ⟨hless, hmore⟩ := List.pairwise_cons.1 h
    have hlt : e.1 < key := hless (key, value) (by simp)
    have hne : key ≠ e.1 := fun heq => String.lt_irrefl _ (heq ▸ hlt)
    rw [insertByKey, if_neg (String.lt_asymm hlt), if_neg hne, ih hmore]
    rfl

/-- Ascending entries are known by what is among them. -/
theorem eq_of_mem_iff {entries others : List (String × α)} (h : Ascending entries)
    (h' : Ascending others) (hmem : ∀ e, e ∈ entries ↔ e ∈ others) : entries = others :=
  List.Pairwise.eq_of_mem_iff h h' hmem

theorem mem_iff_lookup {entries : List (String × α)} (h : Ascending entries) {key : String}
    {value : α} : (key, value) ∈ entries ↔ entries.lookup key = some value := by
  induction entries with
  | nil => simp
  | cons e rest ih =>
    obtain ⟨hless, hrest⟩ := List.pairwise_cons.1 h
    rw [List.mem_cons, ih hrest, lookup_pair]
    by_cases hkey : key = e.1
    · -- a key that stands first is not among the keys behind it
      have hnone : rest.lookup key ≠ some value := by
        intro hsome
        have hlt := hless _ ((ih hrest).2 hsome)
        exact String.lt_irrefl _ (hkey ▸ hlt)
      simp [hkey ▸ hnone, hkey, Prod.ext_iff, eq_comm]
    · simp [hkey, Prod.ext_iff]

end Ascending

namespace Dict

theorem mem_entries {d : Dict α} {key : String} {value : α} :
    (key, value) ∈ d.entries ↔ d.get? key = some value :=
  d.ascending.mem_iff_lookup

theorem mem_keys {d : Dict α} {key : String} : key ∈ d.keys ↔ ∃ value, d.get? key = some value := by
  simp only [keys, List.mem_map, Prod.exists, exists_and_right, exists_eq_right, mem_entries]

theorem contains_eq_true {d : Dict α} {key : String} : d.contains key = true ↔ key ∈ d.keys := by
  simp [contains, keys]

theorem contains_eq_isSome (d : Dict α) (key : String) : d.contains key = (d.get? key).isSome := by
  rw [Bool.eq_iff_iff, contains_eq_true, mem_keys, Option.isSome_iff_exists]

theorem ascending_keys (d : Dict α) : d.keys.Pairwise (· < ·) :=
  List.pairwise_map.2 d.ascending

/-- A dictionary is known by what it holds under each key. -/
theorem ext_get? {d e : Dict α} (h : ∀ key, d.get? key = e.get? key) : d = e := by
  apply Dict.ext
  apply d.ascending.eq_of_mem_iff e.ascending
  rintro ⟨key, value⟩
  rw [mem_entries, mem_entries, h]

theorem get?_insert (d : Dict α) (key : String) (value : α) (other : String) :
    (d.insert key value).get? other = if other = key then some value else d.get? other :=
  lookup_insertByKey key value d.entries other

theorem mem_keys_insert {d : Dict α} {key : String} {value : α} {other : String} :
    other ∈ (d.insert key value).keys ↔ other = key ∨ other ∈ d.keys := by
  simp only [mem_keys, get?_insert]
  by_cases h : other = key
  · simp [h]
  · simp [h]

/-- Of pairs with different keys each is found in a dictionary that they are put in, and so is what was
there under other keys. -/
theorem get?_foldl_insert {entries : List (String × α)} (h : (entries.map (·.1)).Nodup)
    (d : Dict α) (key : String) (value : α) :
    (entries.foldl (fun d e => d.insert e.1 e.2) d).get? key = some value ↔
      (key, value) ∈ entries ∨ key ∉ entries.map (·.1) ∧ d.get? key = some value := by
  induction entries generalizing d with
  | nil => simp
  | cons e rest ih =>
    obtain ⟨hfresh, hrest⟩ := List.nodup_cons.1 h
    rw [List.foldl_cons, ih hrest, get?_insert, List.map_cons, List.mem_cons, List.mem_cons]
    by_cases hkey : key = e.1
    · subst hkey
      have hnone : (e.1, value) ∉ rest := fun hmem => hfresh (List.mem_map.2 ⟨_, hmem, rfl⟩)
      simp [hnone, hfresh, Prod.ext_iff, eq_comm]
    · simp [hkey, Prod.ext_iff]

theorem get?_ofList {entries : List (String × α)} (h : (entries.map (·.1)).Nodup) {key : String}
    {value : α} : (ofList entries).get? key = some value ↔ (key, value) ∈ entries := by
  have hnone : (empty : Dict α).get? key = none := rfl
  rw [ofList, get?_foldl_insert h, hnone]
  simp

/-- Values under different keys are put in in any order. -/
theorem insert_comm (d : Dict α) {key other : String} (h : key ≠ other) (value more : α) :
    (d.insert key value).insert other more = (d.insert other more).insert key value := by
  apply ext_get?
  intro k
  simp only [get?_insert]
  by_cases hkey : k = key
  · simp [hkey, h]
  · simp [hkey]

end Dict
end NamedQuery
