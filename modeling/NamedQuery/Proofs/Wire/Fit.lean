import NamedQuery.Proofs.Bounded
import NamedQuery.Proofs.Wire.Length

namespace NamedQuery.Wire

/-- What may be sent as a type. -/
inductive Fits : ColumnType → FilterValue → Prop
  | null {t : ColumnType} : Fits t .null
  | bool {b : Bool} : Fits (.scalar .bool) (.bool b)
  | int2 {n : Int64} (low : -2 ^ 15 ≤ n.toInt) (high : n.toInt < 2 ^ 15) :
      Fits (.scalar .int2) (.int n)
  | int4 {n : Int64} (low : -2 ^ 31 ≤ n.toInt) (high : n.toInt < 2 ^ 31) :
      Fits (.scalar .int4) (.int n)
  | int {s : Scalar} {n : Int64} (wide : s = .int8 ∨ s = .float4 ∨ s = .float8) :
      Fits (.scalar s) (.int n)
  | float {s : Scalar} {x : Float} (wide : s = .float4 ∨ s = .float8) : Fits (.scalar s) (.float x)
  | text {t : ColumnType} {s : String} (textual : t.isTextual = true) : Fits t (.text s)
  | list {label : TypeName} {oid first : Nat} {member : ColumnType} {items : List FilterValue}
      (accepted : member.accepts = true) (fit : ∀ item ∈ items, Fits member item) :
      Fits (.array label oid first member) (.list items)

/-- Why a value may not be sent as a type. Of a list the first item that does not fit tells it. -/
inductive Misfit : ColumnType → FilterValue → Refusal → Prop
  | bool {t : ColumnType} {b : Bool} (h : t ≠ .scalar .bool) : Misfit t (.bool b) .wrongType
  | int2 {n : Int64} (h : ¬ (-2 ^ 15 ≤ n.toInt ∧ n.toInt < 2 ^ 15)) :
      Misfit (.scalar .int2) (.int n) .outOfRange
  | int4 {n : Int64} (h : ¬ (-2 ^ 31 ≤ n.toInt ∧ n.toInt < 2 ^ 31)) :
      Misfit (.scalar .int4) (.int n) .outOfRange
  | int {t : ColumnType} {n : Int64}
      (h : ∀ s ∈ [Scalar.int2, .int4, .int8, .float4, .float8], t ≠ .scalar s) :
      Misfit t (.int n) .wrongType
  | float {t : ColumnType} {x : Float} (h : ∀ s ∈ [Scalar.float4, .float8], t ≠ .scalar s) :
      Misfit t (.float x) .wrongType
  | text {t : ColumnType} {s : String} (h : t.isTextual = false) : Misfit t (.text s) .wrongType
  | list {t : ColumnType} {items : List FilterValue}
      (h : ∀ label oid first member, t = .array label oid first member → member.accepts = false) :
      Misfit t (.list items) .wrongType
  | item {label : TypeName} {oid first : Nat} {member : ColumnType} {before rest : List FilterValue}
      {item : FilterValue} {r : Refusal} (accepted : member.accepts = true)
      (fit : ∀ b ∈ before, Fits member b) (misfit : Misfit member item r) :
      Misfit (.array label oid first member) (.list (before ++ item :: rest)) r
  | map {t : ColumnType} {entries : List (String × FilterValue)} :
      Misfit t (.map entries) (.object t.label.display)

theorem intBytes_int2_eq_ok {n : Int64} {bytes : Bytes} :
    intBytes (.scalar .int2) n = .ok bytes ↔
      ∃ m : Int16, m.toInt = n.toInt ∧ bigEndian 2 m.toUInt16.toNat = bytes := by
  simp only [intBytes, ← int16?_eq_some]
  cases int16? n.toInt <;> simp

theorem intBytes_int4_eq_ok {n : Int64} {bytes : Bytes} :
    intBytes (.scalar .int4) n = .ok bytes ↔
      ∃ m : Int32, m.toInt = n.toInt ∧ bigEndian 4 m.toUInt32.toNat = bytes := by
  simp only [intBytes, ← int32?_eq_some]
  cases int32? n.toInt <;> simp

theorem exists_encodeItem {t : ColumnType} {item : FilterValue}
    (h : ∃ sent, encode t item = .ok sent) (hsize : size t item < lengthLimit) :
    ∃ element, encodeItem t item = .ok element := by
  obtain ⟨element, helement⟩ := h
  refine ⟨element, encodeItem_eq_ok.2 ⟨helement, ?_⟩⟩
  rintro bytes rfl
  exact length_encode item helement ▸ hsize

theorem encode_of_fits {t : ColumnType} {v : FilterValue} (h : Fits t v) (short : Short t v) :
    ∃ sent, encode t v = .ok sent := by
  induction h with
  | null => exact ⟨none, rfl⟩
  | bool => exact ⟨_, rfl⟩
  | @int2 n low high =>
    have hbytes := intBytes_int2_eq_ok.2 ⟨_, Int16.toInt_ofInt_of_le low high, rfl⟩
    exact ⟨_, except_map_eq_ok.2 ⟨_, hbytes, rfl⟩⟩
  | @int4 n low high =>
    have hbytes := intBytes_int4_eq_ok.2 ⟨_, Int32.toInt_ofInt_of_le low high, rfl⟩
    exact ⟨_, except_map_eq_ok.2 ⟨_, hbytes, rfl⟩⟩
  | int wide => rcases wide with rfl | rfl | rfl <;> exact ⟨_, rfl⟩
  | float wide => rcases wide with rfl | rfl <;> exact ⟨_, rfl⟩
  | @text t s textual => exact ⟨_, except_ite_eq_ok.2 ⟨textual, rfl⟩⟩
  | @list label oid first member items accepted _ ih =>
    obtain ⟨hlength, hitems⟩ := short
    rw [shortItems_iff] at hitems
    have hsent : ∀ item ∈ items, ∃ element, encodeItem member item = .ok element := by
      intro item hitem
      obtain ⟨hshort, hsize⟩ := hitems item hitem
      exact exists_encodeItem (ih item hitem hshort) hsize
    obtain ⟨elements, helements⟩ := exists_mapM_eq_ok hsent
    rw [← encodeItems_eq_mapM] at helements
    exact ⟨_, encode_list_eq_ok.2
      ⟨label, oid, first, member, rfl, accepted, hlength, elements, helements, rfl⟩⟩

/-- The names that make a type one of texts. -/
def ColumnType.textNames : List String := ["citext", "ltree", "lquery", "ltxtquery"]

theorem ColumnType.isTextual_array {label : TypeName} {oid first : Nat} {member : ColumnType} :
    (array label oid first member).isTextual = false ↔ label.name ∉ textNames := by
  simp [isTextual, isTree, textNames, ColumnType.label, and_assoc]

theorem encode_list_of_not_array {t : ColumnType} {items : List FilterValue}
    (h : ∀ label oid first member, t = .array label oid first member → member.accepts = false) :
    encode t (.list items) = .error .wrongType := by
  cases t with
  | array label oid first member =>
    have hrefused : member.accepts = false := h label oid first member rfl
    simp [encode, ColumnType.acceptsList, hrefused]
  | _ => simp [encode, ColumnType.acceptsList]

theorem encode_of_misfit {t : ColumnType} {v : FilterValue} {r : Refusal} (h : Misfit t v r)
    (short : Short t v) : encode t v = .error r := by
  induction h with
  | bool h =>
    rw [encode]
    exact if_neg h
  | int2 h =>
    rw [encode, intBytes, int16?_of_outside h]
    rfl
  | int4 h =>
    rw [encode, intBytes, int32?_of_outside h]
    rfl
  | @int t n h =>
    have hbytes : intBytes t n = .error .wrongType := by
      unfold intBytes
      split <;> simp_all
    rw [encode, hbytes]
    rfl
  | @float t x h =>
    have hbytes : floatBytes t x = .error .wrongType := by
      unfold floatBytes
      split <;> simp_all
    rw [encode, hbytes]
    rfl
  | text h =>
    rw [encode]
    exact if_neg (Bool.eq_false_iff.1 h)
  | list h => exact encode_list_of_not_array h
  | @item label oid first member before rest item r accepted fit misfit ih =>
    obtain ⟨hlength, hitems⟩ := short
    rw [shortItems_iff] at hitems
    have hbefore : ∀ b ∈ before, ∃ element, encodeItem member b = .ok element := by
      intro b hb
      obtain ⟨hshort, hsize⟩ := hitems b (List.mem_append_left _ hb)
      exact exists_encodeItem (encode_of_fits (fit b hb) hshort) hsize
    have hitem : encodeItem member item = .error r := by
      rw [encodeItem, ih (hitems item (by simp)).1]
      rfl
    have hall : encodeItems member (before ++ item :: rest) = .error r := by
      rw [encodeItems_eq_mapM, mapM_eq_error]
      exact ⟨before, item, rest, rfl, hbefore, hitem⟩
    have haccepted : (ColumnType.array label oid first member).acceptsList ColumnType.accepts = true :=
      accepted
    rw [encode, if_pos haccepted, sliceBytes, if_pos hlength, hall]
    rfl
  | map => rfl

mutual
theorem fits_or_misfit (t : ColumnType) :
    ∀ v : FilterValue, Fits t v ∨ ∃ r, Misfit t v r
  | .null => .inl .null
  | .bool b => by
    by_cases h : t = .scalar .bool
    · exact .inl (h ▸ .bool)
    · exact .inr ⟨_, .bool h⟩
  | .int n => by
    by_cases hnumber : ∀ s ∈ [Scalar.int2, .int4, .int8, .float4, .float8], t ≠ .scalar s
    · exact .inr ⟨_, .int hnumber⟩
    · push Not at hnumber
      obtain ⟨s, hs, rfl⟩ := hnumber
      simp only [List.mem_cons, List.not_mem_nil, or_false] at hs
      obtain rfl | rfl | hwide := hs
      · by_cases hrange : -2 ^ 15 ≤ n.toInt ∧ n.toInt < 2 ^ 15
        · exact .inl (.int2 hrange.1 hrange.2)
        · exact .inr ⟨_, .int2 hrange⟩
      · by_cases hrange : -2 ^ 31 ≤ n.toInt ∧ n.toInt < 2 ^ 31
        · exact .inl (.int4 hrange.1 hrange.2)
        · exact .inr ⟨_, .int4 hrange⟩
      · exact .inl (.int hwide)
  | .float x => by
    by_cases hfloat : ∀ s ∈ [Scalar.float4, .float8], t ≠ .scalar s
    · exact .inr ⟨_, .float hfloat⟩
    · push Not at hfloat
      obtain ⟨s, hs, rfl⟩ := hfloat
      exact .inl (.float (by simpa using hs))
  | .text s => by
    cases h : t.isTextual with
    | true => exact .inl (.text h)
    | false => exact .inr ⟨_, .text h⟩
  | .list items => by
    cases t with
    | array label oid first member =>
      cases haccepts : member.accepts with
      | false => exact .inr ⟨_, .list (by rintro _ _ _ _ ⟨⟩; exact haccepts)⟩
      | true =>
        obtain hfit | ⟨before, item, rest, r, rfl, hbefore, hitem⟩ := all_fit_or_misfit member items
        · exact .inl (.list haccepts hfit)
        · exact .inr ⟨r, .item haccepts hbefore hitem⟩
    | _ => exact .inr ⟨_, .list nofun⟩
  | .map entries => .inr ⟨_, .map⟩

theorem all_fit_or_misfit (t : ColumnType) : ∀ items : List FilterValue,
    (∀ item ∈ items, Fits t item) ∨ ∃ before item rest r, items = before ++ item :: rest ∧
      (∀ b ∈ before, Fits t b) ∧ Misfit t item r
  | [] => .inl (List.forall_mem_nil _)
  | item :: rest => by
    obtain hitem | ⟨r, hitem⟩ := fits_or_misfit t item
    · obtain hrest | ⟨before, item', rest', r, rfl, hbefore, hitem'⟩ := all_fit_or_misfit t rest
      · exact .inl (List.forall_mem_cons.2 ⟨hitem, hrest⟩)
      · exact .inr ⟨item :: before, item', rest', r, rfl, List.forall_mem_cons.2 ⟨hitem, hbefore⟩,
          hitem'⟩
    · exact .inr ⟨[], item, rest, r, rfl, List.forall_mem_nil _, hitem⟩
end

theorem encode_isOk_iff {t : ColumnType} {v : FilterValue} :
    (∃ sent, encode t v = .ok sent) ↔ Fits t v ∧ Short t v := by
  constructor
  · rintro ⟨sent, hsent⟩
    have short := short_of_encode v hsent
    obtain hfit | ⟨r, hmisfit⟩ := fits_or_misfit t v
    · exact ⟨hfit, short⟩
    · cases hsent.symm.trans (encode_of_misfit hmisfit short)
  · rintro ⟨hfit, short⟩
    exact encode_of_fits hfit short

theorem encode_eq_error_iff {t : ColumnType} {v : FilterValue} (short : Short t v) {r : Refusal} :
    encode t v = .error r ↔ Misfit t v r := by
  refine ⟨fun h => ?_, fun h => encode_of_misfit h short⟩
  obtain hfit | ⟨r', hmisfit⟩ := fits_or_misfit t v
  · obtain ⟨sent, hsent⟩ := encode_of_fits hfit short
    cases hsent.symm.trans h
  · obtain rfl : r' = r := Except.error.inj ((encode_of_misfit hmisfit short).symm.trans h)
    exact hmisfit

/-- A type that accepts nothing refuses every value but null as of the wrong type, and a map as a
map. -/
theorem encode_of_not_accepts {t : ColumnType} (haccepts : t.accepts = false)
    (hname : ∀ label oid first member, t = .array label oid first member →
      label.name ∉ ColumnType.textNames)
    {v : FilterValue} (hnull : v ≠ .null) (hmap : ∀ entries, v ≠ .map entries) :
    encode t v = .error .wrongType := by
  have hscalar (s : Scalar) : t ≠ .scalar s := by
    rintro rfl
    cases haccepts
  have htextual : t.isTextual = false := by
    cases t with
    | scalar s => cases haccepts
    | array label oid first member => exact ColumnType.isTextual_array.2 (hname _ _ _ _ rfl)
    | _ => exact haccepts
  cases v with
  | null => exact absurd rfl hnull
  | map entries => exact absurd rfl (hmap entries)
  | bool b => exact encode_of_misfit (.bool (hscalar _)) trivial
  | int n => exact encode_of_misfit (.int fun s _ => hscalar s) trivial
  | float x => exact encode_of_misfit (.float fun s _ => hscalar s) trivial
  | text s => exact encode_of_misfit (.text htextual) trivial
  | list items =>
    refine encode_list_of_not_array ?_
    rintro label oid first member rfl
    exact haccepts

theorem encodeChecked_eq {t : ColumnType}
    (hname : ∀ label oid first member, t = .array label oid first member →
      label.name ∉ ColumnType.textNames)
    {v : FilterValue} (hnull : v ≠ .null) (hmap : ∀ entries, v ≠ .map entries) :
    encodeChecked t v = encode t v := by
  cases haccepts : t.accepts with
  | true => rw [encodeChecked, if_pos haccepts]
  | false =>
    rw [encode_of_not_accepts haccepts hname hnull hmap, encodeChecked,
      if_neg (Bool.eq_false_iff.1 haccepts)]

theorem intBytes_ne_panic {t : ColumnType} {n : Int64} {message : String} :
    intBytes t n ≠ .error (.panic message) := by
  unfold intBytes
  repeat' split
  all_goals nofun

theorem floatBytes_ne_panic {t : ColumnType} {x : Float} {message : String} :
    floatBytes t x ≠ .error (.panic message) := by
  unfold floatBytes
  split <;> nofun

theorem measured_ne_panic {element : Option Bytes} {message : String} :
    measured element ≠ .error (.panic message) := by
  unfold measured
  repeat' split
  all_goals nofun

/-- A type that accepts lists is an array, at which the encoder of lists does not stop. -/
theorem sliceBytes_ne_panic {accepts : ColumnType → Bool} {t : ColumnType} {count : Nat}
    {elements : ColumnType → Except Refusal (List (Option Bytes))} {message : String}
    (haccepts : t.acceptsList accepts = true)
    (h : ∀ member, elements member ≠ .error (.panic message)) :
    sliceBytes t count elements ≠ .error (.panic message) := by
  cases t with
  | array label oid first member =>
    rw [sliceBytes]
    split
    · exact mt except_map_eq_error.1 (h member)
    · rintro ⟨⟩
  | _ => cases haccepts

mutual
/-- Lists are written for arrays only, so nothing that is sent stops the program. -/
theorem encode_ne_panic : ∀ (t : ColumnType) (v : FilterValue) {message : String},
    encode t v ≠ .error (.panic message)
  | t, .null, message => nofun
  | t, .bool b, message => by
    rw [encode]
    split <;> nofun
  | t, .int n, message => mt except_map_eq_error.1 intBytes_ne_panic
  | t, .float x, message => mt except_map_eq_error.1 floatBytes_ne_panic
  | t, .text s, message => by
    rw [encode]
    split <;> nofun
  | t, .map entries, message => nofun
  | t, .list items, message => by
    rw [encode]
    split
    next haccepts =>
      have hitems (member : ColumnType) : encodeItems member items ≠ .error (.panic message) :=
        encodeItems_ne_panic member items
      exact mt except_map_eq_error.1 (sliceBytes_ne_panic haccepts hitems)
    next => nofun

theorem encodeItems_ne_panic : ∀ (t : ColumnType) (items : List FilterValue) {message : String},
    encodeItems t items ≠ .error (.panic message)
  | t, [], message => nofun
  | t, item :: rest, message => by
    intro h
    rw [encodeItems] at h
    obtain hitem | ⟨element, -, h⟩ := except_bind_eq_error.1 h
    · exact encode_ne_panic t item hitem
    · obtain hlength | ⟨element, -, h⟩ := except_bind_eq_error.1 h
      · exact measured_ne_panic hlength
      · obtain hrest | ⟨_, -, ⟨⟩⟩ := except_bind_eq_error.1 h
        exact encodeItems_ne_panic t rest hrest
end

theorem encodeChecked_ne_panic (t : ColumnType) (v : FilterValue) {message : String} :
    encodeChecked t v ≠ .error (.panic message) := by
  rw [encodeChecked]
  split
  · exact encode_ne_panic t v
  · nofun

/-- A value is sent as a type exactly if it fits. Else the first of its items that does not fit tells
why, or the value itself; a list that is not meant for an array is refused before its items are looked
at, so nothing stops the program. Asking beforehand whether the type accepts any value changes nothing
but for null and maps. -/
theorem encode_decides_fit {t : ColumnType} {v : FilterValue} (short : Short t v) :
    ((∃ sent, encode t v = .ok sent) ↔ Fits t v) ∧
      (∀ r, encode t v = .error r ↔ Misfit t v r) ∧
      ((∀ label oid first member, t = .array label oid first member →
          label.name ∉ ColumnType.textNames) →
        v ≠ .null → (∀ entries, v ≠ .map entries) → encodeChecked t v = encode t v) ∧
      (∀ items, v = .list items → (∀ label oid first member, t ≠ .array label oid first member) →
        encode t v = .error .wrongType ∧ encodeChecked t v = .error .wrongType) ∧
      ∀ message, encode t v ≠ .error (.panic message) ∧
        encodeChecked t v ≠ .error (.panic message) := by
  refine ⟨encode_isOk_iff.trans (and_iff_left short), fun r => encode_eq_error_iff short,
    fun hname hnull hmap => encodeChecked_eq hname hnull hmap, ?_,
    fun message => ⟨encode_ne_panic t v, encodeChecked_ne_panic t v⟩⟩
  rintro items rfl hkind
  have hencode : encode t (.list items) = .error .wrongType :=
    encode_list_of_not_array fun _ _ _ _ h => absurd h (hkind _ _ _ _)
  have hchecked : encodeChecked t (.list items) = encode t (.list items) :=
    encodeChecked_eq (fun _ _ _ _ h => absurd h (hkind _ _ _ _)) nofun nofun
  exact ⟨hencode, hchecked.trans hencode⟩

/-- Rows of words of two bytes, one of which is too large. -/
theorem wide_word_decides_fit :
    let words := ColumnType.builtinArray "_int2" 1005 1 (.scalar .int2)
    let t := ColumnType.array ⟨"public", "grid"⟩ 90001 1 words
    let v := FilterValue.list [.list [.int 7, .null], .null, .list [.int 40000, .bool true]]
    Short t v ∧ ¬ Fits t v ∧ Misfit t v .outOfRange ∧ encodeChecked t v = encode t v := by
  intro words t v
  have short : Short t v := by
    simp only [t, v, words, Short, ShortItems, size, sizeItems, ColumnType.builtinArray, lengthLimit]
    decide
  have hencode : encode t v = .error .outOfRange := rfl
  obtain ⟨hfits, hmisfit, hchecked, -⟩ := encode_decides_fit short
  refine ⟨short, ?_, (hmisfit _).1 hencode, hchecked ?_ ?_ ?_⟩
  · rw [← hfits, hencode]
    rintro ⟨_, ⟨⟩⟩
  · intro label oid first member h
    rw [← (ColumnType.array.inj h).1]
    decide
  · simp [v]
  · simp [v]

end NamedQuery.Wire
