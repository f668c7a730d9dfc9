import NamedQuery.Proofs.Except
import NamedQuery.Wire.Encode

namespace NamedQuery.Wire

/-- The number of bytes that a number takes. -/
def ColumnType.width : ColumnType → Nat
  | scalar .int2 => 2
  | scalar .int4 | scalar .float4 => 4
  | _ => 8

mutual
/-- The number of bytes that a value takes where it fits. -/
def size (t : ColumnType) : FilterValue → Nat
  | .null | .map _ => 0
  | .bool _ => 1
  | .int _ | .float _ => t.width
  | .text s => (if t.isTree then 1 else 0) + s.utf8ByteSize
  | .list items =>
    match t with
    | .array _ _ _ member => 20 + sizeItems member items
    | _ => 0

def sizeItems (t : ColumnType) : List FilterValue → Nat
  | [] => 0
  | item :: rest => 4 + size t item + sizeItems t rest
end

mutual
/-- Every list in a value, and every element, is short enough for its length to be sent. -/
def Short (t : ColumnType) : FilterValue → Prop
  | .list items =>
    match t with
    | .array _ _ _ member => items.length < lengthLimit ∧ ShortItems member items
    | _ => True
  | _ => True

def ShortItems (t : ColumnType) : List FilterValue → Prop
  | [] => True
  | item :: rest => (Short t item ∧ size t item < lengthLimit) ∧ ShortItems t rest
end

theorem shortItems_iff {t : ColumnType} {items : List FilterValue} :
    ShortItems t items ↔ ∀ item ∈ items, Short t item ∧ size t item < lengthLimit := by
  induction items with
  | nil => simp [ShortItems]
  | cons item rest ih => rw [ShortItems, ih, List.forall_mem_cons]

/-- An item as an element of an array. -/
def encodeItem (t : ColumnType) (item : FilterValue) : Except Refusal (Option Bytes) :=
  encode t item >>= measured

theorem encodeItems_eq_mapM (t : ColumnType) (items : List FilterValue) :
    encodeItems t items = items.mapM (encodeItem t) := by
  induction items with
  | nil => rfl
  | cons item rest ih =>
    rw [encodeItems, ih, List.mapM_cons, encodeItem, bind_assoc]
    rfl

theorem encodeItems_cons_eq_ok {t : ColumnType} {item : FilterValue} {rest : List FilterValue}
    {elements : List (Option Bytes)} : encodeItems t (item :: rest) = .ok elements ↔
      ∃ element more, encodeItem t item = .ok element ∧ encodeItems t rest = .ok more ∧
        elements = element :: more := by
  simp only [encodeItems_eq_mapM, mapM_eq_ok, List.forall₂_cons_left_iff]

theorem encodeItem_eq_ok {t : ColumnType} {item : FilterValue} {element : Option Bytes} :
    encodeItem t item = .ok element ↔
      encode t item = .ok element ∧ ∀ bytes, element = some bytes → bytes.length < lengthLimit := by
  rw [encodeItem, except_bind_eq_ok]
  constructor
  · rintro ⟨element', hencode, hmeasured⟩
    cases element' with
    | none =>
      cases hmeasured
      exact ⟨hencode, nofun⟩
    | some bytes =>
      rw [measured] at hmeasured
      split at hmeasured
      next hlt =>
        cases hmeasured
        exact ⟨hencode, fun _ h => Option.some.inj h ▸ hlt⟩
      next => cases hmeasured
  · rintro ⟨hencode, hlt⟩
    refine ⟨element, hencode, ?_⟩
    cases element with
    | none => rfl
    | some bytes => exact if_pos (hlt bytes rfl)

theorem length_elementBytes (element : Option Bytes) :
    (elementBytes element).length = 4 + (element.elim 0 List.length) := by
  cases element <;> simp [elementBytes, length_bigEndian]

theorem length_arrayBytes (oid first : Nat) (elements : List (Option Bytes)) :
    (arrayBytes oid first elements).length = 20 + (elements.flatMap elementBytes).length := by
  simp only [arrayBytes, List.length_append, length_bigEndian]

theorem length_textBytes (t : ColumnType) (s : String) :
    (textBytes t s).length = (if t.isTree then 1 else 0) + s.utf8ByteSize := by
  have hsize : s.toUTF8.data.toList.length = s.utf8ByteSize := by
    rw [Array.length_toList]
    rfl
  rw [textBytes, List.length_append, hsize]
  cases t.isTree <;> rfl

theorem length_intBytes {t : ColumnType} {n : Int64} {bytes : Bytes}
    (h : intBytes t n = .ok bytes) : bytes.length = t.width := by
  unfold intBytes at h
  split at h
  case h_1 | h_2 =>
    split at h
    · cases h
      exact length_bigEndian ..
    · cases h
  case h_6 => cases h
  all_goals
    cases h
    exact length_bigEndian ..

theorem length_floatBytes {t : ColumnType} {x : Float} {bytes : Bytes}
    (h : floatBytes t x = .ok bytes) : bytes.length = t.width := by
  unfold floatBytes at h
  split at h
  case h_3 => cases h
  all_goals
    cases h
    exact length_bigEndian ..

theorem sliceBytes_eq_ok {t : ColumnType} {count : Nat}
    {elements : ColumnType → Except Refusal (List (Option Bytes))} {bytes : Bytes} :
    sliceBytes t count elements = .ok bytes ↔
      ∃ label oid first member, t = .array label oid first member ∧ count < lengthLimit ∧
        ∃ es, elements member = .ok es ∧ arrayBytes member.oid first es = bytes := by
  cases t with
  | array label oid first member =>
    by_cases hcount : count < lengthLimit
    · simp [sliceBytes, hcount, except_map_eq_ok]
    · simp [sliceBytes, hcount]
  | _ => simp [sliceBytes]

theorem encode_list_eq_ok {t : ColumnType} {items : List FilterValue} {sent : Option Bytes} :
    encode t (.list items) = .ok sent ↔
      ∃ label oid first member, t = .array label oid first member ∧ member.accepts = true ∧
        items.length < lengthLimit ∧ ∃ elements, encodeItems member items = .ok elements ∧
          some (arrayBytes member.oid first elements) = sent := by
  rw [encode]
  constructor
  · intro h
    split at h
    next haccepts =>
      obtain ⟨bytes, hbytes, rfl⟩ := except_map_eq_ok.1 h
      obtain ⟨label, oid, first, member, rfl, hlength, elements, helements, rfl⟩ :=
        sliceBytes_eq_ok.1 hbytes
      exact ⟨label, oid, first, member, rfl, haccepts, hlength, elements, helements, rfl⟩
    next => cases h
  · rintro ⟨label, oid, first, member, rfl, haccepts, hlength, elements, helements, rfl⟩
    refine (if_pos haccepts).trans (except_map_eq_ok.2 ⟨_, sliceBytes_eq_ok.2 ?_, rfl⟩)
    exact ⟨label, oid, first, member, rfl, hlength, elements, helements, rfl⟩

/-- Null alone is sent as nothing. -/
theorem encode_eq_none {t : ColumnType} {v : FilterValue} : encode t v = .ok none ↔ v = .null := by
  cases v with
  | list items => simp [encode_list_eq_ok]
  | _ => simp [encode, except_map_eq_ok, except_ite_eq_ok]

mutual
theorem length_encode : ∀ {t : ColumnType} (v : FilterValue) {bytes : Bytes},
    encode t v = .ok (some bytes) → bytes.length = size t v
  | t, .null, bytes, h => by simp [encode] at h
  | t, .map _, bytes, h => by simp [encode] at h
  | t, .bool b, bytes, h => by
    rw [encode, except_ite_eq_ok] at h
    rw [← Option.some.inj h.2]
    rfl
  | t, .int n, bytes, h => by
    rw [encode, except_map_eq_ok] at h
    obtain ⟨_, hbytes, hsome⟩ := h
    exact Option.some.inj hsome ▸ length_intBytes hbytes
  | t, .float x, bytes, h => by
    rw [encode, except_map_eq_ok] at h
    obtain ⟨_, hbytes, hsome⟩ := h
    exact Option.some.inj hsome ▸ length_floatBytes hbytes
  | t, .text s, bytes, h => by
    rw [encode, except_ite_eq_ok] at h
    exact Option.some.inj h.2 ▸ length_textBytes t s
  | t, .list items, bytes, h => by
    obtain ⟨_, _, _, member, rfl, -, -, elements, hitems, hsome⟩ := encode_list_eq_ok.1 h
    rw [size, ← length_encodeItems items hitems, ← Option.some.inj hsome, length_arrayBytes]

theorem length_encodeItems : ∀ {t : ColumnType} (items : List FilterValue)
    {elements : List (Option Bytes)}, encodeItems t items = .ok elements →
      (elements.flatMap elementBytes).length = sizeItems t items
  | t, [], elements, h => by
    cases h
    rfl
  | t, item :: rest, elements, h => by
    obtain ⟨element, more, hitem, hrest, rfl⟩ := encodeItems_cons_eq_ok.1 h
    have hlength : element.elim 0 List.length = size t item := by
      cases element with
      | none =>
        rw [encode_eq_none.1 (encodeItem_eq_ok.1 hitem).1]
        rfl
      | some bytes => exact length_encode item (encodeItem_eq_ok.1 hitem).1
    rw [List.flatMap_cons, List.length_append, length_elementBytes, hlength,
      length_encodeItems rest hrest, sizeItems]
end

theorem size_lt_of_encodeItem {t : ColumnType} {item : FilterValue} {element : Option Bytes}
    (h : encodeItem t item = .ok element) : size t item < lengthLimit := by
  obtain ⟨hencode, hlength⟩ := encodeItem_eq_ok.1 h
  cases element with
  | none =>
    rw [encode_eq_none.1 hencode, size]
    decide
  | some bytes => exact length_encode item hencode ▸ hlength bytes rfl

mutual
/-- What is sent is short enough to be sent. -/
theorem short_of_encode : ∀ {t : ColumnType} (v : FilterValue) {sent : Option Bytes},
    encode t v = .ok sent → Short t v
  | t, .list items, sent, h => by
    obtain ⟨_, _, _, member, rfl, -, hlength, elements, hitems, -⟩ := encode_list_eq_ok.1 h
    exact ⟨hlength, short_of_encodeItems items hitems⟩
  | t, .null, _, _ | t, .bool _, _, _ | t, .int _, _, _ | t, .float _, _, _ | t, .text _, _, _
  | t, .map _, _, _ => trivial

theorem short_of_encodeItems : ∀ {t : ColumnType} (items : List FilterValue)
    {elements : List (Option Bytes)}, encodeItems t items = .ok elements → ShortItems t items
  | t, [], _, _ => trivial
  | t, item :: rest, elements, h => by
    obtain ⟨element, more, hitem, hrest, rfl⟩ := encodeItems_cons_eq_ok.1 h
    exact ⟨⟨short_of_encode item (encodeItem_eq_ok.1 hitem).1, size_lt_of_encodeItem hitem⟩,
      short_of_encodeItems rest hrest⟩
end
end NamedQuery.Wire
