import NamedQuery.Proofs.Bounded
import NamedQuery.Proofs.Wire.Fit
import Mathlib.Tactic.Ring

namespace NamedQuery

def FilterValue.isNull : FilterValue → Bool
  | null => true
  | _ => false

namespace Wire

/-- The number that bytes stand for, the highest first. -/
def ofBigEndian (bytes : Bytes) : Nat :=
  bytes.foldl (fun n b => n * 256 + b.toNat) 0

/-- The number that bytes stand for with a sign. -/
def ofSigned (bytes : Bytes) : Int :=
  (ofBigEndian bytes : Int).bmod (256 ^ bytes.length)

theorem foldl_bigEndian (width n high : Nat) :
    (bigEndian width n).foldl (fun n b => n * 256 + b.toNat) high =
      high * 256 ^ width + n % 256 ^ width := by
  induction width generalizing high with
  | zero => simp [bigEndian, Nat.mod_one]
  | succ width ih =>
    have hbyte : (UInt8.ofNat (n / 256 ^ width)).toNat = n / 256 ^ width % 256 := UInt8.toNat_ofNat'
    have hsplit : n % 256 ^ (width + 1) = n % 256 ^ width + 256 ^ width * (n / 256 ^ width % 256) :=
      Nat.mod_pow_succ
    rw [bigEndian, List.foldl_cons, ih, Nat.pow_eq, hbyte, hsplit]
    ring

theorem ofBigEndian_bigEndian (width n : Nat) :
    ofBigEndian (bigEndian width n) = n % 256 ^ width := by
  rw [ofBigEndian, foldl_bigEndian, Nat.zero_mul, Nat.zero_add]

theorem ofSigned_bigEndian {width : Nat} (x : BitVec (8 * width)) :
    ofSigned (bigEndian width x.toNat) = x.toInt := by
  have hbits : 2 ^ (8 * width) = 256 ^ width := Nat.pow_mul 2 8 width
  have hlt : x.toNat < 256 ^ width := hbits ▸ x.isLt
  rw [ofSigned, ofBigEndian_bigEndian, length_bigEndian, Nat.mod_eq_of_lt hlt,
    BitVec.toInt_eq_toNat_bmod, hbits]

theorem ofSigned_length {n : Nat} (h : n < lengthLimit) : ofSigned (bigEndian 4 n) = n := by
  have hlimit : lengthLimit = 2 ^ 31 := rfl
  rw [ofSigned, ofBigEndian_bigEndian, length_bigEndian, Nat.mod_eq_of_lt (by omega),
    Int.bmod_eq_of_le (by omega) (by omega)]

theorem ofSigned_missing : ofSigned (bigEndian 4 (Nat.pow 2 32 - 1)) = -1 := by
  rw [ofSigned, ofBigEndian_bigEndian, length_bigEndian]
  decide

/-- The first bytes and the others, if there are as many. -/
def cut? (count : Nat) (bytes : Bytes) : Option (Bytes × Bytes) :=
  if count ≤ bytes.length then some (bytes.splitAt count) else none

theorem cut?_append {count : Nat} {first : Bytes} (h : first.length = count) (rest : Bytes) :
    cut? count (first ++ rest) = some (first, rest) := by
  subst h
  simp [cut?]

/-- An item of an array, with its length in front. The length minus one stands for null. -/
def readItem (read : Bytes → Option FilterValue) (bytes : Bytes) :
    Option (FilterValue × Bytes) := do
  let (length, bytes) ← cut? 4 bytes
  if ofSigned length = -1 then pure (.null, bytes)
  else if ofSigned length < 0 then none
  else
    let (item, rest) ← cut? (ofSigned length).toNat bytes
    pure (← read item, rest)

def readItems (read : Bytes → Option FilterValue) :
    Nat → Bytes → Option (List FilterValue × Bytes)
  | 0, bytes => some ([], bytes)
  | count + 1, bytes => do
    let (item, bytes) ← readItem read bytes
    let (items, rest) ← readItems read count bytes
    pure (item :: items, rest)

/-- An array of one dimension, whose items are read to its end. It has to tell by a flag whether one of
them is null, and to name their type. -/
def readArray (read : Bytes → Option FilterValue) (oid : Nat) (bytes : Bytes) :
    Option FilterValue := do
  let (dimensions, bytes) ← cut? 4 bytes
  let (flag, bytes) ← cut? 4 bytes
  let (type, bytes) ← cut? 4 bytes
  let (count, bytes) ← cut? 4 bytes
  let (_, bytes) ← cut? 4 bytes
  let (items, rest) ← readItems read (ofSigned count).toNat bytes
  if ofSigned dimensions = 1 ∧ ofSigned flag = (if items.any FilterValue.isNull then 1 else 0) ∧
      ofBigEndian type = oid % 2 ^ 32 ∧ rest = [] then pure (.list items)
  else none

def readInt (width : Nat) (bytes : Bytes) : Option FilterValue :=
  if bytes.length = width then some (.int (Int64.ofInt (ofSigned bytes))) else none

/-- A text, after the version where the type has one. -/
def readText (t : ColumnType) (bytes : Bytes) : Option FilterValue :=
  match t.isTree, bytes with
  | true, 1 :: text => (String.fromUTF8? ⟨text.toArray⟩).map .text
  | true, _ => none
  | false, text => (String.fromUTF8? ⟨text.toArray⟩).map .text

/-- Reads bytes as the type asks for, all of them. -/
def read : ColumnType → Bytes → Option FilterValue
  | .array _ _ _ member, bytes => readArray (read member) member.oid bytes
  | .scalar .bool, [b] => some (.bool (b != 0))
  | .scalar .bool, _ => none
  | .scalar .int2, bytes => readInt 2 bytes
  | .scalar .int4, bytes => readInt 4 bytes
  | .scalar .int8, bytes => readInt 8 bytes
  | t, bytes => if t.isTextual then readText t bytes else none

/-- What is sent, read as a value again. -/
def receive (t : ColumnType) : Option Bytes → Option FilterValue
  | none => some .null
  | some bytes => read t bytes

theorem readItem_append {read : Bytes → Option FilterValue} {head : Bytes}
    (h : head.length = 4) (bytes : Bytes) : readItem read (head ++ bytes) =
      if ofSigned head = -1 then some (.null, bytes)
      else if ofSigned head < 0 then none
      else (cut? (ofSigned head).toNat bytes).bind fun cut =>
        (read cut.1).bind fun item => some (item, cut.2) := by
  rw [readItem, cut?_append h]
  rfl

/-- An element that is read as an item. -/
def Readable (read : Bytes → Option FilterValue) (item : FilterValue) : Option Bytes → Prop
  | none => item = .null
  | some bytes => bytes.length < lengthLimit ∧ read bytes = some item

theorem readItem_elementBytes {read : Bytes → Option FilterValue} {item : FilterValue}
    {element : Option Bytes} (h : Readable read item element) (rest : Bytes) :
    readItem read (elementBytes element ++ rest) = some (item, rest) := by
  cases element with
  | none =>
    obtain rfl := h
    rw [elementBytes, readItem_append (length_bigEndian ..), if_pos ofSigned_missing]
  | some bytes =>
    obtain ⟨hlength, hread⟩ := h
    have hnonneg : ¬ ((bytes.length : Int) < 0) := Int.not_lt.2 (Int.natCast_nonneg _)
    have hpresent : (bytes.length : Int) ≠ -1 := fun h => hnonneg (h ▸ by decide)
    rw [elementBytes, List.append_assoc, readItem_append (length_bigEndian ..),
      ofSigned_length hlength, if_neg hpresent, if_neg hnonneg, Int.toNat_natCast, cut?_append rfl,
      Option.bind_some, hread, Option.bind_some]

theorem readItems_elements {read : Bytes → Option FilterValue} {items : List FilterValue}
    {elements : List (Option Bytes)}
    (h : List.Forall₂ (Readable read) items elements) :
    readItems read items.length (elements.flatMap elementBytes) = some (items, []) := by
  induction h with
  | nil => rfl
  | @cons item element items elements hitem _ ih =>
    rw [List.length_cons, readItems, List.flatMap_cons, readItem_elementBytes hitem]
    simp only [Option.bind_eq_bind, Option.bind_some, ih]
    rfl

theorem readArray_append {read : Bytes → Option FilterValue} {dimensions flag type count first : Bytes}
    (hdimensions : dimensions.length = 4) (hflag : flag.length = 4) (htype : type.length = 4)
    (hcount : count.length = 4) (hfirst : first.length = 4) (oid : Nat) (bytes : Bytes) :
    readArray read oid (dimensions ++ (flag ++ (type ++ (count ++ (first ++ bytes))))) =
      (readItems read (ofSigned count).toNat bytes).bind fun found =>
        if ofSigned dimensions = 1 ∧
            ofSigned flag = (if found.1.any FilterValue.isNull then 1 else 0) ∧
            ofBigEndian type = oid % 2 ^ 32 ∧ found.2 = [] then some (.list found.1)
        else none := by
  rw [readArray]
  simp only [Option.bind_eq_bind, Option.bind_some, cut?_append, hdimensions, hflag, htype, hcount,
    hfirst]
  rfl

theorem readArray_of_items {read : Bytes → Option FilterValue} {items : List FilterValue}
    {elements : List (Option Bytes)} (hlength : items.length < lengthLimit)
    (hnull : elements.any Option.isNone = items.any FilterValue.isNull)
    (h : List.Forall₂ (Readable read) items elements)
    (oid first : Nat) : readArray read oid (arrayBytes oid first elements) = some (.list items) := by
  have hcount : ofSigned (bigEndian 4 elements.length) = items.length := by
    rw [← h.length_eq, ofSigned_length hlength]
  have hdimensions : ofSigned (bigEndian 4 1) = 1 := ofSigned_length (by decide)
  have hflag : ofSigned (bigEndian 4 (if elements.any Option.isNone then 1 else 0)) =
      if items.any FilterValue.isNull then 1 else 0 := by
    rw [hnull]
    split <;> exact ofSigned_length (by decide)
  have htype : ofBigEndian (bigEndian 4 oid) = oid % 2 ^ 32 := ofBigEndian_bigEndian 4 oid
  simp only [arrayBytes, List.append_assoc]
  rw [readArray_append (length_bigEndian ..) (length_bigEndian ..) (length_bigEndian ..)
    (length_bigEndian ..) (length_bigEndian ..), hcount, Int.toNat_natCast, readItems_elements h,
    Option.bind_some, if_pos ⟨hdimensions, hflag, htype, rfl⟩]

namespace ColumnType

/-- Types of truth values, whole numbers and texts, and arrays of such types. -/
inductive Plain : ColumnType → Prop
  | bool : Plain (.scalar .bool)
  | int2 : Plain (.scalar .int2)
  | int4 : Plain (.scalar .int4)
  | int8 : Plain (.scalar .int8)
  | text {t : ColumnType} (textual : t.isTextual = true) : Plain t
  | array {label : TypeName} {oid first : Nat} {member : ColumnType} (plain : Plain member) :
      Plain (.array label oid first member)

/-- No array in a type has a name for which texts are sent as the array. -/
def ArraysApart : ColumnType → Prop
  | array label _ _ member => label.name ∉ textNames ∧ member.ArraysApart
  | _ => True

end ColumnType

theorem fits_of_encode {t : ColumnType} {v : FilterValue} {sent : Option Bytes}
    (h : encode t v = .ok sent) : Fits t v :=
  (encode_isOk_iff.1 ⟨sent, h⟩).1

theorem readInt_bigEndian {width : Nat} {x : BitVec (8 * width)} {n : Int64}
    (h : x.toInt = n.toInt) : readInt width (bigEndian width x.toNat) = some (.int n) := by
  rw [readInt, if_pos (length_bigEndian ..), ofSigned_bigEndian, h, Int64.ofInt_toInt]

theorem fromUTF8?_toUTF8 (s : String) : String.fromUTF8? ⟨s.toUTF8.data.toList.toArray⟩ = some s := by
  rw [Array.toArray_toList]
  exact dif_pos s.isValidUTF8

theorem readText_textBytes (t : ColumnType) (s : String) :
    readText t (textBytes t s) = some (.text s) := by
  unfold readText textBytes
  cases t.isTree
  all_goals exact congrArg (Option.map FilterValue.text) (fromUTF8?_toUTF8 s)

theorem read_of_textual {t : ColumnType} (textual : t.isTextual = true)
    (hkind : ∀ label oid first member, t ≠ .array label oid first member) (bytes : Bytes) :
    read t bytes = readText t bytes := by
  unfold read
  split
  case h_7 => exact if_pos textual
  case h_1 => exact absurd rfl (hkind _ _ _ _)
  all_goals cases textual

section
variable {t : ColumnType} {v : FilterValue} {sent : Option Bytes}

theorem receive_bool (h : encode (.scalar .bool) v = .ok sent) :
    receive (.scalar .bool) sent = some v := by
  cases fits_of_encode h with
  | null =>
    cases h
    rfl
  | @bool b =>
    cases h
    cases b <;> rfl
  | int wide => simp at wide
  | float wide => simp at wide
  | text textual => cases textual

theorem null_or_int_of_fits {s : Scalar} (hs : s = .int2 ∨ s = .int4 ∨ s = .int8)
    (h : Fits (.scalar s) v) : v = .null ∨ ∃ n, v = .int n := by
  cases h with
  | null => exact .inl rfl
  | int2 => exact .inr ⟨_, rfl⟩
  | int4 => exact .inr ⟨_, rfl⟩
  | int => exact .inr ⟨_, rfl⟩
  | bool => simp at hs
  | float wide => rcases hs with rfl | rfl | rfl <;> simp at wide
  | text textual => rcases hs with rfl | rfl | rfl <;> cases textual

/-- A whole number comes back from the bytes of any word that holds it. -/
theorem receive_int {s : Scalar} (hs : s = .int2 ∨ s = .int4 ∨ s = .int8) {width : Nat}
    (hread : read (.scalar s) = readInt width)
    (hword : ∀ {n : Int64} {bytes : Bytes}, intBytes (.scalar s) n = .ok bytes →
      ∃ x : BitVec (8 * width), x.toInt = n.toInt ∧ bigEndian width x.toNat = bytes)
    (h : encode (.scalar s) v = .ok sent) : receive (.scalar s) sent = some v := by
  obtain rfl | ⟨n, rfl⟩ := null_or_int_of_fits hs (fits_of_encode h)
  · cases h
    rfl
  · obtain ⟨bytes, hbytes, rfl⟩ := except_map_eq_ok.1 h
    obtain ⟨x, hx, rfl⟩ := hword hbytes
    rw [receive, hread]
    exact readInt_bigEndian hx

theorem receive_text (textual : t.isTextual = true)
    (hkind : ∀ label oid first member, t ≠ .array label oid first member)
    (h : encode t v = .ok sent) : receive t sent = some v := by
  cases fits_of_encode h with
  | null =>
    cases h
    rfl
  | @text _ s =>
    obtain ⟨-, rfl⟩ := except_ite_eq_ok.1 h
    rw [receive, read_of_textual textual hkind]
    exact readText_textBytes t s
  | bool => cases textual
  | int2 => cases textual
  | int4 => cases textual
  | int wide => rcases wide with rfl | rfl | rfl <;> cases textual
  | float wide => rcases wide with rfl | rfl <;> cases textual
  | list => exact absurd rfl (hkind _ _ _ _)

end

theorem readable_of_encode {t : ColumnType}
    (h : ∀ {v : FilterValue} {sent : Option Bytes}, encode t v = .ok sent → receive t sent = some v)
    {item : FilterValue} {element : Option Bytes} (hitem : encodeItem t item = .ok element) :
    Readable (read t) item element := by
  obtain ⟨hencode, hlength⟩ := encodeItem_eq_ok.1 hitem
  cases element with
  | none => exact encode_eq_none.1 hencode
  | some bytes => exact ⟨hlength bytes rfl, h hencode⟩

theorem any_isNone_of_encode {t : ColumnType} {items : List FilterValue}
    {elements : List (Option Bytes)}
    (h : List.Forall₂ (fun item element => encodeItem t item = .ok element) items elements) :
    elements.any Option.isNone = items.any FilterValue.isNull := by
  induction h with
  | nil => rfl
  | @cons item element items elements hitem _ ih =>
    have hencode := (encodeItem_eq_ok.1 hitem).1
    rw [List.any_cons, List.any_cons, ih]
    congr 1
    cases element with
    | none => rw [encode_eq_none.1 hencode]; rfl
    | some bytes =>
      cases item with
      | null => cases hencode
      | _ => rfl

theorem receive_array {label : TypeName} {oid first : Nat} {member : ColumnType}
    (hname : label.name ∉ ColumnType.textNames)
    (hmember : ∀ {v : FilterValue} {sent : Option Bytes}, encode member v = .ok sent →
      receive member sent = some v)
    {v : FilterValue} {sent : Option Bytes} (h : encode (.array label oid first member) v = .ok sent) :
    receive (.array label oid first member) sent = some v := by
  cases fits_of_encode h with
  | null =>
    cases h
    rfl
  | text textual => cases textual.symm.trans (ColumnType.isTextual_array.2 hname)
  | @list _ _ _ _ items =>
    obtain ⟨_, _, _, _, ⟨⟩, -, hlength, elements, helements, rfl⟩ := encode_list_eq_ok.1 h
    rw [encodeItems_eq_mapM, mapM_eq_ok] at helements
    have hnull := any_isNone_of_encode helements
    have hitems := helements.imp fun item element hitem => readable_of_encode hmember hitem
    exact readArray_of_items hlength hnull hitems member.oid first

theorem receive_encode {t : ColumnType} (plain : t.Plain) (apart : t.ArraysApart) :
    ∀ {v : FilterValue} {sent : Option Bytes}, encode t v = .ok sent → receive t sent = some v := by
  induction plain with
  | bool => exact receive_bool
  | int2 =>
    refine receive_int (.inl rfl) rfl fun h => ?_
    obtain ⟨m, hm⟩ := intBytes_int2_eq_ok.1 h
    exact ⟨m.toBitVec, hm⟩
  | int4 =>
    refine receive_int (.inr (.inl rfl)) rfl fun h => ?_
    obtain ⟨m, hm⟩ := intBytes_int4_eq_ok.1 h
    exact ⟨m.toBitVec, hm⟩
  | int8 =>
    refine receive_int (.inr (.inr rfl)) rfl fun {n _} h => ?_
    exact ⟨n.toBitVec, rfl, Except.ok.inj h⟩
  | @text t textual =>
    -- an array may be a type of texts by its name alone, and such names are excluded
    refine receive_text textual ?_
    rintro label oid first member rfl
    exact apart.1 (by_contra fun hname =>
      Bool.false_ne_true ((ColumnType.isTextual_array.2 hname).symm.trans textual))
  | array _ ih => exact receive_array apart.1 (ih apart.2)

/-- What is sent is read as the value that it was, to its last byte, and so by no other value. Nothing at
all is sent for null alone, and the flag of an array tells whether one of its items is null. -/
theorem sent_value_is_received {t : ColumnType} (plain : t.Plain) (apart : t.ArraysApart)
    {v : FilterValue} {sent : Option Bytes} (h : encode t v = .ok sent) :
    receive t sent = some v ∧ (sent = none ↔ v = .null) ∧
      (∀ items, v = .list items → ∃ rest, sent = some (bigEndian 4 1 ++
        bigEndian 4 (if items.any FilterValue.isNull then 1 else 0) ++ rest)) ∧
      ∀ w, encode t w = .ok sent → w = v := by
  have hreceive := receive_encode plain apart h
  refine ⟨hreceive, ?_, ?_, ?_⟩
  · constructor
    · rintro rfl
      exact encode_eq_none.1 h
    · rintro rfl
      cases h
      rfl
  · rintro items rfl
    obtain ⟨label, oid, first, member, rfl, -, -, elements, helements, rfl⟩ := encode_list_eq_ok.1 h
    rw [encodeItems_eq_mapM, mapM_eq_ok] at helements
    rw [arrayBytes, any_isNone_of_encode helements]
    simp only [List.append_assoc]
    exact ⟨_, rfl⟩
  · intro w hw
    exact Option.some.inj ((receive_encode plain apart hw).symm.trans hreceive)

/-- Rows of labels, with a row and a label missing. -/
theorem label_rows_received :
    let labels := ColumnType.array ⟨"public", "_ltree"⟩ 90002 1 (.custom ⟨"public", "ltree"⟩ 90003)
    let t := ColumnType.array ⟨"public", "rows"⟩ 90001 1 labels
    let v := FilterValue.list [.list [.text "a.b", .null], .null, .list []]
    t.Plain ∧ t.ArraysApart ∧ ∃ sent, encode t v = .ok sent ∧ receive t sent = some v := by
  intro labels t v
  have plain : t.Plain := .array (.array (.text rfl))
  have apart : t.ArraysApart := ⟨by decide, by decide, trivial⟩
  exact ⟨plain, apart, _, rfl, (sent_value_is_received plain apart rfl).1⟩

/-- An array type with a name for which texts are sent as it. -/
def mislabelled : ColumnType := .array ⟨"public", "citext"⟩ 90001 1 (.scalar .int4)

/-- The text whose bytes are those of an array without items. -/
def emptyWords : String :=
  "\x00\x00\x00\x01\x00\x00\x00\x00\x00\x00\x00\x17\x00\x00\x00\x00\x00\x00\x00\x01"

def emptyWordsBytes : Bytes := [0, 0, 0, 1, 0, 0, 0, 0, 0, 0, 0, 23, 0, 0, 0, 0, 0, 0, 0, 1]

/-- Such a name makes a type ambiguous: a text and an array are sent the same, and read as the array. -/
theorem text_sent_as_empty_array : mislabelled.Plain ∧
    (∃ sent, encode mislabelled (.text emptyWords) = .ok sent ∧
      encode mislabelled (.list []) = .ok sent ∧ receive mislabelled sent = some (.list [])) ∧
    FilterValue.text emptyWords ≠ .list [] := by
  have htext : encode mislabelled (.text emptyWords) = .ok (some emptyWordsBytes) := rfl
  have hlist : encode mislabelled (.list []) = .ok (some emptyWordsBytes) := rfl
  have hread : receive mislabelled (some emptyWordsBytes) = some (.list []) :=
    readArray_of_items (by decide) rfl .nil 23 1
  refine ⟨.array .int4, ⟨some emptyWordsBytes, htext, hlist, hread⟩, ?_⟩
  rintro ⟨⟩

end Wire
end NamedQuery
