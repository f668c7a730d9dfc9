import NamedQuery.Text.Clip
import Mathlib.Data.String.Basic
import Mathlib.Order.Bounds.Basic

namespace NamedQuery.Text

open String (utf8Len)

/-- The longest start of a text that takes at most `room` bytes. -/
def fit (room : Nat) : List Char → List Char
  | [] => []
  | c :: rest => if c.utf8Size ≤ room then c :: fit (room - c.utf8Size) rest else []

theorem fit_isStart (room : Nat) (cs : List Char) : fit room cs <+: cs := by
  induction cs generalizing room with
  | nil => exact List.nil_prefix
  | cons c rest ih =>
    rw [fit]
    split
    · exact List.cons_prefix_cons.2 ⟨rfl, ih _⟩
    · exact List.nil_prefix

theorem utf8Len_fit_le (room : Nat) (cs : List Char) : utf8Len (fit room cs) ≤ room := by
  induction cs generalizing room with
  | nil => exact Nat.zero_le _
  | cons c rest ih =>
    rw [fit]
    split
    next hc =>
      have hrest := ih (room - c.utf8Size)
      rw [String.utf8Len_cons]
      omega
    next => exact Nat.zero_le _

/-- A start for which there is room is part of what is taken. -/
theorem prefix_fit {room : Nat} {start cs : List Char} (h : start <+: cs)
    (hroom : utf8Len start ≤ room) : start <+: fit room cs := by
  induction cs generalizing room start with
  | nil => exact h
  | cons c rest ih =>
    obtain rfl | ⟨more, rfl, hmore⟩ := List.prefix_cons_iff.1 h
    · exact List.nil_prefix
    · rw [String.utf8Len_cons] at hroom
      rw [fit, if_pos (by omega)]
      exact List.cons_prefix_cons.2 ⟨rfl, ih hmore (by omega)⟩

/-- Where not all is taken, the next character has no room, and no character is longer than four
bytes. -/
theorem room_lt_utf8Len_fit {room : Nat} {cs : List Char} (h : room < utf8Len cs) :
    room < utf8Len (fit room cs) + 4 := by
  induction cs generalizing room with
  | nil => exact absurd h (Nat.not_lt_zero _)
  | cons c rest ih =>
    rw [String.utf8Len_cons] at h
    rw [fit]
    split
    next hc =>
      have hrest : room - c.utf8Size < utf8Len (fit (room - c.utf8Size) rest) + 4 :=
        ih (by omega)
      rw [String.utf8Len_cons]
      omega
    next hc =>
      have hfour := c.utf8Size_le_four
      omega

/-- What is left of a text that is clipped. -/
def kept (text : String) (max : Nat) : String :=
  String.ofList (fit max text.toList)

/-- A start of a text of at most `max` bytes, to which no character can be added. -/
structure LongestStart (text : String) (max : Nat) (start : String) : Prop where
  isStart : ∃ rest, text = start ++ rest
  short : start.utf8ByteSize ≤ max
  longest : ∀ other rest, text = other ++ rest → other.utf8ByteSize ≤ max →
    ∃ more, start = other ++ more

theorem exists_append_iff {text start : String} :
    (∃ rest, text = start ++ rest) ↔ start.toList <+: text.toList := by
  constructor
  · rintro ⟨rest, rfl⟩
    rw [String.toList_append]
    exact List.prefix_append _ _
  · rintro ⟨rest, hrest⟩
    refine ⟨String.ofList rest, ?_⟩
    rw [← String.toList_inj, String.toList_append, String.toList_ofList, hrest]

theorem utf8Len_toList (text : String) : utf8Len text.toList = text.utf8ByteSize := by
  rw [← String.utf8ByteSize_ofList, String.ofList_toList]

theorem longestStart_kept (text : String) (max : Nat) : LongestStart text max (kept text max) where
  isStart := by
    rw [exists_append_iff, kept, String.toList_ofList]
    exact fit_isStart _ _
  short := by
    rw [kept, String.utf8ByteSize_ofList]
    exact utf8Len_fit_le _ _
  longest other rest htext hother := by
    rw [exists_append_iff, kept, String.toList_ofList]
    exact prefix_fit (exists_append_iff.1 ⟨rest, htext⟩) (utf8Len_toList other ▸ hother)

theorem kept_of_le {text : String} {max : Nat} (h : text.utf8ByteSize ≤ max) :
    kept text max = text := by
  have hall : text.toList <+: fit max text.toList :=
    prefix_fit List.prefix_rfl (utf8Len_toList text ▸ h)
  rw [kept, (fit_isStart max text.toList).eq_of_length_le hall.length_le, String.ofList_toList]

theorem max_le_kept {text : String} {max : Nat} (h : max < text.utf8ByteSize) :
    max ≤ (kept text max).utf8ByteSize + 3 := by
  have hlt := room_lt_utf8Len_fit (utf8Len_toList text ▸ h)
  rw [kept, String.utf8ByteSize_ofList]
  omega

/-- More room keeps what less room does. -/
theorem kept_mono (text : String) {less max : Nat} (h : less ≤ max) :
    ∃ more, kept text max = kept text less ++ more := by
  obtain ⟨rest, hrest⟩ := (longestStart_kept text less).isStart
  have hshort := (longestStart_kept text less).short
  exact (longestStart_kept text max).longest _ rest hrest (by omega)

/-- The index of a byte at which a text can be cut in two. -/
def IsBoundary (text : String) (index : Nat) : Prop :=
  (⟨index⟩ : String.Pos.Raw).IsValid text

theorem isBoundary_iff {text : String} {index : Nat} :
    IsBoundary text index ↔ ∃ start rest, text = start ++ rest ∧ index = start.utf8ByteSize := by
  rw [IsBoundary, String.Pos.Raw.isValid_iff_exists_append]
  simp [String.Pos.Raw.ext_iff]

theorem isBoundary_of_toList {text : String} {start rest : List Char}
    (h : text.toList = start ++ rest) : IsBoundary text (utf8Len start) := by
  refine isBoundary_iff.2 ⟨String.ofList start, String.ofList rest, ?_, ?_⟩
  · rw [← String.ofList_append, ← h, String.ofList_toList]
  · rw [String.utf8ByteSize_ofList]

theorem isGreatest_boundaryBelow (text : String) (max : Nat) :
    IsGreatest {index | index ≤ max ∧ IsBoundary text index} (boundaryBelow text max) := by
  induction max with
  | zero =>
    refine ⟨⟨le_rfl, isBoundary_iff.2 ⟨"", text, ?_, rfl⟩⟩, fun index h => h.1⟩
    rw [String.empty_append]
  | succ max ih =>
    obtain ⟨⟨hle, hboundary⟩, hgreatest⟩ := ih
    rw [boundaryBelow]
    split
    next hvalid =>
      exact ⟨⟨le_rfl, String.Pos.Raw.isValid_eq_true_iff.1 hvalid⟩, fun index h => h.1⟩
    next hvalid =>
      refine ⟨⟨by omega, hboundary⟩, fun index ⟨hindex, hother⟩ => ?_⟩
      have hne : index ≠ max + 1 := by
        rintro rfl
        exact hvalid (String.Pos.Raw.isValid_eq_true_iff.2 hother)
      exact hgreatest ⟨by omega, hother⟩

/-- The longest start ends where a search for a boundary does. -/
theorem LongestStart.isGreatest {text start : String} {max : Nat}
    (h : LongestStart text max start) :
    IsGreatest {index | index ≤ max ∧ IsBoundary text index} start.utf8ByteSize := by
  obtain ⟨rest, hrest⟩ := h.isStart
  refine ⟨⟨h.short, isBoundary_iff.2 ⟨start, rest, hrest, rfl⟩⟩, ?_⟩
  rintro index ⟨hindex, hboundary⟩
  obtain ⟨other, rest', htext, rfl⟩ := isBoundary_iff.1 hboundary
  obtain ⟨more, rfl⟩ := h.longest other rest' htext hindex
  rw [String.utf8ByteSize_append]
  exact Nat.le_add_right _ _

theorem boundaryBelow_eq (text : String) (max : Nat) :
    boundaryBelow text max = (kept text max).utf8ByteSize :=
  (isGreatest_boundaryBelow text max).unique (longestStart_kept text max).isGreatest

/-- What is kept are the bytes before that index. -/
theorem toByteArray_kept (text : String) (max : Nat) :
    (kept text max).toByteArray = text.toByteArray.extract 0 (boundaryBelow text max) := by
  obtain ⟨rest, hrest⟩ := (longestStart_kept text max).isStart
  have hsize : boundaryBelow text max = (kept text max).toByteArray.size := by
    rw [boundaryBelow_eq, String.size_toByteArray]
  have hbytes : text.toByteArray = (kept text max).toByteArray ++ rest.toByteArray := by
    rw [← String.toByteArray_append, ← hrest]
  rw [hsize, hbytes, ByteArray.extract_append_eq_left rfl]

/-- What stands before that index is the longest start. -/
theorem extract_boundaryBelow (text : String) (max : Nat) :
    String.Pos.Raw.extract text 0 ⟨boundaryBelow text max⟩ = kept text max := by
  obtain ⟨rest, hrest⟩ := (longestStart_kept text max).isStart
  have htext : text = String.ofList ([] ++ (kept text max).toList ++ rest.toList) := by
    rw [List.nil_append, ← String.toList_append, String.ofList_toList, ← hrest]
  have hextract := String.extract_of_valid [] (kept text max).toList rest.toList
  rw [← htext, String.ofList_toList, utf8Len_toList, ← boundaryBelow_eq] at hextract
  simpa using hextract

/-- A text that is too long is cut at the last boundary that leaves no more bytes than asked for, which a
search downwards finds. At most three bytes are given up by that, and more room never keeps less. -/
theorem clip_at_last_boundary (text : String) (max : Nat) :
    (max = 0 ∨ text.utf8ByteSize ≤ max → clip text max = text) ∧
    (max ≠ 0 → max < text.utf8ByteSize → clip text max = kept text max ++ "...") ∧
    LongestStart text max (kept text max) ∧
    IsGreatest {index | index ≤ max ∧ IsBoundary text index} (boundaryBelow text max) ∧
    (kept text max).toByteArray = text.toByteArray.extract 0 (boundaryBelow text max) ∧
    (max < text.utf8ByteSize → max ≤ (kept text max).utf8ByteSize + 3) ∧
    (text.utf8ByteSize ≤ max → kept text max = text) ∧
    ∀ less, less ≤ max → ∃ more, kept text max = kept text less ++ more := by
  refine ⟨fun h => if_pos h, fun hne hlt => ?_, longestStart_kept text max,
    isGreatest_boundaryBelow text max, toByteArray_kept text max, max_le_kept, kept_of_le,
    fun less => kept_mono text⟩
  rw [clip, if_neg (by omega), extract_boundaryBelow]

/-- A letter of one byte, a sign of three and a picture of four. -/
def widening : String := "a€😀"

/-- Seven bytes have no room for the last character, and three of them are given up. -/
theorem widening_clipped : 7 ≠ 0 ∧ 7 < widening.utf8ByteSize ∧ 3 ≤ 7 ∧
    clip widening 7 = "a€..." ∧ IsGreatest {index | index ≤ 7 ∧ IsBoundary widening index} 4 ∧
    7 ≤ (kept widening 7).utf8ByteSize + 3 ∧ (∃ more, kept widening 7 = kept widening 3 ++ more) ∧
    kept widening 3 = "a" ∧ clip widening 8 = widening := by
  have hlt : 7 < widening.utf8ByteSize := by decide
  obtain ⟨-, hclip, -, hgreatest, -, hthree, -, hgrow⟩ := clip_at_last_boundary widening 7
  obtain ⟨hwhole, -⟩ := clip_at_last_boundary widening 8
  refine ⟨by decide, hlt, by decide, hclip (by decide) hlt, ?_, hthree hlt, hgrow 3 (by decide),
    by decide, hwhole (.inr (by decide))⟩
  have hindex : boundaryBelow widening 7 = 4 := by decide
  rwa [hindex] at hgreatest

end NamedQuery.Text
