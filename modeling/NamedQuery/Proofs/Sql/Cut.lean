import NamedQuery.Proofs.Sql.Dotted
import NamedQuery.Proofs.Text.Clip
import Mathlib.Algebra.Group.Nat.Even

namespace NamedQuery.Sql

open String (utf8Len)
open Text (IsBoundary isBoundary_of_toList)

/-- A text ends on the side of its quotes on which it starts when their number is even. -/
theorem endsQuoted_eq_self (quoted : Bool) (cs : List Char) :
    endsQuoted quoted cs = quoted ↔ Even (cs.count '"') := by
  induction cs generalizing quoted with
  | nil => simp [endsQuoted]
  | cons c rest ih =>
    rw [endsQuoted]
    by_cases hc : c = '"'
    · rw [if_pos hc, hc, List.count_cons_self, Nat.even_add_one, ← ih (!quoted)]
      cases quoted <;> simp
    · rw [if_neg hc, List.count_cons_of_ne hc, ih]

/-- A text is one part when no dot in it stands outside quotes. -/
theorem splitDots_eq_singleton {quoted : Bool} {cs : List Char} :
    splitDots quoted cs = [cs] ↔
      ∀ before rest, cs = before ++ '.' :: rest → endsQuoted quoted before = true := by
  induction cs generalizing quoted with
  | nil => simp [splitDots]
  | cons c more ih =>
    rw [splitDots]
    split
    next hdot =>
      refine iff_of_false (by simp) fun hall => ?_
      have hquoted : quoted = true := hall [] more (by rw [hdot.1, List.nil_append])
      simp [hquoted] at hdot
    next hdot =>
      have hone (parts : List (List Char)) (hne : parts ≠ []) :
          consFirst c parts = [c :: more] ↔ parts = [more] :=
        ⟨eq_of_consFirst hne, fun h => h ▸ rfl⟩
      rw [hone _ (splitDots_ne_nil _ _), ih]
      constructor
      · intro hall before rest hsplit
        obtain ⟨rfl, hrest⟩ | ⟨before, rfl, hmore⟩ := List.cons_eq_append_iff.1 hsplit
        · obtain ⟨rfl, -⟩ := List.cons.inj hrest
          simpa [endsQuoted] using hdot
        · exact hall before rest hmore
      · intro hall before rest hmore
        exact hall (c :: before) rest (by rw [hmore, List.cons_append])

/-- How parts follow each other in a text that starts inside quotes, or outside: none of them is
split, and each but the last ends outside quotes. -/
inductive Parts : Bool → List (List Char) → Prop
  | last {quoted : Bool} {part : List Char} (whole : splitDots quoted part = [part]) :
    Parts quoted [part]
  | cons {quoted : Bool} {part : List Char} {rest : List (List Char)}
    (whole : splitDots quoted part = [part]) (ends : endsQuoted quoted part = false)
    (tail : Parts false rest) : Parts quoted (part :: rest)

theorem Parts.consFirst {quoted : Bool} {c : Char} {parts : List (List Char)}
    (hdot : ¬ (c = '.' ∧ !quoted)) (h : Parts (if c = '"' then !quoted else quoted) parts) :
    Parts quoted (Sql.consFirst c parts) := by
  have hcons {part : List Char}
      (whole : splitDots (if c = '"' then !quoted else quoted) part = [part]) :
      splitDots quoted (c :: part) = [c :: part] := by
    rw [splitDots, if_neg hdot, whole]
    rfl
  cases h with
  | last whole => exact .last (hcons whole)
  | cons whole ends tail => exact .cons (hcons whole) ends tail

theorem parts_splitDots (quoted : Bool) (cs : List Char) : Parts quoted (splitDots quoted cs) := by
  induction cs generalizing quoted with
  | nil => exact .last rfl
  | cons c rest ih =>
    rw [splitDots]
    split
    next hdot =>
      have hout : quoted = false := by simpa using hdot.2
      subst hout
      exact .cons rfl rfl (ih false)
    next hdot => exact (ih _).consFirst hdot

theorem Parts.forall_mem {parts : List (List Char)} (h : Parts false parts) :
    (∀ part ∈ parts, splitDots false part = [part]) ∧
      ∀ part ∈ parts.dropLast, endsQuoted false part = false := by
  generalize hquoted : false = quoted at h
  induction h with
  | last whole =>
    subst hquoted
    exact ⟨List.forall_mem_singleton.2 whole, nofun⟩
  | @cons _ part rest whole ends tail ih =>
    subst hquoted
    obtain ⟨hwhole, hends⟩ := ih rfl
    refine ⟨List.forall_mem_cons.2 ⟨whole, hwhole⟩, ?_⟩
    cases tail <;> exact List.forall_mem_cons.2 ⟨ends, hends⟩

/-- Texts that can stand between the dots at which a name is split: a dot inside one of them has no
even number of quotes before it, and each but the last has an even number of them. -/
structure Sections (parts : List String) : Prop where
  inside : ∀ part ∈ parts, ∀ before rest, part.toList = before ++ '.' :: rest →
    ¬ Even (before.count '"')
  closed : ∀ part ∈ parts.dropLast, Even (part.toList.count '"')

theorem sections_iff {parts : List String} : Sections parts ↔
    (∀ part ∈ parts, splitDots false part.toList = [part.toList]) ∧
      ∀ part ∈ parts.dropLast, endsQuoted false part.toList = false := by
  have hodd (before : List Char) :
      ¬ Even (before.count '"') ↔ endsQuoted false before = true := by
    rw [← endsQuoted_eq_self false, Bool.not_eq_false]
  simp only [splitDots_eq_singleton, endsQuoted_eq_self, ← hodd]
  exact ⟨fun h => ⟨h.inside, h.closed⟩, fun h => ⟨h.1, h.2⟩⟩

theorem sections_segments (text : String) : Sections (segments text) := by
  obtain ⟨hwhole, hends⟩ := (parts_splitDots false text.toList).forall_mem
  rw [sections_iff, segments, ← List.map_dropLast]
  constructor
  · intro part hpart
    obtain ⟨cs, hcs, rfl⟩ := List.mem_map.1 hpart
    rw [String.toList_ofList, hwhole cs hcs]
  · intro part hpart
    obtain ⟨cs, hcs, rfl⟩ := List.mem_map.1 hpart
    rw [String.toList_ofList, hends cs hcs]

/-- The bytes at which the parts of a text start and end, as one walk over it finds them: the part
that is being read starts at `start`, and the next character at `index`. -/
def cuts (quoted : Bool) (start index : Nat) : List Char → List (Nat × Nat)
  | [] => [(start, index)]
  | c :: rest =>
    if c = '.' ∧ !quoted then
      (start, index) :: cuts quoted (index + 1) (index + c.utf8Size) rest
    else cuts (if c = '"' then !quoted else quoted) start (index + c.utf8Size) rest

/-- A part of a text is what stands between two of its boundaries. -/
structure IsSlice (text : String) (cut : Nat × Nat) (part : String) : Prop where
  ordered : cut.1 ≤ cut.2
  start_boundary : IsBoundary text cut.1
  stop_boundary : IsBoundary text cut.2
  bytes : text.toByteArray.extract cut.1 cut.2 = part.toByteArray

theorem isSlice_of_toList {text : String} {before part rest : List Char}
    (h : text.toList = before ++ part ++ rest) :
    IsSlice text (utf8Len before, utf8Len (before ++ part)) (String.ofList part) where
  ordered := by
    rw [String.utf8Len_append]
    exact Nat.le_add_right _ _
  start_boundary := isBoundary_of_toList (h.trans (List.append_assoc _ _ _))
  stop_boundary := isBoundary_of_toList h
  bytes := by
    have htext : text.toByteArray = (String.ofList before).toByteArray ++
        ((String.ofList part).toByteArray ++ (String.ofList rest).toByteArray) := by
      rw [← String.toByteArray_append, ← String.toByteArray_append, ← String.ofList_append,
        ← String.ofList_append, ← List.append_assoc, ← h, String.ofList_toList]
    have hsize (cs : List Char) : utf8Len cs = (String.ofList cs).toByteArray.size := by
      rw [String.size_toByteArray, String.utf8ByteSize_ofList]
    have hskip (front back : ByteArray) (count : Nat) :
        (front ++ back).extract front.size (front.size + count) = back.extract 0 count :=
      ByteArray.extract_append_size_add (i := 0)
    rw [String.utf8Len_append, hsize before, hsize part, htext, hskip,
      ByteArray.extract_append_eq_left rfl]

/-- The part that is being read and those behind it are slices at the bytes that the walk finds. -/
theorem slices_cuts {text : String} (quoted : Bool) (before part rest : List Char)
    (h : text.toList = before ++ part ++ rest) :
    List.Forall₂ (IsSlice text) (cuts quoted (utf8Len before) (utf8Len (before ++ part)) rest)
      ((part.foldr consFirst (splitDots quoted rest)).map String.ofList) := by
  -- what the walk has read of the open part goes in front of the first part that it still finds
  induction rest generalizing quoted before part with
  | nil =>
    rw [cuts, splitDots, foldr_consFirst, List.append_nil]
    exact .cons (isSlice_of_toList h) .nil
  | cons c rest ih =>
    rw [cuts, splitDots]
    split
    next hdot =>
      have hnext := ih quoted (before ++ part ++ ['.']) [] (by simp [h, hdot.1])
      have hlen : utf8Len (before ++ part ++ ['.']) = utf8Len (before ++ part) + 1 :=
        String.utf8Len_append _ _
      rw [List.append_nil, hlen] at hnext
      rw [foldr_consFirst, List.append_nil, hdot.1]
      exact .cons (isSlice_of_toList h) hnext
    next hdot =>
      have hnext := ih (if c = '"' then !quoted else quoted) before (part ++ [c]) (by simp [h])
      have hlen : utf8Len (before ++ (part ++ [c])) = utf8Len (before ++ part) + c.utf8Size := by
        rw [← List.append_assoc, String.utf8Len_append, String.utf8Len_cons, String.utf8Len_nil,
          Nat.zero_add]
      rw [hlen, List.foldr_append] at hnext
      exact hnext

/-- What is split and what is joined by dots again are the same parts, whatever quotes they hold. One
walk over the bytes of the text cuts it into them, always between two characters. -/
theorem segments_eq_iff_joined (text : String) :
    (∀ parts, segments text = parts ↔
      parts ≠ [] ∧ Sections parts ∧ ".".intercalate parts = text) ∧
    List.Forall₂ (IsSlice text) (cuts false 0 0 text.toList) (segments text) := by
  constructor
  · intro parts
    constructor
    · intro h
      subst h
      exact ⟨segments_ne_nil text, sections_segments text, intercalate_segments text⟩
    · intro h
      obtain ⟨hne, hsections, htext⟩ := h
      obtain ⟨hwhole, hends⟩ := sections_iff.1 hsections
      rw [← htext]
      exact segments_of_whole hne hwhole hends
  · exact slices_cuts false [] [] text.toList rfl

/-- A quote that is left open keeps the dots behind it from splitting, and a character of two bytes
moves the cuts behind it. -/
example : segments "é.\"x.y" = ["é", "\"x.y"] ∧
    cuts false 0 0 "é.\"x.y".toList = [(0, 2), (3, 7)] := by
  decide

end NamedQuery.Sql
