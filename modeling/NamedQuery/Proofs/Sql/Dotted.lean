import NamedQuery.Proofs.Sql.Ident
import NamedQuery.Sql.Dotted

namespace NamedQuery.Sql

theorem splitDots_ne_nil (quoted : Bool) (cs : List Char) : splitDots quoted cs ≠ [] := by
  cases cs with
  | nil => simp [splitDots]
  | cons c rest =>
    unfold splitDots
    split
    · simp
    · unfold consFirst
      split <;> simp

theorem intercalate_consFirst (c : Char) {parts : List (List Char)} (h : parts ≠ []) :
    ['.'].intercalate (consFirst c parts) = c :: ['.'].intercalate parts := by
  obtain ⟨part, more, rfl⟩ := List.exists_cons_of_ne_nil h
  cases more with
  | nil => simp [consFirst]
  | cons next more => simp [consFirst, List.intercalate_cons_cons]

theorem intercalate_splitDots (quoted : Bool) (cs : List Char) :
    ['.'].intercalate (splitDots quoted cs) = cs := by
  induction cs generalizing quoted with
  | nil => rfl
  | cons c rest ih =>
    unfold splitDots
    split
    next hdot =>
      rw [List.intercalate_cons_of_ne_nil (splitDots_ne_nil _ _), ih, hdot.1]
      rfl
    next => rw [intercalate_consFirst c (splitDots_ne_nil _ _), ih]

/-- With the dots between them again, the segments of a name are the name. -/
theorem intercalate_segments (text : String) : ".".intercalate (segments text) = text := by
  have hparts : (segments text).map String.toList = splitDots false text.toList := by
    simp [segments, Function.comp_def]
  rw [← String.toList_inj, String.toList_intercalate, hparts]
  exact intercalate_splitDots false text.toList

/-- Whether a text ends inside double quotes, when every quote leads into them or out of them. -/
def endsQuoted : Bool → List Char → Bool
  | quoted, [] => quoted
  | quoted, c :: rest => endsQuoted (if c = '"' then !quoted else quoted) rest

theorem endsQuoted_append (quoted : Bool) (as bs : List Char) :
    endsQuoted quoted (as ++ bs) = endsQuoted (endsQuoted quoted as) bs := by
  induction as generalizing quoted with
  | nil => rfl
  | cons a rest ih => exact ih _

theorem endsQuoted_of_not_mem (quoted : Bool) {cs : List Char} (h : '"' ∉ cs) :
    endsQuoted quoted cs = quoted := by
  induction cs with
  | nil => rfl
  | cons c rest ih =>
    have hc : c ≠ '"' := (List.ne_of_not_mem_cons h).symm
    rw [endsQuoted, if_neg hc]
    exact ih (List.not_mem_of_not_mem_cons h)

/-- Doubled quotes lead out of the quotes and in again. -/
theorem endsQuoted_double (name : List Char) : endsQuoted true (double name) = true := by
  induction name with
  | nil => rfl
  | cons c rest ih => by_cases hc : c = '"' <;> simpa [double, endsQuoted, hc] using ih

theorem foldr_consFirst (cs part : List Char) (parts : List (List Char)) :
    cs.foldr consFirst (part :: parts) = (cs ++ part) :: parts := by
  induction cs with
  | nil => rfl
  | cons c rest ih =>
    rw [List.foldr_cons, ih]
    rfl

theorem eq_of_consFirst {c : Char} {part : List Char} {parts : List (List Char)} (hne : parts ≠ [])
    (h : consFirst c parts = [c :: part]) : parts = [part] := by
  obtain ⟨first, more, rfl⟩ := List.exists_cons_of_ne_nil hne
  simpa [consFirst] using h

/-- What is not split by itself belongs to the first part of any text that it begins. -/
theorem splitDots_append {quoted : Bool} {cs : List Char} (h : splitDots quoted cs = [cs])
    (rest : List Char) :
    splitDots quoted (cs ++ rest) = cs.foldr consFirst (splitDots (endsQuoted quoted cs) rest) := by
  induction cs generalizing quoted with
  | nil => rfl
  | cons c more ih =>
    have hdot : ¬ (c = '.' ∧ !quoted) := by
      intro hdot
      rw [splitDots, if_pos hdot] at h
      simp at h
    rw [splitDots, if_neg hdot] at h
    have hmore := eq_of_consFirst (splitDots_ne_nil _ _) h
    rw [List.cons_append, splitDots, if_neg hdot, ih hmore, endsQuoted, List.foldr_cons]

theorem splitDots_append_dot {cs : List Char} (h : splitDots false cs = [cs])
    (hends : endsQuoted false cs = false) (rest : List Char) :
    splitDots false (cs ++ '.' :: rest) = cs :: splitDots false rest := by
  have hdot : splitDots false ('.' :: rest) = [] :: splitDots false rest := by simp [splitDots]
  rw [splitDots_append h, hends, hdot, foldr_consFirst, List.append_nil]

/-- Parts that are not split by themselves are found again between dots, if each of them but the last
ends outside quotes. -/
theorem splitDots_intercalate {parts : List (List Char)} (hne : parts ≠ [])
    (hwhole : ∀ part ∈ parts, splitDots false part = [part])
    (hends : ∀ part ∈ parts.dropLast, endsQuoted false part = false) :
    splitDots false (['.'].intercalate parts) = parts := by
  induction parts with
  | nil => exact absurd rfl hne
  | cons part rest ih =>
    obtain ⟨hpart, hrest⟩ := List.forall_mem_cons.1 hwhole
    cases rest with
    | nil => rwa [List.intercalate_singleton]
    | cons next more =>
      rw [List.dropLast_cons_of_ne_nil (List.cons_ne_nil _ _), List.forall_mem_cons] at hends
      rw [List.intercalate_cons_cons, List.append_assoc, List.singleton_append,
        splitDots_append_dot hpart hends.1, ih (List.cons_ne_nil _ _) hrest hends.2]

theorem splitDots_of_not_mem (quoted : Bool) {cs : List Char} (h : '.' ∉ cs) :
    splitDots quoted cs = [cs] := by
  induction cs generalizing quoted with
  | nil => rfl
  | cons c rest ih =>
    have hdot : ¬ (c = '.' ∧ !quoted) := fun hdot => List.ne_of_not_mem_cons h hdot.1.symm
    rw [splitDots, if_neg hdot, ih _ (List.not_mem_of_not_mem_cons h)]
    rfl

/-- Between quotes no dot splits, since every quote there is followed by another. -/
theorem splitDots_double (name : List Char) : splitDots true (double name) = [double name] := by
  induction name with
  | nil => rfl
  | cons c rest ih => by_cases hc : c = '"' <;> simp [double, splitDots, consFirst, hc, ih]

/-- What stands between the dots of a name: nothing in it is split, and it ends outside quotes. -/
structure IsPart (cs : List Char) : Prop where
  whole : splitDots false cs = [cs]
  ends : endsQuoted false cs = false

theorem Segment.isPart {cs : List Char} (h : Segment cs) : IsPart cs := by
  cases h with
  | plain start more =>
    exact ⟨splitDots_of_not_mem false (not_mem_plain start more rfl),
      endsQuoted_of_not_mem false (not_mem_plain start more rfl)⟩
  | @quoted name _ _ =>
    have hquoted : splitDots true (double name ++ ['"']) = [double name ++ ['"']] := by
      rw [splitDots_append (splitDots_double name), endsQuoted_double]
      exact foldr_consFirst (double name) ['"'] []
    refine ⟨by simp [splitDots, consFirst, hquoted], ?_⟩
    simp [endsQuoted, endsQuoted_append, endsQuoted_double]

theorem isPart_wildcard : IsPart ['*'] :=
  ⟨rfl, rfl⟩

/-- Texts that are not split by themselves are found again between dots, if each of them but the last
ends outside quotes. -/
theorem segments_of_whole {parts : List String} (hne : parts ≠ [])
    (hwhole : ∀ part ∈ parts, splitDots false part.toList = [part.toList])
    (hends : ∀ part ∈ parts.dropLast, endsQuoted false part.toList = false) :
    segments (".".intercalate parts) = parts := by
  have htext : (".".intercalate parts).toList = ['.'].intercalate (parts.map String.toList) :=
    String.toList_intercalate
  have hsplit : splitDots false (['.'].intercalate (parts.map String.toList)) =
      parts.map String.toList := by
    apply splitDots_intercalate
    · simpa using hne
    · exact List.forall_mem_map.2 hwhole
    · rw [← List.map_dropLast]
      exact List.forall_mem_map.2 hends
  rw [segments, htext, hsplit]
  simp [Function.comp_def]

/-- The dots between parts split, and no others. -/
theorem segments_intercalate {parts : List String} (hne : parts ≠ [])
    (h : ∀ part ∈ parts, IsPart part.toList) : segments (".".intercalate parts) = parts :=
  segments_of_whole hne (fun part hpart => (h part hpart).whole)
    fun part hpart => (h part (List.dropLast_subset _ hpart)).ends

theorem segments_ne_nil (text : String) : segments text ≠ [] := by
  simpa [segments] using splitDots_ne_nil false text.toList

end NamedQuery.Sql
