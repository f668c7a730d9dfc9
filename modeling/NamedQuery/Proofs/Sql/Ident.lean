import NamedQuery.Sql.Writer
import Mathlib.Data.List.Basic
import Mathlib.Tactic.Tauto

namespace NamedQuery.Sql

theorem double_of_undouble {cs name : List Char} (h : undouble cs = some name) :
    double name = cs := by
  fun_induction undouble cs generalizing name with
  | case1 =>
    obtain rfl := Option.some.inj h
    rfl
  | case2 rest ih =>
    obtain ⟨tail, htail, rfl⟩ := Option.map_eq_some_iff.1 h
    simp [double, ih htail]
  | case3 => simp at h
  | case4 c rest _ hc ih =>
    obtain ⟨tail, htail, rfl⟩ := Option.map_eq_some_iff.1 h
    simp [double, hc, ih htail]

theorem undouble_double (name : List Char) : undouble (double name) = some name := by
  induction name with
  | nil => rfl
  | cons c rest ih =>
    by_cases hc : c = '"' <;> simp [double, undouble, hc, ih]

theorem mem_double {c : Char} {name : List Char} : c ∈ double name ↔ c ∈ name := by
  induction name with
  | nil => rfl
  | cons d rest ih =>
    by_cases hd : d = '"' <;> simp [double, hd, ih]

theorem double_append (as bs : List Char) : double (as ++ bs) = double as ++ double bs := by
  induction as with
  | nil => rfl
  | cons a rest ih =>
    simp only [List.cons_append, double, ih]
    split <;> rfl

theorem isIdentChar_of_isIdentStart {c : Char} (h : isIdentStart c) : isIdentChar c := by
  simp only [isIdentStart, isIdentChar, Char.isAlphanum, Bool.or_eq_true] at h ⊢
  tauto

theorem not_mem_plain {first : Char} {rest : List Char} (start : isIdentStart first)
    (more : ∀ c ∈ rest, isIdentChar c) {c : Char} (h : isIdentChar c = false) :
    c ∉ first :: rest := by
  have hall : ∀ d ∈ first :: rest, isIdentChar d :=
    List.forall_mem_cons.2 ⟨isIdentChar_of_isIdentStart start, more⟩
  intro hmem
  exact absurd (hall c hmem) (by simp [h])

/-- The texts that are one segment: a plain name, or a quoted one with its inner quotes doubled. -/
inductive Segment : List Char → Prop
  | plain {first : Char} {rest : List Char} (start : isIdentStart first)
      (more : ∀ c ∈ rest, isIdentChar c) : Segment (first :: rest)
  | quoted {name : List Char} (nonempty : name ≠ []) (noNul : '\x00' ∉ name) :
      Segment ('"' :: (double name ++ ['"']))

namespace Ident

theorem eq_of_inner {rest inner : List Char} (h : inner? rest = some inner) :
    rest = inner ++ ['"'] := by
  unfold inner? at h
  split at h
  next hlast =>
    obtain rfl := Option.some.inj h
    obtain ⟨front, rfl⟩ := List.getLast?_eq_some_iff.1 hlast
    simp
  next => simp at h

theorem ofQuoted_eq_ok {text : String} {rest : List Char} {i : Ident}
    (h : ofQuoted text rest = .ok i) :
    ∃ name, name ≠ [] ∧ i = quoted (String.ofList name) ∧ rest = double name ++ ['"'] := by
  unfold ofQuoted at h
  split at h
  · simp at h
  · simp at h
  next inner hne hinner =>
    split at h
    · simp at h
    next name hname =>
      simp only [Except.ok.injEq] at h
      have hd : double name = inner := double_of_undouble hname
      refine ⟨name, ?_, h.symm, by rw [hd]; exact eq_of_inner hinner⟩
      rintro rfl
      exact hne (by simpa [double] using hd.symm)

theorem ofPlain_eq_ok {text : String} {first : Char} {rest : List Char} {i : Ident}
    (h : ofPlain text first rest = .ok i) :
    isIdentStart first ∧ (∀ c ∈ rest, isIdentChar c) ∧ i = plain text := by
  unfold ofPlain at h
  split at h
  · simp at h
  next hstart =>
    split at h
    · simp at h
    next hnone =>
      refine ⟨by simpa using hstart, fun c hc => ?_, (Except.ok.inj h).symm⟩
      simpa using List.find?_eq_none.1 hnone c hc

/-- What is read as a segment is one, and is written back as it was. -/
theorem parse_eq_ok {text : String} {i : Ident} (h : parse text = .ok i) :
    Segment text.toList ∧ i.render = text := by
  unfold parse at h
  split at h
  · simp at h
  next first rest htext =>
    split at h
    · simp at h
    next hnul =>
      split at h
      next hquote =>
        obtain ⟨name, hne, rfl, rfl⟩ := ofQuoted_eq_ok h
        subst hquote
        have hmem : '\x00' ∉ name := by
          simpa [mem_double] using hnul
        refine ⟨htext ▸ .quoted hne hmem, ?_⟩
        apply String.toList_injective
        simp [render, htext]
      next =>
        obtain ⟨hstart, hmore, rfl⟩ := ofPlain_eq_ok h
        exact ⟨htext ▸ .plain hstart hmore, rfl⟩

theorem ofQuoted_double (text : String) {name : List Char} (h : name ≠ []) :
    ofQuoted text (double name ++ ['"']) = .ok (quoted (String.ofList name)) := by
  have hinner : inner? (double name ++ ['"']) = some (double name) := by simp [inner?]
  have hne : double name ≠ [] := by
    intro hnil
    have hname := undouble_double name
    rw [hnil] at hname
    exact h (Option.some.inj hname).symm
  unfold ofQuoted
  rw [hinner]
  split
  · simp_all
  · simp_all
  next hsome =>
    obtain rfl := Option.some.inj hsome
    rw [undouble_double]

theorem ofPlain_of_chars (text : String) {first : Char} {rest : List Char}
    (start : isIdentStart first) (more : ∀ c ∈ rest, isIdentChar c) :
    ofPlain text first rest = .ok (plain text) := by
  have hnone : rest.find? (!isIdentChar ·) = none := by
    simpa [List.find?_eq_none] using more
  simp [ofPlain, start, hnone]

theorem parse_of_plain {text : String} {first : Char} {rest : List Char}
    (start : isIdentStart first) (more : ∀ c ∈ rest, isIdentChar c)
    (h : text.toList = first :: rest) : parse text = .ok (plain text) := by
  have hnul : '\x00' ∉ first :: rest := not_mem_plain start more rfl
  have hquote : first ≠ '"' := by
    rintro rfl
    simp [isIdentStart] at start
  unfold parse
  rw [h]
  simpa only [if_neg hnul, if_neg hquote] using ofPlain_of_chars text start more

theorem parse_of_quoted {text : String} {name : List Char} (nonempty : name ≠ [])
    (noNul : '\x00' ∉ name) (h : text.toList = '"' :: (double name ++ ['"'])) :
    parse text = .ok (quoted (String.ofList name)) := by
  have hnul : '\x00' ∉ '"' :: (double name ++ ['"']) := by
    simpa [mem_double] using noNul
  unfold parse
  rw [h]
  simpa only [if_neg hnul, if_true] using ofQuoted_double text nonempty

theorem parse_of_segment {text : String} (h : Segment text.toList) :
    ∃ i, parse text = .ok i := by
  generalize htext : text.toList = cs at h
  cases h with
  | plain start more => exact ⟨_, parse_of_plain start more htext⟩
  | quoted nonempty noNul => exact ⟨_, parse_of_quoted nonempty noNul htext⟩

/-- The texts that are read as a segment are the segments. -/
theorem parse_isOk_iff {text : String} : (∃ i, parse text = .ok i) ↔ Segment text.toList :=
  ⟨fun ⟨_, h⟩ => (parse_eq_ok h).1, parse_of_segment⟩

end Ident

theorem Writer.ident_of_ok (w : Writer) {text : String} {i : Ident} (h : Ident.parse text = .ok i) :
    w.ident text = .ok (w.push text) := by
  rw [Writer.ident, h, Except.map, (Ident.parse_eq_ok h).2]

theorem Writer.ident_of_error (w : Writer) {text : String} {fault : IdentFault}
    (h : Ident.parse text = .error fault) : w.ident text = .error fault := by
  rw [Writer.ident, h, Except.map]

end NamedQuery.Sql
