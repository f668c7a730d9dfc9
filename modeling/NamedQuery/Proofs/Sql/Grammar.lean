import NamedQuery.Proofs.Sql.Ident
import Mathlib.Computability.Language
import Mathlib.Data.Char

namespace NamedQuery.Sql
open scoped Computability

/-- The texts that are one character of a set. -/
def oneOf (set : Set Char) : Language Char :=
  {text | ∃ c ∈ set, text = [c]}

def nameStarts : Set Char := Set.Icc 'A' 'Z' ∪ Set.Icc 'a' 'z' ∪ {'_'}

def nameChars : Set Char := nameStarts ∪ Set.Icc '0' '9' ∪ {'$'}

/-- `[A-Za-z_][A-Za-z0-9_$]*` -/
def plainNames : Language Char := oneOf nameStarts * (oneOf nameChars)∗

/-- A character other than a quote and NUL, or two quotes. -/
def quotedItems : Language Char := oneOf {'"', '\x00'}ᶜ + {['"', '"']}

/-- A quote, one item or more, and a quote. -/
def quotedNames : Language Char := {['"']} * (quotedItems * quotedItems∗) * {['"']}

/-- The texts of segments. -/
def segmentTexts : Language Char := plainNames + quotedNames

theorem isIdentStart_iff {c : Char} : isIdentStart c ↔ c ∈ nameStarts := by
  have hupper : c.isUpper ↔ c ∈ Set.Icc 'A' 'Z' := decide_eq_true_iff
  have hlower : c.isLower ↔ c ∈ Set.Icc 'a' 'z' :=
    Bool.and_eq_true_iff.trans (and_congr decide_eq_true_iff decide_eq_true_iff)
  have halpha : c.isAlpha ↔ c ∈ Set.Icc 'A' 'Z' ∨ c ∈ Set.Icc 'a' 'z' :=
    Bool.or_eq_true_iff.trans (or_congr hupper hlower)
  exact (Bool.or_eq_true_iff.trans (or_congr beq_iff_eq halpha)).trans or_comm

theorem isIdentChar_iff {c : Char} : isIdentChar c ↔ c ∈ nameChars := by
  have hdigit : c.isDigit ↔ c ∈ Set.Icc '0' '9' := by
    simp [Char.isDigit, Char.le_def]
  have hchar : isIdentChar c ↔ (isIdentStart c ∨ c.isDigit) ∨ c = '$' := by
    simp only [isIdentChar, isIdentStart, Char.isAlphanum, Bool.or_eq_true, beq_iff_eq]
    tauto
  rw [hchar, isIdentStart_iff, hdigit]
  rfl

theorem mem_star_oneOf {set : Set Char} {cs : List Char} :
    cs ∈ (oneOf set)∗ ↔ ∀ c ∈ cs, c ∈ set := by
  rw [Language.mem_kstar]
  constructor
  · rintro ⟨texts, rfl, htexts⟩ c hc
    obtain ⟨text, htext, hc⟩ := List.mem_flatten.1 hc
    obtain ⟨d, hd, rfl⟩ := htexts text htext
    exact List.mem_singleton.1 hc ▸ hd
  · intro h
    refine ⟨cs.map ([·]), (List.flatMap_singleton' cs).symm, fun text htext => ?_⟩
    obtain ⟨c, hc, rfl⟩ := List.mem_map.1 htext
    exact ⟨c, h c hc, rfl⟩

theorem mem_plainNames {cs : List Char} : cs ∈ plainNames ↔
    ∃ first rest, cs = first :: rest ∧ isIdentStart first ∧ ∀ c ∈ rest, isIdentChar c := by
  simp only [plainNames, Language.mem_mul, mem_star_oneOf, isIdentStart_iff, isIdentChar_iff]
  constructor
  · rintro ⟨_, ⟨first, hfirst, rfl⟩, rest, hrest, rfl⟩
    exact ⟨first, rest, rfl, hfirst, hrest⟩
  · rintro ⟨first, rest, rfl, hfirst, hrest⟩
    exact ⟨[first], ⟨first, hfirst, rfl⟩, rest, hrest, rfl⟩

/-- An item stands for one character of a name. -/
theorem mem_quotedItems {item : List Char} :
    item ∈ quotedItems ↔ ∃ c, c ≠ '\x00' ∧ item = double [c] := by
  constructor
  · rintro (⟨c, hc, rfl⟩ | rfl)
    · obtain ⟨hquote, hnul⟩ : c ≠ '"' ∧ c ≠ '\x00' := by simpa using hc
      exact ⟨c, hnul, by simp [double, hquote]⟩
    · exact ⟨'"', by decide, rfl⟩
  · rintro ⟨c, hnul, rfl⟩
    by_cases hquote : c = '"'
    · subst hquote
      exact .inr rfl
    · exact .inl ⟨c, by simp [hquote, hnul], by simp [double, hquote]⟩

theorem mem_star_quotedItems {cs : List Char} :
    cs ∈ quotedItems∗ ↔ ∃ name, '\x00' ∉ name ∧ cs = double name := by
  rw [Language.mem_kstar]
  constructor
  · -- the items of the text are the characters of the name, one for one
    rintro ⟨items, rfl, hitems⟩
    induction items with
    | nil => exact ⟨[], List.not_mem_nil, rfl⟩
    | cons item rest ih =>
      obtain ⟨hitem, hrest⟩ := List.forall_mem_cons.1 hitems
      obtain ⟨c, hc, rfl⟩ := mem_quotedItems.1 hitem
      obtain ⟨name, hname, hflat⟩ := ih hrest
      refine ⟨c :: name, List.not_mem_cons_of_ne_of_not_mem hc.symm hname, ?_⟩
      rw [List.flatten_cons, hflat, ← double_append, List.singleton_append]
  · rintro ⟨name, hname, rfl⟩
    refine ⟨name.map fun c => double [c], ?_, fun item hitem => ?_⟩
    · induction name with
      | nil => rfl
      | cons c rest ih =>
        have hrest := ih fun h => hname (List.mem_cons_of_mem _ h)
        rw [List.map_cons, List.flatten_cons, ← hrest, ← double_append, List.singleton_append]
    · obtain ⟨c, hc, rfl⟩ := List.mem_map.1 hitem
      exact mem_quotedItems.2 ⟨c, fun h => hname (h ▸ hc), rfl⟩

theorem mem_quotedNames {cs : List Char} : cs ∈ quotedNames ↔
    ∃ name, name ≠ [] ∧ '\x00' ∉ name ∧ cs = '"' :: (double name ++ ['"']) := by
  have hbody {body : List Char} : body ∈ quotedItems * quotedItems∗ ↔
      ∃ name, name ≠ [] ∧ '\x00' ∉ name ∧ body = double name := by
    simp only [Language.mem_mul, mem_quotedItems, mem_star_quotedItems]
    constructor
    · rintro ⟨_, ⟨c, hc, rfl⟩, _, ⟨name, hname, rfl⟩, rfl⟩
      exact ⟨c :: name, List.cons_ne_nil _ _, List.not_mem_cons_of_ne_of_not_mem hc.symm hname,
        (double_append [c] name).symm⟩
    · rintro ⟨name, hne, hname, rfl⟩
      obtain ⟨c, rest, rfl⟩ := List.exists_cons_of_ne_nil hne
      exact ⟨_, ⟨c, (List.ne_of_not_mem_cons hname).symm, rfl⟩, _,
        ⟨rest, List.not_mem_of_not_mem_cons hname, rfl⟩, (double_append [c] rest).symm⟩
  constructor
  · rintro ⟨_, ⟨_, rfl, body, hmem, rfl⟩, _, rfl, rfl⟩
    obtain ⟨name, hne, hname, rfl⟩ := hbody.1 hmem
    exact ⟨name, hne, hname, rfl⟩
  · rintro ⟨name, hne, hname, rfl⟩
    have hmem := hbody.2 ⟨name, hne, hname, rfl⟩
    exact ⟨_, ⟨_, rfl, _, hmem, rfl⟩, _, rfl, rfl⟩

/-- Segments are the texts of the grammar. -/
theorem segment_iff {cs : List Char} : Segment cs ↔ cs ∈ segmentTexts := by
  rw [segmentTexts, Language.mem_add, mem_plainNames, mem_quotedNames]
  constructor
  · rintro (⟨start, more⟩ | ⟨nonempty, noNul⟩)
    · exact .inl ⟨_, _, rfl, start, more⟩
    · exact .inr ⟨_, nonempty, noNul, rfl⟩
  · rintro (⟨first, rest, rfl, start, more⟩ | ⟨name, nonempty, noNul, rfl⟩)
    · exact .plain start more
    · exact .quoted nonempty noNul

namespace Ident

/-- A plain segment that is a plain name, or a quoted one with a name of any characters but NUL. -/
def Proper : Ident → Prop
  | plain name => name.toList ∈ plainNames
  | quoted name => name ≠ "" ∧ '\x00' ∉ name.toList

theorem parse_render {i : Ident} (h : i.Proper) : parse i.render = .ok i := by
  cases i with
  | plain name =>
    obtain ⟨first, rest, hname, start, more⟩ := mem_plainNames.1 h
    exact parse_of_plain start more hname
  | quoted name =>
    obtain ⟨nonempty, noNul⟩ := h
    have htext : (quoted name).render.toList = '"' :: (double name.toList ++ ['"']) := by
      simp [render]
    have hparse := parse_of_quoted (mt String.toList_eq_nil_iff.1 nonempty) noNul htext
    rwa [String.ofList_toList] at hparse

theorem proper_of_parse {text : String} {i : Ident} (h : parse text = .ok i) : i.Proper := by
  have hsegment := (parse_eq_ok h).1
  generalize htext : text.toList = cs at hsegment
  cases hsegment with
  | plain start more =>
    obtain rfl := Except.ok.inj ((parse_of_plain start more htext).symm.trans h)
    exact mem_plainNames.2 ⟨_, _, htext, start, more⟩
  | quoted nonempty noNul =>
    obtain rfl := Except.ok.inj ((parse_of_quoted nonempty noNul htext).symm.trans h)
    exact ⟨by simpa using nonempty, by simpa using noNul⟩

/-- The texts that are read are those of the grammar. Reading and rendering undo each other on proper
segments, and on no others, so a writer adds a text of the grammar as it is and nothing of any other. -/
theorem parse_exact :
    (∀ text, (∃ i, parse text = .ok i) ↔ text.toList ∈ segmentTexts) ∧
    (∀ text i, parse text = .ok i ↔ i.Proper ∧ i.render = text) ∧
    (∀ i, parse i.render = .ok i ↔ i.Proper) ∧
    ∀ (w : Writer) (text : String),
      text.toList ∈ segmentTexts ∧ w.step (.ident text) = (⟨w.text ++ text, w.params⟩, none) ∨
      text.toList ∉ segmentTexts ∧ ∃ fault, w.step (.ident text) = (w, some (.ident fault)) := by
  have haccepted (text : String) : (∃ i, parse text = .ok i) ↔ text.toList ∈ segmentTexts := by
    rw [parse_isOk_iff, segment_iff]
  refine ⟨haccepted, fun text i => ⟨fun h => ?_, ?_⟩, fun i => ⟨proper_of_parse, parse_render⟩,
    fun w text => ?_⟩
  · exact ⟨proper_of_parse h, (parse_eq_ok h).2⟩
  · rintro ⟨hproper, rfl⟩
    exact parse_render hproper
  · rw [← haccepted]
    cases h : parse text with
    | ok i =>
      refine .inl ⟨⟨i, rfl⟩, ?_⟩
      rw [Writer.step, w.ident_of_ok h]
      rfl
    | error fault => exact .inr ⟨by simp, fault, by rw [Writer.step, w.ident_of_error h]⟩

/-- A name of quotes alone is written with twice as many between the two around it. -/
example : parse "\"\"\"\"\"\"" = .ok (.quoted "\"\"") := by
  decide

end Ident
end NamedQuery.Sql
