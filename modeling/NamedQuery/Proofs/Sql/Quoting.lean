import NamedQuery.Proofs.Sql.Dotted
import NamedQuery.Proofs.Sql.Tokens

namespace NamedQuery.Sql

/-- The characters outside double quotes. -/
def unquoted : Bool → List Char → List Char
  | _, [] => []
  | quoted, c :: rest =>
    if c = '"' then unquoted (!quoted) rest
    else if quoted then unquoted quoted rest
    else c :: unquoted quoted rest

/-- ASCII letters and digits, `_`, `$`, the blank, and the marks of a statement. -/
def isPlainChar (c : Char) : Bool :=
  c.isAlphanum || ['_', '$', ' ', '.', ',', '*', '(', ')', '=', '!', '<', '>'].contains c

theorem isPlainChar_of_isIdentChar {c : Char} (h : isIdentChar c) : isPlainChar c := by
  simp only [isIdentChar, Bool.or_eq_true, beq_iff_eq] at h
  simp only [isPlainChar, Bool.or_eq_true, List.contains_iff_mem]
  obtain (rfl | rfl) | h := h
  · exact .inr (by decide)
  · exact .inr (by decide)
  · exact .inl h

theorem unquoted_append (quoted : Bool) (as bs : List Char) : unquoted quoted (as ++ bs) =
    unquoted quoted as ++ unquoted (endsQuoted quoted as) bs := by
  induction as generalizing quoted with
  | nil => rfl
  | cons a rest ih =>
    by_cases ha : a = '"'
    · simp [unquoted, endsQuoted, ha, ih]
    · cases quoted <;> simp [unquoted, endsQuoted, ha, ih]

theorem unquoted_of_not_mem {cs : List Char} (h : '"' ∉ cs) : unquoted false cs = cs := by
  induction cs with
  | nil => rfl
  | cons c rest ih =>
    have hc : c ≠ '"' := (List.ne_of_not_mem_cons h).symm
    simpa [unquoted, hc] using ih (List.not_mem_of_not_mem_cons h)

theorem unquoted_double (name : List Char) : unquoted true (double name) = [] := by
  induction name with
  | nil => rfl
  | cons c rest ih => by_cases hc : c = '"' <;> simpa [double, unquoted, hc] using ih

/-- The tokens that cannot end a statement or hide a part of it. -/
def Lexeme.Safe : Lexeme → Prop
  | word cs => ∀ c ∈ cs, isIdentChar c
  | quoted _ => True
  | unclosed _ => False
  | placeholder digits => ∀ c ∈ digits, c.isDigit
  | mark c => c ≠ '$' ∧ c ≠ '"' ∧ isPlainChar c

theorem Lexeme.safe_ownMarks : ∀ c ∈ ownMarks, (mark c).Safe := by
  have hall : ownMarks.all fun c => c != '$' && c != '"' && isPlainChar c := rfl
  intro c hc
  simpa [Safe, and_assoc] using List.all_eq_true.1 hall c hc

theorem Lexeme.Safe.quoting {x : Lexeme} (h : x.Safe) :
    endsQuoted false x.chars = false ∧ ∀ c ∈ unquoted false x.chars, isPlainChar c := by
  have hplain {cs : List Char} (hquote : '"' ∉ cs) (hcs : ∀ c ∈ cs, isPlainChar c) :
      endsQuoted false cs = false ∧ ∀ c ∈ unquoted false cs, isPlainChar c := by
    rw [unquoted_of_not_mem hquote]
    exact ⟨endsQuoted_of_not_mem false hquote, hcs⟩
  cases x with
  | word cs =>
    have hcs : ∀ c ∈ cs, isIdentChar c := h
    exact hplain (fun hmem => by simpa [isIdentChar] using hcs _ hmem)
      fun c hc => isPlainChar_of_isIdentChar (hcs c hc)
  | quoted name =>
    simp [chars, endsQuoted, unquoted, endsQuoted_append, unquoted_append, endsQuoted_double,
      unquoted_double]
  | unclosed name => exact h.elim
  | placeholder digits =>
    have hdigits : ∀ c ∈ digits, c.isDigit := h
    have hquote : '"' ∉ '$' :: digits := by
      intro hmem
      obtain heq | hmem := List.mem_cons.1 hmem
      · simp at heq
      · simpa using hdigits _ hmem
    refine hplain hquote (List.forall_mem_cons.2 ⟨rfl, fun c hc => ?_⟩)
    exact isPlainChar_of_isIdentChar (isIdentChar_of_isDigit (hdigits c hc))
  | mark c =>
    obtain ⟨-, hquote, hc⟩ := h
    exact hplain (by simpa [chars] using Ne.symm hquote) (by simpa [chars] using hc)

theorem quoting_of_safe {xs : List Lexeme} (h : ∀ x ∈ xs, x.Safe) :
    endsQuoted false (xs.flatMap Lexeme.chars) = false ∧
      ∀ c ∈ unquoted false (xs.flatMap Lexeme.chars), isPlainChar c := by
  induction xs with
  | nil => exact ⟨rfl, nofun⟩
  | cons x rest ih =>
    obtain ⟨hx, hrest⟩ := List.forall_mem_cons.1 h
    obtain ⟨hends, hplain⟩ := hx.quoting
    obtain ⟨hendsRest, hplainRest⟩ := ih hrest
    rw [List.flatMap_cons, endsQuoted_append, unquoted_append, hends]
    exact ⟨hendsRest, List.forall_mem_append.2 ⟨hplain, hplainRest⟩⟩

namespace Scan

def inside : Scan → Bool
  | inQuotes _ => true
  | _ => false

theorem inside_start (c : Char) : (start c).2.inside = decide (c = '"') := by
  by_cases hc : c = '"'
  · subst hc
    rfl
  · unfold start
    split_ifs <;> simp [inside, hc]

theorem inside_step (s : Scan) (c : Char) :
    (s.step c).2.inside = if c = '"' then !s.inside else s.inside := by
  have hstart := inside_start c
  -- behind a quote in quotes the flag is off, and another quote turns it on again
  by_cases hc : c = '"'
  · subst hc
    cases s <;> rfl
  · cases s <;> simp only [step] <;> try split_ifs
    all_goals simp_all [inside]

/-- Counting quotes tells where the tokens are inside them. -/
theorem inside_after (s : Scan) (cs : List Char) :
    (s.after cs).inside = endsQuoted s.inside cs := by
  induction cs generalizing s with
  | nil => rfl
  | cons c rest ih =>
    rw [endsQuoted, ← inside_step]
    exact ih _

/-- A `$` that is not part of a word starts a placeholder, or is a token by itself. -/
theorem dollar_cases {s : Scan} (hs : s.inside = false) (rest : List Char) :
    (∃ cs, s = word cs) ∨ (∃ d more, rest = d :: more ∧ d.isDigit) ∨
      .mark '$' ∈ s.lexemes ('$' :: rest) := by
  -- what comes next decides what a `$` is that starts a token
  have hdollar : (∃ d more, rest = d :: more ∧ d.isDigit) ∨ .mark '$' ∈ dollar.lexemes rest := by
    cases rest with
    | nil => exact .inr (.head _)
    | cons d more =>
      by_cases hd : d.isDigit
      · exact .inl ⟨d, more, rfl, hd⟩
      · exact .inr (by simp [lexemes, step, hd])
  obtain hdigit | hmark := hdollar
  · exact .inr (.inl hdigit)
  cases s with
  | word cs => exact .inl ⟨cs, rfl⟩
  | inQuotes name => simp [inside] at hs
  | _ => exact .inr (.inr (by simp [lexemes, step, start, isIdentStart, hmark]))

end Scan

theorem dollar_of_safe {text : List Char} (h : ∀ x ∈ Scan.between.lexemes text, x.Safe)
    {before rest : List Char} (htext : text = before ++ '$' :: rest)
    (hquoted : endsQuoted false before = false) :
    (∃ cs, Scan.between.after before = .word cs) ∨ ∃ d more, rest = d :: more ∧ d.isDigit := by
  subst htext
  obtain ⟨done, -, hall⟩ := Scan.between.lexemes_append before ('$' :: rest)
  have hinside : (Scan.between.after before).inside = false :=
    (Scan.inside_after .between before).trans hquoted
  obtain hword | hdigit | hmark := Scan.dollar_cases hinside rest
  · exact .inl hword
  · exact .inr hdigit
  · have hsafe : (Lexeme.mark '$').Safe := h _ (hall ▸ List.mem_append_right done hmark)
    exact absurd rfl hsafe.1

namespace Piece

theorem safe_lexemes {p : Piece} (hown : ∀ t, p = text t → ∀ x ∈ Sql.lexemes t, x.isOwn)
    (hs : p.fault? = none) (hraw : ∀ t, p ≠ raw t) (bound : Nat) :
    ∀ x ∈ p.lexemes bound, x.Safe := by
  cases p with
  | text t =>
    intro x hx
    have hx' := hown t rfl x hx
    cases x with
    | word cs => exact List.all_eq_true.1 hx'
    | mark c => exact Lexeme.safe_ownMarks c (List.contains_iff_mem.1 hx')
    | _ => simp [Lexeme.isOwn] at hx'
  | raw t => exact absurd rfl (hraw t)
  | value param =>
    rw [(value_lexemes bound param).2]
    simpa [Lexeme.Safe] using fun c hc => Nat.isDigit_of_mem_toDigits (by decide) (by decide) hc
  | ident segment column =>
    obtain ⟨hword, hcs⟩ | ⟨name, hquoted⟩ := (ident_lexemes hs bound).2
    · simpa [hword, Lexeme.Safe] using hcs
    · simp [hquoted, Lexeme.Safe]
  | count n fault =>
    obtain ⟨digits, hall, hdigits⟩ := (count_lexemes hs bound).2
    rw [hdigits]
    intro x hx
    obtain ⟨c, hc, rfl⟩ := List.mem_map.1 hx
    have hdigit := hall c hc
    refine ⟨?_, ?_, isPlainChar_of_isIdentChar (isIdentChar_of_isDigit hdigit)⟩
    · rintro rfl
      simp at hdigit
    · rintro rfl
      simp at hdigit
  | stop fault => simp [fault?] at hs

theorem safe_lexemesAll {ps : List Piece}
    (hown : ∀ t, text t ∈ ps → ∀ x ∈ Sql.lexemes t, x.isOwn) (hs : Sound ps)
    (hraw : ∀ t, raw t ∉ ps) (bound : Nat) : ∀ x ∈ lexemesAll bound ps, x.Safe := by
  induction ps generalizing bound with
  | nil => nofun
  | cons p rest ih =>
    obtain ⟨hsp, hsrest⟩ := List.forall_mem_cons.1 hs
    refine List.forall_mem_append.2 ⟨?_, ?_⟩
    · exact safe_lexemes (fun t ht => hown t (ht ▸ .head _)) hsp
        (fun t ht => hraw t (ht ▸ .head _)) bound
    · exact ih (fun t ht => hown t (.tail _ ht)) hsrest (fun t ht => hraw t (.tail _ ht)) _

end Piece

open Piece

/-- Without text of the caller's own, a statement ends outside quotes, and outside them it has plain
characters only. A `$` there is part of a word or starts a placeholder. -/
theorem Select.compile_quoting {s : Select} {c : Criteria} {st : Statement}
    (hraw : ∀ t, Leaf.raw t ∉ s.leaves) (h : s.compile c = .ok st) :
    endsQuoted false st.sql.toList = false ∧
      (∀ ch ∈ unquoted false st.sql.toList, isPlainChar ch) ∧
      ∀ before rest, st.sql.toList = before ++ '$' :: rest → endsQuoted false before = false →
        (∃ cs, Scan.between.after before = .word cs) ∨
          ∃ d more, rest = d :: more ∧ d.isDigit := by
  obtain ⟨arranged, harrange, hsound, hsql, -⟩ := Select.compile_eq_ok h
  have hnone : ∀ t, Piece.raw t ∉ arranged.pieces := by
    intro t ht
    exact hraw t (Select.arrange_raw harrange (Select.raw_mem_leaves ht))
  have hlaid : Laid 0 arranged.pieces := arranged.laid_pieces
  have hsafe : ∀ x ∈ Scan.between.lexemes st.sql.toList, x.Safe := by
    rw [hsql, lexemes_charsAll hlaid hsound (fun t ht => absurd ht (hnone t)) 0]
    exact safe_lexemesAll (fun _ => hlaid.isOwn) hsound hnone 0
  have hcut : (Scan.between.lexemes st.sql.toList).flatMap Lexeme.chars = st.sql.toList :=
    Scan.between.chars_lexemes _
  obtain ⟨hends, hplain⟩ := quoting_of_safe hsafe
  rw [hcut] at hends hplain
  exact ⟨hends, hplain, fun before rest htext => dollar_of_safe hsafe htext⟩

/-- A statement whose names hold quotes, ends of statements, comments and `$`. -/
def hostile : Select where
  sources := [.table "\"a\"\"; DROP TABLE x --\"" (some "l$1")]
  columns := [⟨.call "f$$" [.column (.qualified "\"$$\"" "\"it's /* */\"")], some "\"o\"\"\""⟩]
  distinct := false
  conds := [.compare (.column (.unqualified "\"$1\"")) .eq (.bound (.bool true))]
  groupBy := []
  order := []
  limit := none
  offset := none

def hostileCriteria : Criteria :=
  { Criteria.default with sort := [⟨"\"b.\".\"; --'\"", .descending⟩] }

def hostileSql : String :=
  "SELECT f$$(\"$$\".\"it's /* */\") AS \"o\"\"\" FROM \"a\"\"; DROP TABLE x --\" l$1 " ++
    "WHERE \"$1\" = $1 ORDER BY \"b.\".\"; --'\" DESC"

theorem quoting_hostile : (∀ t, Leaf.raw t ∉ hostile.leaves) ∧
    hostile.compile hostileCriteria = .ok ⟨hostileSql, #[.bool true]⟩ ∧
    endsQuoted false hostileSql.toList = false ∧
    (∀ ch ∈ unquoted false hostileSql.toList, isPlainChar ch) ∧
    ∀ before rest, hostileSql.toList = before ++ '$' :: rest → endsQuoted false before = false →
      (∃ cs, Scan.between.after before = .word cs) ∨ ∃ d more, rest = d :: more ∧ d.isDigit := by
  have hraw : ∀ t, Leaf.raw t ∉ hostile.leaves := by
    intro t ht
    have hleaves : hostile.leaves = [.name "f$$", .name "\"$$\"", .name "\"it's /* */\"",
        .name "\"o\"\"\"", .name "\"a\"\"; DROP TABLE x --\"", .name "l$1", .name "\"$1\"",
        .value (.bool true)] := rfl
    simp [hleaves] at ht
  have hcompile : hostile.compile hostileCriteria = .ok ⟨hostileSql, #[.bool true]⟩ := rfl
  obtain ⟨hends, hplain, hdollar⟩ := Select.compile_quoting hraw hcompile
  exact ⟨hraw, hcompile, hends, hplain, hdollar⟩

end NamedQuery.Sql
