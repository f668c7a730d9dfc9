import NamedQuery.Sql.Ident
import NamedQuery.Proofs.Sql.Ident

namespace NamedQuery.Sql

/-- A token of a statement's text. -/
inductive Lexeme where
  /-- A letter or `_`, and the letters, digits, `_` and `$` after it. -/
  | word (chars : List Char)
  /-- A name in double quotes, in which a quote is written twice. -/
  | quoted (name : List Char)
  /-- A name in double quotes that the text breaks off. -/
  | unclosed (name : List Char)
  /-- A `$` and the digits after it. -/
  | placeholder (digits : List Char)
  /-- Any other character. -/
  | mark (char : Char)
  deriving DecidableEq

/-- The characters that a token is written with. -/
def Lexeme.chars : Lexeme → List Char
  | word cs => cs
  | quoted name => '"' :: (double name ++ ['"'])
  | unclosed name => '"' :: double name
  | placeholder digits => '$' :: digits
  | mark c => [c]

/-- How far a token is read. -/
inductive Scan where
  | between
  | word (chars : List Char)
  | dollar
  | placeholder (digits : List Char)
  | inQuotes (name : List Char)
  /-- Behind a quote in a quoted name, which ends the name or is the first of two. -/
  | quote (name : List Char)
  deriving DecidableEq

namespace Scan

/-- A token starts; a character that starts none is one. -/
def start (c : Char) : List Lexeme × Scan :=
  if isIdentStart c then ([], word [c])
  else if c = '"' then ([], inQuotes [])
  else if c = '$' then ([], dollar)
  else ([.mark c], between)

/-- The token that is complete once no more characters are read into it. -/
def finish : Scan → List Lexeme
  | between => []
  | word cs => [.word cs]
  | dollar => [.mark '$']
  | placeholder digits => [.placeholder digits]
  | inQuotes name => [.unclosed name]
  | quote name => [.quoted name]

/-- Reads a character into the token, or ends the token and starts another. -/
def step : Scan → Char → List Lexeme × Scan
  | between, c => start c
  | word cs, c =>
    if isIdentChar c then ([], word (cs ++ [c])) else (.word cs :: (start c).1, (start c).2)
  | dollar, c =>
    if c.isDigit then ([], placeholder [c]) else (.mark '$' :: (start c).1, (start c).2)
  | placeholder digits, c =>
    if c.isDigit then ([], placeholder (digits ++ [c]))
    else (.placeholder digits :: (start c).1, (start c).2)
  | inQuotes name, c => if c = '"' then ([], quote name) else ([], inQuotes (name ++ [c]))
  | quote name, c =>
    if c = '"' then ([], inQuotes (name ++ [c])) else (.quoted name :: (start c).1, (start c).2)

/-- The tokens of a text that is read on from a state. -/
def lexemes : Scan → List Char → List Lexeme
  | s, [] => s.finish
  | s, c :: rest => (s.step c).1 ++ (s.step c).2.lexemes rest

def after (s : Scan) (cs : List Char) : Scan :=
  cs.foldl (fun s c => (s.step c).2) s

/-- A token that ends here, whether or not more characters could be read into it. -/
def closed : Scan → Bool
  | dollar | inQuotes _ => false
  | _ => true

end Scan

/-- The tokens of a text. -/
def lexemes (text : String) : List Lexeme :=
  Scan.between.lexemes text.toList

/-- Ends every token that is not inside quotes, and starts none of several characters. -/
def isBreak (c : Char) : Bool :=
  !isIdentChar c && c != '"'

theorem isIdentChar_of_isDigit {c : Char} (h : c.isDigit) : isIdentChar c := by
  simp [isIdentChar, Char.isAlphanum, h]

namespace Scan

theorem step_of_isBreak {s : Scan} {c : Char} (hs : s.closed) (hc : isBreak c) :
    s.step c = (s.finish ++ [.mark c], between) := by
  obtain ⟨hident, hquote⟩ : isIdentChar c = false ∧ c ≠ '"' := by simpa [isBreak] using hc
  have hstart : isIdentStart c = false := by
    by_contra h
    simp [isIdentChar_of_isIdentStart (by simpa using h)] at hident
  have hdigit : c.isDigit = false := by
    by_contra h
    simp [isIdentChar_of_isDigit (by simpa using h)] at hident
  have hdollar : c ≠ '$' := by
    rintro rfl
    simp [isIdentChar] at hident
  cases s <;> simp_all [step, finish, start, closed]

theorem lexemes_append (s : Scan) (cs ds : List Char) :
    ∃ done, s.lexemes cs = done ++ (s.after cs).finish ∧
      s.lexemes (cs ++ ds) = done ++ (s.after cs).lexemes ds := by
  -- `done` is put out by then, and the token that is not complete yet may go on in `ds`
  induction cs generalizing s with
  | nil => exact ⟨[], rfl, rfl⟩
  | cons c rest ih =>
    obtain ⟨done, hrest, hall⟩ := ih (s.step c).2
    refine ⟨(s.step c).1 ++ done, ?_, ?_⟩
    · rw [lexemes, hrest, List.append_assoc]
      rfl
    · rw [List.cons_append, lexemes, hall, List.append_assoc]
      rfl

theorem lexemes_append_of_between {cs : List Char} (h : between.after cs = between)
    (ds : List Char) : between.lexemes (cs ++ ds) = between.lexemes cs ++ between.lexemes ds := by
  obtain ⟨done, hcs, hall⟩ := between.lexemes_append cs ds
  rw [hall, hcs, h, finish, List.append_nil]

/-- Where a token ends and a break follows, the text can be read in two parts. -/
theorem lexemes_append_of_isBreak {cs : List Char} (h : (between.after cs).closed) {c : Char}
    (hc : isBreak c) (ds : List Char) :
    between.lexemes (cs ++ c :: ds) = between.lexemes cs ++ between.lexemes (c :: ds) := by
  obtain ⟨done, hcs, hall⟩ := between.lexemes_append cs (c :: ds)
  -- the break completes the token as the end of the text does
  have hbetween : between.step c = ([.mark c], between) := step_of_isBreak rfl hc
  rw [hall, hcs, lexemes, step_of_isBreak h hc, lexemes, hbetween]
  simp

/-- The characters of a token as far as it is read. -/
def pending : Scan → List Char
  | between => []
  | word cs => cs
  | dollar => ['$']
  | placeholder digits => '$' :: digits
  | inQuotes name => '"' :: double name
  | quote name => '"' :: (double name ++ ['"'])

end Scan

namespace Scan

theorem chars_start (c : Char) :
    (start c).1.flatMap Lexeme.chars ++ (start c).2.pending = [c] := by
  unfold start
  split_ifs with hstart hquote hdollar <;> simp_all [pending, Lexeme.chars, double]

theorem chars_step (s : Scan) (c : Char) :
    (s.step c).1.flatMap Lexeme.chars ++ (s.step c).2.pending = s.pending ++ [c] := by
  have hstart := chars_start c
  cases s with
  | between => exact hstart
  | inQuotes name =>
    rw [step]
    split_ifs with hc <;> simp [pending, double_append, double, hc]
  | quote name =>
    rw [step]
    split_ifs with hc
    · simp [pending, double_append, double, hc]
    · simpa [pending, Lexeme.chars] using hstart
  | _ =>
    rw [step]
    split_ifs
    · simp [pending]
    · simpa [pending, Lexeme.chars] using hstart

theorem chars_finish (s : Scan) : s.finish.flatMap Lexeme.chars = s.pending := by
  cases s <;> simp [finish, pending, Lexeme.chars]

/-- Tokens are a cut of the text: nothing is lost, added or moved. -/
theorem chars_lexemes (s : Scan) (cs : List Char) :
    (s.lexemes cs).flatMap Lexeme.chars = s.pending ++ cs := by
  induction cs generalizing s with
  | nil => rw [lexemes, chars_finish, List.append_nil]
  | cons c rest ih =>
    rw [lexemes, List.flatMap_append, ih, ← List.append_assoc, chars_step, List.append_assoc]
    rfl

theorem word_lexemes (read : List Char) {cs : List Char} (h : ∀ c ∈ cs, isIdentChar c) :
    (word read).after cs = word (read ++ cs) ∧
      (word read).lexemes cs = [.word (read ++ cs)] := by
  induction cs generalizing read with
  | nil => simp [after, lexemes, finish]
  | cons c rest ih =>
    obtain ⟨hc, hrest⟩ := List.forall_mem_cons.1 h
    have hstep : (word read).step c = ([], word (read ++ [c])) := by simp [step, hc]
    simpa [after, lexemes, hstep] using ih (read ++ [c]) hrest

theorem placeholder_lexemes (read : List Char) {cs : List Char} (h : ∀ c ∈ cs, c.isDigit) :
    (placeholder read).after cs = placeholder (read ++ cs) ∧
      (placeholder read).lexemes cs = [.placeholder (read ++ cs)] := by
  induction cs generalizing read with
  | nil => simp [after, lexemes, finish]
  | cons c rest ih =>
    obtain ⟨hc, hrest⟩ := List.forall_mem_cons.1 h
    have hstep : (placeholder read).step c = ([], placeholder (read ++ [c])) := by
      simp [step, hc]
    simpa [after, lexemes, hstep] using ih (read ++ [c]) hrest

theorem inQuotes_lexemes (read name : List Char) :
    (inQuotes read).after (double name ++ ['"']) = quote (read ++ name) ∧
      (inQuotes read).lexemes (double name ++ ['"']) = [.quoted (read ++ name)] := by
  induction name generalizing read with
  | nil => simp [double, after, lexemes, step, finish]
  | cons c rest ih =>
    by_cases hc : c = '"'
    · simpa [double, hc, after, lexemes, step] using ih (read ++ ['"'])
    · simpa [double, hc, after, lexemes, step] using ih (read ++ [c])

theorem start_of_isDigit {c : Char} (h : c.isDigit) : start c = ([.mark c], between) := by
  have hunderscore : c ≠ '_' := by rintro rfl; simp at h
  have hstart : isIdentStart c = false := by
    simp only [Char.isDigit] at h
    show (c == '_' || (decide (c.val ≥ 'A'.val ∧ c.val ≤ 'Z'.val) ||
      (decide (c.val ≥ 'a'.val) && decide (c.val ≤ 'z'.val)))) = false
    grind
  have hquote : c ≠ '"' := by rintro rfl; simp at h
  have hdollar : c ≠ '$' := by rintro rfl; simp at h
  simp [start, hstart, hquote, hdollar]

theorem digits_lexemes {cs : List Char} (h : ∀ c ∈ cs, c.isDigit) :
    between.after cs = between ∧ between.lexemes cs = cs.map .mark := by
  induction cs with
  | nil => exact ⟨rfl, rfl⟩
  | cons c rest ih =>
    obtain ⟨hc, hrest⟩ := List.forall_mem_cons.1 h
    have hstep : between.step c = ([.mark c], between) := start_of_isDigit hc
    simpa [after, lexemes, hstep] using ih hrest

/-- A segment of a name is one token. -/
theorem segment_lexemes {cs : List Char} (h : Segment cs) : (between.after cs).closed ∧
    ((between.lexemes cs = [.word cs] ∧ ∀ c ∈ cs, isIdentChar c) ∨
      ∃ name, between.lexemes cs = [.quoted name]) := by
  cases h with
  | @plain first rest hfirst hrest =>
    have hstep : between.step first = ([], word [first]) := by simp [step, start, hfirst]
    obtain ⟨hafter, hlexemes⟩ := word_lexemes [first] hrest
    refine ⟨?_, .inl ⟨?_, ?_⟩⟩
    · simpa [after, hstep, closed] using congrArg closed hafter
    · simpa [lexemes, hstep] using hlexemes
    · exact List.forall_mem_cons.2 ⟨isIdentChar_of_isIdentStart hfirst, hrest⟩
  | @quoted name _ _ =>
    have hstep : between.step '"' = ([], inQuotes []) := rfl
    obtain ⟨hafter, hlexemes⟩ := inQuotes_lexemes [] name
    refine ⟨?_, .inr ⟨name, ?_⟩⟩
    · simpa [after, hstep, closed] using congrArg closed hafter
    · simpa [lexemes, hstep] using hlexemes

/-- The states that text without `$` and quotes leads to. -/
def unmarked : Scan → Bool
  | between | word _ => true
  | _ => false

theorem step_unmarked {s : Scan} {c : Char} (hs : s.unmarked) (hdollar : c ≠ '$')
    (hquote : c ≠ '"') :
    (s.step c).2.unmarked ∧ ∀ x ∈ (s.step c).1, (∃ cs, x = .word cs) ∨ ∃ c, x = .mark c := by
  have hstart : (start c).2.unmarked ∧
      ∀ x ∈ (start c).1, (∃ cs, x = .word cs) ∨ ∃ c, x = .mark c := by
    unfold start
    split_ifs <;> simp [unmarked]
  cases s with
  | between => exact hstart
  | word cs =>
    rw [step]
    split_ifs
    · simp [unmarked]
    · simpa using hstart
  | _ => simp [unmarked] at hs

/-- Text without `$` and quotes has words and marks only. -/
theorem unmarked_lexemes {s : Scan} {cs : List Char} (hs : s.unmarked)
    (h : ∀ c ∈ cs, c ≠ '$' ∧ c ≠ '"') : (s.after cs).unmarked ∧
      ∀ x ∈ s.lexemes cs, (∃ cs, x = .word cs) ∨ ∃ c, x = .mark c := by
  induction cs generalizing s with
  | nil =>
    refine ⟨hs, ?_⟩
    cases s <;> simp_all [unmarked, lexemes, finish]
  | cons c rest ih =>
    obtain ⟨⟨hdollar, hquote⟩, hrest⟩ := List.forall_mem_cons.1 h
    obtain ⟨hstep, hdone⟩ := step_unmarked hs hdollar hquote
    obtain ⟨hafter, hmore⟩ := ih hstep hrest
    refine ⟨hafter, ?_⟩
    rw [lexemes]
    exact List.forall_mem_append.2 ⟨hdone, hmore⟩

theorem closed_of_unmarked {s : Scan} (h : s.unmarked) : s.closed := by
  cases s <;> simp_all [unmarked, closed]

/-- A placeholder is one token. -/
theorem dollar_lexemes {digits : List Char} (hne : digits ≠ []) (h : ∀ c ∈ digits, c.isDigit) :
    between.after ('$' :: digits) = placeholder digits ∧
      between.lexemes ('$' :: digits) = [.placeholder digits] := by
  obtain ⟨c, rest, rfl⟩ := List.exists_cons_of_ne_nil hne
  obtain ⟨hc, hrest⟩ := List.forall_mem_cons.1 h
  have hdollar : between.step '$' = ([], dollar) := rfl
  have hstep : dollar.step c = ([], placeholder [c]) := by simp [step, hc]
  simpa [after, lexemes, hdollar, hstep] using placeholder_lexemes [c] hrest

end Scan
end NamedQuery.Sql
