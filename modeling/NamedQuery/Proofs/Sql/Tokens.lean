import NamedQuery.Proofs.Sql.Layout

namespace NamedQuery.Sql

theorem isDigit_of_mem_toString {n : Nat} {c : Char} (h : c ∈ (toString n).toList) : c.isDigit := by
  rw [Nat.toString_eq_repr, Nat.toList_repr] at h
  exact Nat.isDigit_of_mem_toDigits (by decide) (by decide) h

theorem toString_ne_nil (n : Nat) : (toString n).toList ≠ [] := by
  rw [Nat.toString_eq_repr, Nat.toList_repr]
  exact Nat.toDigits_ne_nil

namespace Piece

/-- The tokens of a piece that is written after `bound` values. -/
def lexemes (bound : Nat) (p : Piece) : List Lexeme :=
  Scan.between.lexemes (p.chars bound)

def lexemesAll : Nat → List Piece → List Lexeme
  | _, [] => []
  | bound, p :: rest => p.lexemes bound ++ lexemesAll (bound + (values [p]).length) rest

theorem lexemesAll_append (bound : Nat) (ps qs : List Piece) : lexemesAll bound (ps ++ qs) =
    lexemesAll bound ps ++ lexemesAll (bound + (values ps).length) qs := by
  induction ps generalizing bound with
  | nil => rfl
  | cons p rest ih =>
    rw [List.cons_append, lexemesAll, lexemesAll, ih, values_cons p rest]
    simp [Nat.add_assoc]

/-- The state after a piece that starts between tokens. -/
def after (bound : Nat) (p : Piece) : Scan :=
  Scan.between.after (p.chars bound)

theorem value_lexemes (bound : Nat) (param : Param) :
    ((value param).after bound).closed ∧
      (value param).lexemes bound = [.placeholder (toString (bound + 1)).toList] := by
  have hchars : (value param).chars bound = '$' :: (toString (bound + 1)).toList := by
    simp [chars]
  obtain ⟨hafter, hlexemes⟩ :=
    Scan.dollar_lexemes (toString_ne_nil (bound + 1)) fun _ => isDigit_of_mem_toString
  rw [after, lexemes, hchars, hafter, hlexemes]
  exact ⟨rfl, rfl⟩

theorem ident_lexemes {segment : String} {column : Option ColumnRef}
    (h : (ident segment column).fault? = none) (bound : Nat) :
    ((ident segment column).after bound).closed ∧
      (((ident segment column).lexemes bound = [.word segment.toList] ∧
          ∀ c ∈ segment.toList, isIdentChar c) ∨
        ∃ name, (ident segment column).lexemes bound = [.quoted name]) := by
  cases hparse : Ident.parse segment with
  | error fault => simp [fault?, hparse] at h
  | ok i => exact Scan.segment_lexemes (Ident.parse_eq_ok hparse).1

theorem count_lexemes {n : Int64} {fault : CompileFault} (h : (count n fault).fault? = none)
    (bound : Nat) : ((count n fault).after bound).closed ∧ ∃ digits : List Char,
      (∀ c ∈ digits, c.isDigit) ∧ (count n fault).lexemes bound = digits.map .mark := by
  have hn : 0 ≤ n.toInt := by
    have hle : 0 ≤ n := by simpa [fault?] using h
    simpa using Int64.le_iff_toInt_le.1 hle
  obtain ⟨m, hm⟩ := Int.eq_ofNat_of_zero_le hn
  have hchars : (count n fault).chars bound = (toString m).toList := by
    rw [chars, hm]
    rfl
  have hdigits : ∀ c ∈ (toString m).toList, c.isDigit := fun _ => isDigit_of_mem_toString
  obtain ⟨hafter, hlexemes⟩ := Scan.digits_lexemes hdigits
  rw [after, lexemes, hchars, hafter, hlexemes]
  exact ⟨rfl, _, hdigits, rfl⟩

/-- No piece leaves a token open, unless text of the caller's own does. -/
theorem closed_after {p : Piece} (htext : p.isText = false) (hs : p.fault? = none)
    (hraw : ∀ t, p = raw t → (Scan.between.after t.toList).closed) (bound : Nat) :
    (p.after bound).closed := by
  cases p with
  | text => simp [isText] at htext
  | raw t => exact hraw t rfl
  | value param => exact (value_lexemes bound param).1
  | ident => exact (ident_lexemes hs bound).1
  | count => exact (count_lexemes hs bound).1
  | stop => simp [fault?] at hs

theorem Apart.charsAll {ps : List Piece} (h : Apart ps) (bound : Nat) :
    charsAll bound ps = [] ∨ ∃ c rest, isBreak c ∧ charsAll bound ps = c :: rest := by
  match ps with
  | [] => exact .inl rfl
  | .text t :: rest =>
    have hbreaks : t.toList.head?.any isBreak := h
    cases ht : t.toList with
    | nil => simp [ht] at hbreaks
    | cons c cs =>
      refine .inr ⟨c, cs ++ Piece.charsAll (bound + (values [text t]).length) rest, ?_, ?_⟩
      · simpa [ht] using hbreaks
      · simp [Piece.charsAll, chars, ht]

theorem lexemes_append_of_apart {cs : List Char} (h : (Scan.between.after cs).closed)
    {ps : List Piece} (hps : Apart ps) (bound : Nat) :
    Scan.between.lexemes (cs ++ charsAll bound ps) =
      Scan.between.lexemes cs ++ Scan.between.lexemes (charsAll bound ps) := by
  obtain hnil | ⟨c, rest, hc, hcons⟩ := hps.charsAll bound
  · rw [hnil, List.append_nil, Scan.lexemes, Scan.finish, List.append_nil]
  · rw [hcons]
    exact Scan.lexemes_append_of_isBreak h hc rest

/-- The tokens of a text that is laid out from pieces are those of the pieces. -/
theorem lexemes_charsAll {d : Nat} {ps : List Piece} (h : Laid d ps) (hs : Sound ps)
    (hraw : ∀ t, raw t ∈ ps → (Scan.between.after t.toList).closed) (bound : Nat) :
    Scan.between.lexemes (charsAll bound ps) = lexemesAll bound ps := by
  induction h generalizing bound with
  | nil => rfl
  -- after a loose text no token is open, and after any other piece a break comes next
  | loose nests hloose more ih =>
    obtain ⟨-, hsrest⟩ := List.forall_mem_cons.1 hs
    have hrest := ih hsrest (fun t ht => hraw t (.tail _ ht))
    rw [charsAll, lexemesAll, ← hrest]
    exact Scan.lexemes_append_of_between (eq_of_beq hloose) _
  | tight nests more apart ih =>
    obtain ⟨-, hsrest⟩ := List.forall_mem_cons.1 hs
    have hrest := ih hsrest (fun t ht => hraw t (.tail _ ht))
    rw [charsAll, lexemesAll, ← hrest]
    exact lexemes_append_of_apart (nesting_eq_some nests).1 apart _
  | @solid p d rest htext more apart ih =>
    obtain ⟨hsp, hsrest⟩ := List.forall_mem_cons.1 hs
    have hrest := ih hsrest (fun t ht => hraw t (.tail _ ht))
    have hclosed : (p.after bound).closed :=
      closed_after htext hsp (fun t ht => hraw t (ht ▸ .head _)) bound
    rw [charsAll, lexemesAll, ← hrest]
    exact lexemes_append_of_apart hclosed apart _
  | stop more ih =>
    obtain ⟨hsp, -⟩ := List.forall_mem_cons.1 hs
    simp [fault?] at hsp

end Piece
end NamedQuery.Sql
