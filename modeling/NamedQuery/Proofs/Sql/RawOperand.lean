import NamedQuery.Proofs.Sql.Chain

namespace NamedQuery.Sql
open Piece

/-- The text of the caller's own that a condition comes down to through groups of one. -/
def Cond.rawCore? : Cond → Option String
  | .raw t => some t
  | .group _ [cond] => cond.rawCore?
  | _ => none

/-- The text of an operand that is written after `bound` values. -/
def Cond.operandText (bound : Nat) (cond : Cond) : List Char :=
  charsAll bound cond.asOperand

/-- An operand adds its text, and the separator in front of it. -/
theorem Cond.writeOperands_text {k : Connective} {cond : Cond} {lead : String} {w w' : Writer}
    (h : Cond.writeOperands k [cond] lead w = .ok w') :
    w'.text.toList = w.text.toList ++ (lead.toList ++ cond.operandText w.params.size) := by
  rw [Cond.writeOperands_eq] at h
  obtain ⟨-, rfl⟩ := writeAll_eq_ok h
  rw [Writer.append, Cond.operandPieces_cons, Cond.operandPieces, List.append_nil,
    String.toList_append, String.toList_ofList]
  rfl

/-- The texts of the operands of a chain. -/
def Cond.operandTexts : Nat → List Cond → List (List Char)
  | _, [] => []
  | bound, cond :: rest =>
    cond.operandText bound :: Cond.operandTexts (bound + (values cond.asOperand).length) rest

theorem Cond.charsAll_operandPieces (k : Connective) (cond : Cond) (rest : List Cond)
    (lead : String) (bound : Nat) : charsAll bound (Cond.operandPieces k (cond :: rest) lead) =
      lead.toList ++ k.separator.toList.intercalate (Cond.operandTexts bound (cond :: rest)) := by
  induction rest generalizing cond lead bound with
  | nil =>
    rw [Cond.operandPieces_cons, Cond.operandPieces, List.append_nil, Cond.operandTexts,
      Cond.operandTexts, List.intercalate_singleton]
    rfl
  | cons next rest ih =>
    have htexts : Cond.operandTexts bound (cond :: next :: rest) = cond.operandText bound ::
        next.operandText (bound + (values cond.asOperand).length) ::
          Cond.operandTexts (bound + (values cond.asOperand).length +
            (values next.asOperand).length) rest := rfl
    rw [Cond.operandPieces_cons, charsAll, charsAll_append, ih, htexts,
      List.intercalate_cons_cons, List.append_assoc]
    rfl

theorem Cond.pieces_of_rawCore {t : String} : ∀ {cond : Cond}, cond.rawCore? = some t →
    cond.pieces = [.raw t]
  | .raw _, h => by
    obtain rfl := Option.some.inj h
    rfl
  | .group _ [cond], h => by
    have hcond : cond.pieces = [.raw t] :=
      Cond.pieces_of_rawCore (by simpa only [Cond.rawCore?] using h)
    simpa only [Cond.pieces] using hcond

theorem Cond.operandText_raw (bound : Nat) (t : String) :
    (Cond.raw t).operandText bound = '(' :: (t.toList ++ [')']) := by
  simp [Cond.operandText, Cond.asOperand, Cond.rawText?, charsAll, Piece.chars]

theorem Cond.operandText_of_wrapped {cond : Cond} {t : String} (h : cond.rawCore? = some t)
    (hne : cond ≠ .raw t) (bound : Nat) : cond.operandText bound = t.toList := by
  have hnone : cond.rawText? = none := by
    cases hraw : cond.rawText? with
    | none => rfl
    | some t' =>
      obtain rfl := Cond.eq_raw_of_rawText hraw
      exact absurd (congrArg Cond.raw (Option.some.inj h)) hne
  rw [Cond.operandText, Cond.asOperand, hnone, Cond.pieces_of_rawCore h]
  simp [charsAll, Piece.chars]

/-- Raw text keeps its own parentheses where it is the operand, and loses them in a group of one. -/
theorem Cond.operandText_eq_enclosed_iff {cond : Cond} {t : String} (h : cond.rawCore? = some t)
    (bound : Nat) : cond.operandText bound = '(' :: (t.toList ++ [')']) ↔ cond = .raw t := by
  constructor
  · intro htext
    by_contra hne
    -- without parentheses the text is two characters shorter
    have hlength := congrArg List.length htext
    rw [Cond.operandText_of_wrapped h hne] at hlength
    simp at hlength
    omega
  · rintro rfl
    exact Cond.operandText_raw bound t

theorem OrderTerm.chainsAll_append (terms more : List OrderTerm) :
    OrderTerm.chainsAll (terms ++ more) =
      OrderTerm.chainsAll terms ++ OrderTerm.chainsAll more := by
  induction terms with
  | nil => rfl
  | cons term rest ih =>
    obtain ⟨expr, direction⟩ := term
    rw [List.cons_append, OrderTerm.chainsAll, OrderTerm.chainsAll, ih, List.append_assoc]

theorem Select.mem_chains_of_arrange {s arranged : Select} {c : Criteria} {ch : Chain}
    (h : s.arrange c = .ok arranged) (hch : ch ∈ s.chains) : ch ∈ arranged.chains := by
  obtain ⟨terms, -, rfl⟩ := Select.arrange_eq_ok h
  obtain ⟨sources, columns, distinct, conds, groupBy, order, limit, offset⟩ := s
  simp only [Select.chains, OrderTerm.chainsAll_append, List.mem_append] at hch ⊢
  tauto

/-- In a compiled statement the operands of each chain stand in a row, with the connective between
them, each as it is written alone. Those that come down to raw text are in parentheses of their own
exactly when they are that raw text; wrapped in a group of one, they are the bare text. -/
theorem Select.raw_operand_enclosed_iff {s : Select} {c : Criteria} {st : Statement}
    {k : Connective} {conds : List Cond} (h : s.compile c = .ok st)
    (hchain : (k, conds) ∈ s.chains) :
    (∃ bound before rest, st.sql.toList =
        before ++ (k.separator.toList.intercalate (Cond.operandTexts bound conds) ++ rest)) ∧
      (∀ cond ∈ conds, ∀ lead w w', Cond.writeOperands k [cond] lead w = .ok w' →
        w'.text.toList = w.text.toList ++ (lead.toList ++ cond.operandText w.params.size)) ∧
      ∀ cond ∈ conds, ∀ t, cond.rawCore? = some t → ∀ n,
        (cond.operandText n = '(' :: (t.toList ++ [')']) ↔ cond = .raw t) ∧
          (cond ≠ .raw t → cond.operandText n = t.toList) := by
  obtain ⟨arranged, harrange, -, hsql, -⟩ := Select.compile_eq_ok h
  obtain ⟨front, lead, back, hpieces⟩ :=
    Select.chains_within arranged (Select.mem_chains_of_arrange harrange hchain)
  refine ⟨?_, fun cond _ lead w w' => Cond.writeOperands_text, ?_⟩
  · cases conds with
    | nil => exact ⟨0, [], st.sql.toList, rfl⟩
    | cons cond more =>
      rw [hsql, hpieces, charsAll_append, charsAll_append, Cond.charsAll_operandPieces,
        List.append_assoc, ← List.append_assoc]
      exact ⟨_, _, _, rfl⟩
  · intro cond _ t ht n
    exact ⟨Cond.operandText_eq_enclosed_iff ht n, fun hne => Cond.operandText_of_wrapped ht hne n⟩

/-- A filter in a group of one, beside a filter of its own. -/
def wrappedFilter : Select where
  sources := [.table "users" (some "u")]
  columns := []
  distinct := false
  conds := [.group .or [.raw "a OR b"], .test (.unqualified "tenant") .eq (.int64 7)]
  groupBy := []
  order := []
  limit := none
  offset := none

def wrappedFilterSql : String :=
  "SELECT * FROM users u WHERE a OR b AND tenant = $1"

theorem wrappedFilter_compile :
    wrappedFilter.compile .default = .ok ⟨wrappedFilterSql, #[.int64 7]⟩ := rfl

theorem wrappedFilter_chain : (.and, wrappedFilter.conds) ∈ wrappedFilter.chains := by
  refine List.mem_append_right _ (List.mem_append_right _ (List.mem_append_left _ ?_))
  exact .head _

theorem raw_operand_bare_in_wrappedFilter :
    (∃ bound before rest, wrappedFilterSql.toList =
        before ++ (" AND ".toList.intercalate (Cond.operandTexts bound wrappedFilter.conds) ++
          rest)) ∧
      (Cond.group .or [.raw "a OR b"]).operandText 0 = "a OR b".toList := by
  obtain ⟨hsql, -, htexts⟩ :=
    Select.raw_operand_enclosed_iff wrappedFilter_compile wrappedFilter_chain
  exact ⟨hsql, (htexts _ (.head _) "a OR b" rfl 0).2 nofun⟩

/-- Raw text in a group of one is not always enclosed: the other operand binds tighter than its
`OR`. -/
theorem raw_operand_not_always_enclosed : ¬ ∀ (s : Select) (c : Criteria) (st : Statement),
    s.compile c = .ok st → ∀ k conds, (k, conds) ∈ s.chains →
      ∀ cond ∈ conds, ∀ t, cond.rawCore? = some t →
        ∃ before rest, st.sql.toList = before ++ '(' :: (t.toList ++ ')' :: rest) := by
  intro hall
  obtain ⟨before, rest, hsql⟩ := hall wrappedFilter .default _ wrappedFilter_compile _ _
    wrappedFilter_chain _ (.head _) "a OR b" rfl
  have hopen : '(' ∈ wrappedFilterSql.toList := by
    rw [hsql]
    simp
  have hnone : '(' ∉ wrappedFilterSql.toList := by decide
  exact hnone hopen

end NamedQuery.Sql
