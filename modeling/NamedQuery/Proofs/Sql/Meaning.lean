import NamedQuery.Proofs.Sql.Operand
import Mathlib.Data.List.Forall2

namespace NamedQuery.Sql
open Piece

mutual
/-- The conditions that are operands in the text of a condition, from left to right. -/
def Cond.conditions : Cond → List Cond
  | .compare left comparison right => [.compare left comparison right]
  | .inList expr values negated => if values.isEmpty then [] else [.inList expr values negated]
  | .inQuery expr query negated => [.inQuery expr query negated]
  | .between expr low high negated => [.between expr low high negated]
  | .isNull expr negated => [.isNull expr negated]
  | .group _ conds => Cond.conditionsAll conds
  | .not cond => cond.conditions
  | .hasRow query _ => [.hasRow query false]
  | .raw t => [.raw t]

def Cond.conditionsAll : List Cond → List Cond
  | [] => []
  | cond :: rest => cond.conditions ++ Cond.conditionsAll rest
end

mutual
/-- The value of a condition where its operands, counted from left to right, have the values of `v`.
Membership in no values fails. -/
def Cond.truth : Cond → (Nat → Truth) → Truth
  | .inList _ values negated, v => if values.isEmpty then .ofBool negated else v 0
  | .group k conds, v => Cond.truthAll k conds v
  | .not cond, v => (cond.truth v).not
  | .hasRow _ negated, v => if negated then (v 0).not else v 0
  | .compare .., v | .inQuery .., v | .between .., v | .isNull .., v | .raw _, v => v 0

def Cond.truthAll (k : Connective) : List Cond → (Nat → Truth) → Truth
  | [], _ => k.neutral
  | cond :: rest, v =>
    k.join (cond.truth v) (Cond.truthAll k rest fun i => v (i + cond.conditions.length))
end

/-- The tokens of the text that a condition is written as. -/
def Cond.Written (c : Cond) (ts : List Lexeme) : Prop :=
  ∃ w w' text, c.write w = .ok w' ∧ w'.text = w.text ++ text ∧ ts = tokens text.toList

/-- A formula with the operands of a condition and its value, whatever those of the operands are. -/
structure Formula.Means (f : Formula) (c : Cond) : Prop where
  operands : List.Forall₂ Cond.Written c.conditions f.operands
  truth : ∀ v, f.truth v = c.truth v

theorem Formula.Means.length_eq {f : Formula} {c : Cond} (h : f.Means c) :
    f.operands.length = c.conditions.length :=
  h.operands.length_eq.symm

/-- Operands behind `m` and then `n` others are behind `m + n`. -/
theorem shift_add (v : Nat → Truth) (m n : Nat) :
    (fun i => v (i + n + m)) = fun i => v (i + (m + n)) := by
  funext i
  congr 1
  omega

theorem tokens_charsAll {ps : List Piece} (hlaid : Laid 0 ps) (h : Legible ps) (n : Nat) :
    tokens (charsAll n ps) = tokensAll n ps := by
  rw [tokens, tokensAll, lexemes_charsAll hlaid h.sound]
  intro t ht
  have hquiet := (h _ ht).2
  simp [isQuiet] at hquiet

theorem Cond.written_tokensAll {c : Cond} (h : Legible c.pieces) (n : Nat) :
    c.Written (tokensAll n c.pieces) := by
  let w : Writer := ⟨"", Array.replicate n .absent⟩
  have hwrite : c.write w = .ok (w.append c.pieces) := by
    rw [c.write_eq, writeAll_of_sound h.sound]
  refine ⟨w, _, _, hwrite, rfl, ?_⟩
  rw [String.toList_ofList, Array.size_replicate, tokens_charsAll c.laid_pieces h]

/-- A condition whose tokens are read as one operand of what stands around them. -/
structure Cond.Reads (c : Cond) (n : Nat) (ss : List Symbol) (f : Formula) : Prop where
  outlined : Outlined (tokensAll n c.pieces) ss
  primary : Primary ss f
  means : f.Means c
  opens : Opens (tokensAll n c.pieces)

theorem Cond.reads_operand {c : Cond} (hc : c.isOperand) (hconditions : c.conditions = [c])
    (htruth : ∀ v, c.truth v = v 0) (h : Legible c.pieces) (n : Nat) :
    ∃ ss f, c.Reads n ss f := by
  obtain ⟨hoperand, hopens⟩ := Cond.isOperand_tokens hc h n
  refine ⟨_, _, .operand hoperand, .operand _, ⟨?_, fun v => (htruth v).symm⟩, hopens⟩
  rw [hconditions]
  exact .cons (Cond.written_tokensAll h n) .nil

theorem Opens.ne_nil {xs : List Lexeme} (h : Opens xs) : xs ≠ [] := by
  obtain ⟨x, rest, rfl, -⟩ := h
  simp

theorem Outlined.enclosed_of_opens {xs : List Lexeme} {ss : List Symbol} (h : Outlined xs ss)
    (hopens : Opens xs) :
    Outlined (.mark '(' :: (xs ++ [.mark ')'])) (.opening :: (ss ++ [.closing])) := by
  obtain ⟨x, rest, rfl, hx⟩ := hopens
  exact h.enclosed (by simpa using hx) (by simp)

theorem Cond.operandPieces_of_legible {k : Connective} {cond : Cond} {rest : List Cond}
    {lead : String} (h : Legible (Cond.operandPieces k (cond :: rest) lead)) :
    Cond.operandPieces k (cond :: rest) lead =
      text lead :: (cond.pieces ++ Cond.operandPieces k rest k.separator) := by
  rw [Cond.operandPieces_cons] at h ⊢
  unfold Cond.asOperand at h ⊢
  cases hraw : cond.rawText? with
  | none => rfl
  | some t => simp [hraw, isQuiet] at h

theorem separator_token (k : Connective) :
    ∃ x, tokens k.separator.toList = [x] ∧ x.ending? false = some (.join k) := by
  cases k
  · exact ⟨.word "AND".toList, rfl, rfl⟩
  · exact ⟨.word "OR".toList, rfl, rfl⟩

/-- Conditions that are read as the further operands of a chain. -/
structure Cond.ReadsTail (k : Connective) (conds : List Cond) (left whole : Formula)
    (ts : List Symbol) : Prop where
  tail : Tail k ts left whole
  operands : ∃ more, whole.operands = left.operands ++ more ∧
    List.Forall₂ Cond.Written (Cond.conditionsAll conds) more
  truth : ∀ v, whole.truth v =
    k.join (left.truth v) (Cond.truthAll k conds fun i => v (i + left.operands.length))

theorem Cond.readsTail_nil (k : Connective) (left : Formula) :
    Cond.ReadsTail k [] left left [] := by
  refine ⟨.nil, ⟨[], (List.append_nil _).symm, .nil⟩, fun v => ?_⟩
  rw [Cond.truthAll, k.join_neutral]

theorem Cond.ReadsTail.cons {k : Connective} {cond : Cond} {rest : List Cond}
    {left f whole : Formula} {ss ts : List Symbol} (hprimary : Primary ss f) (hmeans : f.Means cond)
    (h : Cond.ReadsTail k rest (.join k left f) whole ts) :
    Cond.ReadsTail k (cond :: rest) left whole (.join k :: (ss ++ ts)) := by
  obtain ⟨more, hmore, hwritten⟩ := h.operands
  refine ⟨.cons hprimary h.tail, ⟨f.operands ++ more, ?_, ?_⟩, fun v => ?_⟩
  · rw [hmore, Formula.operands, List.append_assoc]
  · exact List.rel_append hmeans.operands hwritten
  · rw [h.truth, Formula.truth, hmeans.truth, k.join_assoc, Cond.truthAll, Formula.operands,
      List.length_append, hmeans.length_eq, shift_add]

theorem Formula.Means.of_tail {k : Connective} {first : Cond} {rest : List Cond}
    {f whole : Formula} {ts : List Symbol} (hfirst : f.Means first)
    (h : Cond.ReadsTail k rest f whole ts) : whole.Means (.group k (first :: rest)) := by
  obtain ⟨more, hmore, hwritten⟩ := h.operands
  refine ⟨?_, fun v => ?_⟩
  · rw [hmore, Cond.conditions, Cond.conditionsAll]
    exact List.rel_append hfirst.operands hwritten
  · rw [h.truth, hfirst.truth, hfirst.length_eq, Cond.truth, Cond.truthAll]

theorem Formula.Means.of_group_one {k : Connective} {cond : Cond} {f : Formula}
    (h : f.Means cond) : f.Means (.group k [cond]) :=
  h.of_tail (Cond.readsTail_nil k f)

theorem Formula.Means.not {cond : Cond} {f : Formula} (h : f.Means cond) :
    (Formula.not f).Means (.not cond) :=
  ⟨h.operands, fun v => congrArg Truth.not (h.truth v)⟩

/-- Membership in no values is read as a constant. -/
theorem Cond.reads_inNothing (expr : Expr) {values : List Expr} (hvalues : values.isEmpty = true)
    (negated : Bool) (n : Nat) :
    (Cond.inList expr values negated).Reads n [.constant negated] (.constant negated) := by
  have htokens : tokensAll n (Cond.inList expr values negated).pieces =
      [.word (if negated then "TRUE" else "FALSE").toList] := by
    rw [Cond.pieces, if_pos hvalues]
    cases negated <;> rfl
  refine ⟨?_, .constant _, ⟨?_, fun v => ?_⟩, ?_⟩
  · rw [htokens]
    exact .constant (by cases negated <;> rfl)
  · rw [Cond.conditions, if_pos hvalues]
    exact .nil
  · rw [Cond.truth, if_pos hvalues, Formula.truth]
  · rw [htokens]
    exact ⟨_, [], rfl, by cases negated <;> rfl⟩

theorem Cond.Reads.not {cond : Cond} {n : Nat} {ss : List Symbol} {f : Formula}
    (h : cond.Reads n ss f) : ∃ ss, (Cond.not cond).Reads n ss (.not f) := by
  have htokens : tokensAll n (Cond.not cond).pieces = .word "NOT".toList :: .mark '(' ::
      (tokensAll n cond.pieces ++ [.mark ')']) := by
    rw [Cond.pieces, tokensAll_text, tokensAll_enclosed]
    rfl
  refine ⟨_, ?_, .not h.primary.enclosed, h.means.not, ?_⟩
  · rw [htokens]
    exact .not (h.outlined.enclosed_of_opens h.opens) rfl
  · rw [htokens]
    exact ⟨_, _, rfl, rfl⟩

/-- The operand of a negated search for rows is the search without the negation. -/
theorem Cond.reads_noRow {query : Select} (h : Legible (Cond.hasRow query true).pieces) (n : Nat) :
    ∃ ss f, (Cond.hasRow query true).Reads n ss f := by
  have hexists : Legible (Cond.hasRow query false).pieces := by
    rw [Cond.pieces, legible_cons] at h ⊢
    exact ⟨⟨rfl, rfl⟩, h.2⟩
  obtain ⟨hoperand, hopens⟩ := Cond.isOperand_tokens (c := .hasRow query false) rfl hexists n
  have htokens : tokensAll n (Cond.hasRow query true).pieces =
      .word "NOT".toList :: tokensAll n (Cond.hasRow query false).pieces := by
    rw [Cond.pieces, Cond.pieces, tokensAll_text, tokensAll_text]
    rfl
  refine ⟨_, .not (.operand (tokensAll n (Cond.hasRow query false).pieces)), ?_,
    .not (.operand _), ⟨?_, fun v => rfl⟩, ?_⟩
  · rw [htokens]
    exact .not (.operand hoperand) rfl
  · exact .cons (Cond.written_tokensAll hexists n) .nil
  · rw [htokens]
    exact ⟨_, _, rfl, rfl⟩

theorem Cond.pieces_group {k : Connective} {first second : Cond} {rest : List Cond}
    (h : Legible (Cond.group k (first :: second :: rest)).pieces) :
    (Cond.group k (first :: second :: rest)).pieces =
      text "(" :: (first.pieces ++ Cond.operandPieces k (second :: rest) k.separator ++
        [text ")"]) := by
  rw [Cond.pieces, legible_append] at h
  rw [Cond.pieces, Cond.operandPieces_of_legible h.1]
  rfl

/-- The parentheses make a chain one operand, whatever stands around it. -/
theorem Cond.Reads.group {k : Connective} {first second : Cond} {rest : List Cond} {n : Nat}
    {ss ts : List Symbol} {f whole : Formula} (hfirst : first.Reads n ss f)
    (h : Legible (Cond.group k (first :: second :: rest)).pieces)
    (houtlined : Outlined (tokensAll n first.pieces ++
      tokensAll (n + (values first.pieces).length)
        (Cond.operandPieces k (second :: rest) k.separator)) (ss ++ ts))
    (htail : Cond.ReadsTail k (second :: rest) f whole ts) :
    ∃ ss, (Cond.group k (first :: second :: rest)).Reads n ss whole := by
  have htokens : tokensAll n (Cond.group k (first :: second :: rest)).pieces =
      .mark '(' :: (tokensAll n first.pieces ++ tokensAll (n + (values first.pieces).length)
        (Cond.operandPieces k (second :: rest) k.separator) ++ [.mark ')']) := by
    rw [Cond.pieces_group h, tokensAll_text, tokensAll_enclosed, tokensAll_append]
    rfl
  refine ⟨_, ?_, (htail.tail.chained hfirst.primary).enclosed, hfirst.means.of_tail htail, ?_⟩
  · rw [htokens]
    exact houtlined.enclosed_of_opens (hfirst.opens.append _)
  · rw [htokens]
    exact ⟨_, _, rfl, rfl⟩

mutual
/-- Every condition is read as one operand of what stands around it. -/
theorem Cond.reads : ∀ {c : Cond}, Legible c.pieces → ∀ n, ∃ ss f, c.Reads n ss f
  | .compare .., h, n => Cond.reads_operand rfl rfl (fun _ => rfl) h n
  | .inList expr values negated, h, n => by
    cases hvalues : values.isEmpty with
    | true => exact ⟨_, _, Cond.reads_inNothing expr hvalues negated n⟩
    | false =>
      refine Cond.reads_operand ?_ ?_ (fun v => ?_) h n
      · rw [Cond.isOperand, hvalues]
        rfl
      · rw [Cond.conditions, hvalues]
        rfl
      · rw [Cond.truth, hvalues]
        rfl
  | .inQuery .., h, n => Cond.reads_operand rfl rfl (fun _ => rfl) h n
  | .between .., h, n => Cond.reads_operand rfl rfl (fun _ => rfl) h n
  | .isNull .., h, n => Cond.reads_operand rfl rfl (fun _ => rfl) h n
  | .group _ [], h, n => by
    obtain ⟨⟨hfault, -⟩, -⟩ := (legible_cons _ _).1 h
    simp [fault?] at hfault
  -- a group of one is written without parentheses, and needs none
  | .group k [cond], h, n => by
    obtain ⟨ss, f, hcond⟩ := Cond.reads (c := cond) h n
    exact ⟨ss, f, hcond.outlined, hcond.primary, hcond.means.of_group_one, hcond.opens⟩
  | .group k (first :: second :: rest), h, n => by
    have hparts := h
    rw [Cond.pieces_group h, legible_cons, legible_append, legible_append] at hparts
    obtain ⟨-, ⟨hfirst, hrest⟩, -⟩ := hparts
    obtain ⟨ss, f, hreads⟩ := Cond.reads hfirst n
    obtain ⟨ts, whole, houtlined, htail⟩ := Cond.readsOperands k hrest
      (n + (values first.pieces).length) hreads.outlined f
    obtain ⟨ss', hgroup⟩ := hreads.group h houtlined htail
    exact ⟨ss', whole, hgroup⟩
  | .not cond, h, n => by
    rw [Cond.pieces, legible_cons, legible_append] at h
    obtain ⟨ss, f, hcond⟩ := Cond.reads h.2.1 n
    obtain ⟨ss', hnot⟩ := hcond.not
    exact ⟨ss', .not f, hnot⟩
  | .hasRow query false, h, n => Cond.reads_operand rfl rfl (fun _ => rfl) h n
  | .hasRow query true, h, n => Cond.reads_noRow h n
  | .raw t, h, n => by
    obtain ⟨⟨-, hquiet⟩, -⟩ := (legible_cons _ _).1 h
    simp [isQuiet] at hquiet

theorem Cond.readsOperands (k : Connective) : ∀ {conds : List Cond},
    Legible (Cond.operandPieces k conds k.separator) → ∀ n {xs : List Lexeme} {ss : List Symbol},
      Outlined xs ss → ∀ left, ∃ ts whole,
        Outlined (xs ++ tokensAll n (Cond.operandPieces k conds k.separator)) (ss ++ ts) ∧
          Cond.ReadsTail k conds left whole ts
  | [], _, n, xs, ss, hxs, left => by
    refine ⟨[], left, ?_, Cond.readsTail_nil k left⟩
    simpa [Cond.operandPieces, tokensAll, lexemesAll] using hxs
  | cond :: rest, h, n, xs, ss, hxs, left => by
    have hpieces := Cond.operandPieces_of_legible h
    rw [hpieces, legible_cons, legible_append] at h
    obtain ⟨-, hcond, hrest⟩ := h
    obtain ⟨ss', f, hreads⟩ := Cond.reads hcond n
    obtain ⟨x, hseparator, hending⟩ := separator_token k
    obtain ⟨ts, whole, houtlined, htail⟩ := Cond.readsOperands k hrest
      (n + (values cond.pieces).length) (hxs.join hreads.outlined hending) (.join k left f)
    refine ⟨.join k :: (ss' ++ ts), whole, ?_, htail.cons hreads.primary hreads.means⟩
    rw [hpieces, tokensAll_text, tokensAll_append, hseparator]
    simpa using houtlined
end

end NamedQuery.Sql
