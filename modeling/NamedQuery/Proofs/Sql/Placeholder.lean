import NamedQuery.Proofs.Sql.Tokens

namespace NamedQuery.Sql

def Lexeme.placeholder? : Lexeme → Option String
  | placeholder digits => some (String.ofList ('$' :: digits))
  | _ => none

/-- The placeholders in a text, from left to right. -/
def placeholders (text : String) : List String :=
  (lexemes text).filterMap Lexeme.placeholder?

/-- The placeholders of `count` values, after `bound` others. -/
def numbered (bound count : Nat) : List String :=
  (List.range' bound count).map fun i => "$" ++ toString (i + 1)

theorem numbered_add (bound m n : Nat) :
    numbered bound (m + n) = numbered bound m ++ numbered (bound + m) n := by
  simp [numbered, ← List.map_append]

/-- Whether a text of the caller's own has neither placeholders nor quotes nor comments. -/
def isSimple (text : String) : Bool :=
  text.toList.all fun c => !(['$', '\'', '"', '-', '/'].contains c)

theorem simple_lexemes {t : String} (h : isSimple t) : (Scan.between.after t.toList).closed ∧
    ∀ x ∈ lexemes t, x.placeholder? = none := by
  have hchars : ∀ c ∈ t.toList, c ≠ '$' ∧ c ≠ '"' := by
    intro c hc
    have hnone := List.all_eq_true.1 h c hc
    constructor <;> rintro rfl <;> simp at hnone
  obtain ⟨hafter, hlexemes⟩ := Scan.unmarked_lexemes (s := .between) rfl hchars
  refine ⟨Scan.closed_of_unmarked hafter, ?_⟩
  intro x hx
  obtain ⟨cs, rfl⟩ | ⟨c, rfl⟩ := hlexemes x hx <;> rfl

theorem Lexeme.placeholder_of_isOwn {x : Lexeme} (h : x.isOwn) : x.placeholder? = none := by
  cases x <;> simp_all [isOwn, placeholder?]

namespace Piece

/-- A value has its placeholder, and no other piece has any. -/
theorem placeholders_lexemes {p : Piece} (hown : ∀ t, p = text t → ∀ x ∈ Sql.lexemes t, x.isOwn)
    (hs : p.fault? = none) (hraw : ∀ t, p = raw t → isSimple t) (bound : Nat) :
    (p.lexemes bound).filterMap Lexeme.placeholder? = numbered bound (values [p]).length := by
  cases p with
  | text t =>
    exact List.filterMap_eq_nil_iff.2 fun x hx => Lexeme.placeholder_of_isOwn (hown t rfl x hx)
  | raw t => exact List.filterMap_eq_nil_iff.2 (simple_lexemes (hraw t rfl)).2
  | value param =>
    rw [(value_lexemes bound param).2]
    have hdollar : String.ofList ('$' :: (toString (bound + 1)).toList) =
        "$" ++ toString (bound + 1) := by
      rw [← String.toList_inj, String.toList_ofList, String.toList_append]
      rfl
    exact congrArg (fun t => [t]) hdollar
  | ident segment column =>
    obtain ⟨hword, -⟩ | ⟨name, hquoted⟩ := (ident_lexemes hs bound).2
    · rw [hword]
      rfl
    · rw [hquoted]
      rfl
  | count n fault =>
    obtain ⟨digits, -, hdigits⟩ := (count_lexemes hs bound).2
    rw [hdigits, List.filterMap_map]
    exact List.filterMap_eq_nil_iff.2 fun _ _ => rfl
  | stop fault => simp [fault?] at hs

/-- The placeholders of pieces number the values in order. -/
theorem placeholders_lexemesAll {ps : List Piece}
    (hown : ∀ t, text t ∈ ps → ∀ x ∈ Sql.lexemes t, x.isOwn) (hs : Sound ps)
    (hraw : ∀ t, raw t ∈ ps → isSimple t) (bound : Nat) :
    (lexemesAll bound ps).filterMap Lexeme.placeholder? = numbered bound (values ps).length := by
  -- the numbers go on from those of the values before, so the induction is for any `bound`
  induction ps generalizing bound with
  | nil => rfl
  | cons p rest ih =>
    obtain ⟨hsp, hsrest⟩ := List.forall_mem_cons.1 hs
    have hp := placeholders_lexemes (fun t ht => hown t (ht ▸ .head _)) hsp
      (fun t ht => hraw t (ht ▸ .head _)) bound
    have hrest := ih (fun t ht => hown t (.tail _ ht)) hsrest (fun t ht => hraw t (.tail _ ht))
      (bound + (values [p]).length)
    rw [lexemesAll, List.filterMap_append, hp, hrest, values_cons p rest, List.length_append,
      numbered_add]

end Piece

open Piece

/-- Where the caller's own text holds no placeholders, quotes or comments, the statement's are `$1`
to `$k` in this order, and the `k` parameters are the bound values from left to right. -/
theorem Select.compile_placeholders {s : Select} {c : Criteria} {st : Statement}
    (hraw : ∀ t, Leaf.raw t ∈ s.leaves → isSimple t) (h : s.compile c = .ok st) :
    placeholders st.sql = (List.range st.params.size).map (fun i => "$" ++ toString (i + 1)) ∧
      st.params.toList = s.values := by
  obtain ⟨arranged, harrange, hsound, hsql, hparams⟩ := Select.compile_eq_ok h
  have hsimple : ∀ t, Piece.raw t ∈ arranged.pieces → isSimple t := by
    intro t ht
    exact hraw t (Select.arrange_raw harrange (Select.raw_mem_leaves ht))
  have hlaid : Laid 0 arranged.pieces := arranged.laid_pieces
  have hlexemes : lexemes st.sql = lexemesAll 0 arranged.pieces := by
    rw [lexemes, hsql]
    exact lexemes_charsAll hlaid hsound (fun t ht => (simple_lexemes (hsimple t ht)).1) 0
  constructor
  · rw [placeholders, hlexemes, placeholders_lexemesAll (fun _ => hlaid.isOwn) hsound hsimple,
      ← hparams, Array.length_toList, numbered, List.range_eq_range']
  · rw [hparams, arranged.values_pieces, Select.arrange_values harrange]

/-- A statement with `$` in its names, membership in no values, raw text and a subquery. -/
def withDollars : Select where
  sources := [.table "t" none]
  columns := [⟨.call "f$3" [.column (.unqualified "cost$1"), .bound (.int64 8)], none⟩]
  distinct := false
  conds := [.inList (.bound (.int64 7)) [] true, .raw "x = 3 OR y", .hasRow
    ⟨[.table "\"a$9\"" none], [], false, [.test (.unqualified "b$2") .eq (.bool true)], [], [],
      none, none⟩ false]
  groupBy := []
  order := []
  limit := some 10
  offset := none

def withDollarsSql : String :=
  "SELECT f$3(cost$1, $1) FROM t WHERE TRUE AND (x = 3 OR y) AND " ++
    "EXISTS (SELECT * FROM \"a$9\" WHERE b$2 = $2) LIMIT 10"

theorem placeholders_withDollars : (∀ t, Leaf.raw t ∈ withDollars.leaves → isSimple t) ∧
    withDollars.compile .default = .ok ⟨withDollarsSql, #[.int64 8, .bool true]⟩ ∧
    placeholders withDollarsSql = ["$1", "$2"] ∧
    withDollars.values = [.int64 8, .bool true] := by
  have hleaves : withDollars.leaves = [.name "f$3", .name "cost$1", .value (.int64 8), .name "t",
      .raw "x = 3 OR y", .name "\"a$9\"", .name "b$2", .value (.bool true)] := rfl
  have hraw : ∀ t, Leaf.raw t ∈ withDollars.leaves → isSimple t := by
    intro t ht
    obtain rfl : t = "x = 3 OR y" := by simpa [hleaves] using ht
    rfl
  have hcompile : withDollars.compile .default =
      .ok ⟨withDollarsSql, #[.int64 8, .bool true]⟩ := rfl
  obtain ⟨hplaceholders, hvalues⟩ := Select.compile_placeholders hraw hcompile
  exact ⟨hraw, hcompile, hplaceholders, hvalues.symm⟩

end NamedQuery.Sql
