import NamedQuery.Proofs.Sql.Naming

namespace NamedQuery.Sql

namespace Step

def isBind : Step → Bool
  | bind _ => true
  | _ => false

/-- The value that a step binds, if it binds one. -/
def value? : Step → Option Param
  | bind param => some param
  | _ => none

def values (steps : List Step) : List Param :=
  steps.filterMap value?

theorem values_append (steps more : List Step) :
    values (steps ++ more) = values steps ++ values more :=
  List.filterMap_append

theorem length_values (steps : List Step) : (values steps).length = steps.countP isBind := by
  rw [values, List.length_filterMap_eq_countP]
  apply List.countP_congr
  intro s _
  cases s <;> rfl

/-- What can come of a step: the writer that it leaves, and why it was refused, if it was. -/
inductive Outcome (w : Writer) : Step → Writer × Option CompileFault → Prop
  | text (text : String) : Outcome w (.text text) (⟨w.text ++ text, w.params⟩, none)
  | bind (param : Param) : Outcome w (.bind param)
    (⟨w.text ++ "$" ++ toString (w.params.size + 1), w.params.push param⟩, none)
  | int (n : Int64) : Outcome w (.int n) (⟨w.text ++ toString n.toInt, w.params⟩, none)
  | ident {text : String} (segment : Segment text.toList) :
    Outcome w (.ident text) (⟨w.text ++ text, w.params⟩, none)
  | identRefused {text : String} {fault : IdentFault} (refused : Ident.parse text = .error fault) :
    Outcome w (.ident text) (w, some (.ident fault))
  | column {c : ColumnRef} (wellFormed : c.WellFormed) :
    Outcome w (.column c) (⟨w.text ++ c.display, w.params⟩, none)
  | tableRefused {table name : String} {fault : IdentFault}
    (refused : Ident.parse table = .error fault) :
    Outcome w (.column (.qualified table name)) (w, some (.ident fault))
  | nameRefused {name : String} {fault : IdentFault} (named : name ≠ "*")
    (refused : Ident.parse name = .error fault) :
    Outcome w (.column (.unqualified name)) (w, some (.column (.unqualified name) fault))
  /-- The table is written before the name is refused. -/
  | nameRefusedBehind {table name : String} {fault : IdentFault} (segment : Segment table.toList)
    (named : name ≠ "*") (refused : Ident.parse name = .error fault) :
    Outcome w (.column (.qualified table name))
      (⟨w.text ++ table ++ ".", w.params⟩, some (.column (.qualified table name) fault))

/-- Whatever comes of a step, what is written stays, and a value is added by a step that binds it. -/
theorem Outcome.grows {w : Writer} {s : Step} {r : Writer × Option CompileFault}
    (h : Outcome w s r) :
    ∃ text, r.1 = ⟨w.text ++ text, w.params ++ (values [s]).toArray⟩ := by
  have hwritten (text : String) : (⟨text, w.params⟩ : Writer) = ⟨text, w.params ++ #[]⟩ := by
    rw [Array.append_empty]
  have hkept : w = ⟨w.text ++ "", w.params ++ #[]⟩ := by
    rw [Array.append_empty, String.append_empty]
  cases h with
  | text text => exact ⟨text, hwritten _⟩
  | bind param =>
    refine ⟨"$" ++ toString (w.params.size + 1), ?_⟩
    rw [← String.append_assoc, Array.push_eq_append]
    rfl
  | int n => exact ⟨toString n.toInt, hwritten _⟩
  | @ident text segment => exact ⟨text, hwritten _⟩
  | identRefused refused => exact ⟨"", hkept⟩
  | @column c wellFormed => exact ⟨c.display, hwritten _⟩
  | tableRefused refused => exact ⟨"", hkept⟩
  | nameRefused named refused => exact ⟨"", hkept⟩
  | @nameRefusedBehind table _ _ segment named refused =>
    refine ⟨table ++ ".", ?_⟩
    rw [← String.append_assoc]
    exact hwritten _

end Step

namespace Writer

theorem push_push (w : Writer) (text more : String) :
    (w.push text).push more = w.push (text ++ more) := by
  rw [push, push, push, String.append_assoc]

theorem ident_outcome (w : Writer) (text : String) :
    Step.Outcome w (.ident text) (w.step (.ident text)) := by
  cases h : Ident.parse text with
  | ok i =>
    have hstep : w.step (.ident text) = (w.push text, none) := by
      simp only [step, w.ident_of_ok h]
    rw [hstep]
    exact .ident (Ident.parse_eq_ok h).1
  | error fault =>
    have hstep : w.step (.ident text) = (w, some (.ident fault)) := by
      simp only [step, w.ident_of_error h]
    rw [hstep]
    exact .identRefused h

/-- The name of a column is written as it is, or refused. -/
theorem columnName_cases (w : Writer) (c : ColumnRef) :
    (c.name = "*" ∨ Segment c.name.toList) ∧ w.columnName c = .ok (w.push c.name) ∨
      c.name ≠ "*" ∧ ∃ fault, Ident.parse c.name = .error fault ∧
        w.columnName c = .error (.column c fault) := by
  by_cases hname : c.name = "*"
  · exact .inl ⟨.inl hname, by simp [columnName, ColumnRef.isWildcard, hname]⟩
  · have hwrite : w.columnName c = (w.ident c.name).mapError (.column c) := by
      simp [columnName, ColumnRef.isWildcard, hname]
    cases h : Ident.parse c.name with
    | ok i =>
      have hsegment : Segment c.name.toList := (Ident.parse_eq_ok h).1
      exact .inl ⟨.inr hsegment, by rw [hwrite, w.ident_of_ok h, Except.mapError]⟩
    | error fault =>
      exact .inr ⟨hname, fault, rfl, by rw [hwrite, w.ident_of_error h, Except.mapError]⟩

theorem unqualified_outcome (w : Writer) (name : String) :
    Step.Outcome w (.column (.unqualified name)) (w.step (.column (.unqualified name))) := by
  have htable : w.columnTable (.unqualified name) = .ok w := rfl
  obtain ⟨hname, hwrite⟩ | ⟨hname, fault, hfault, hwrite⟩ :=
    w.columnName_cases (.unqualified name)
  · have hstep : w.step (.column (.unqualified name)) = (w.push name, none) := by
      simp only [step, htable, hwrite]
      rfl
    rw [hstep]
    exact .column ⟨nofun, hname⟩
  · have hstep : w.step (.column (.unqualified name)) =
        (w, some (.column (.unqualified name) fault)) := by
      simp only [step, htable, hwrite]
    rw [hstep]
    exact .nameRefused hname hfault

theorem qualified_outcome (w : Writer) (table name : String) :
    Step.Outcome w (.column (.qualified table name))
      (w.step (.column (.qualified table name))) := by
  have hwriteTable : w.columnTable (.qualified table name) =
      ((w.ident table).map (·.push ".")).mapError .ident := rfl
  cases h : Ident.parse table with
  | error fault =>
    have hstep : w.step (.column (.qualified table name)) = (w, some (.ident fault)) := by
      simp only [step, hwriteTable, w.ident_of_error h, Except.map, Except.mapError]
    rw [hstep]
    exact .tableRefused h
  | ok i =>
    have hsegment : Segment table.toList := (Ident.parse_eq_ok h).1
    have htable : w.columnTable (.qualified table name) = .ok (w.push (table ++ ".")) := by
      rw [hwriteTable, w.ident_of_ok h, Except.map, Except.mapError, push_push]
    obtain ⟨hname, hwrite⟩ | ⟨hname, fault, hfault, hwrite⟩ :=
      (w.push (table ++ ".")).columnName_cases (.qualified table name)
    · have hstep : w.step (.column (.qualified table name)) =
          (w.push (table ++ "." ++ name), none) := by
        simp only [step, htable, hwrite, push_push]
        rfl
      rw [hstep]
      exact .column ⟨by simpa [ColumnRef.qualified] using hsegment, hname⟩
    · have hstep : w.step (.column (.qualified table name)) =
          (w.push (table ++ "."), some (.column (.qualified table name) fault)) := by
        simp only [step, htable, hwrite]
      rw [hstep, push, ← String.append_assoc]
      exact .nameRefusedBehind hsegment hname hfault

theorem step_outcome (w : Writer) (s : Step) : Step.Outcome w s (w.step s) := by
  cases s with
  | text text => exact .text text
  | bind param => exact .bind param
  | ident text => exact w.ident_outcome text
  | column c =>
    obtain ⟨table, name⟩ := c
    cases table with
    | none => exact w.unqualified_outcome name
    | some table => exact w.qualified_outcome table name
  | int n => exact .int n

/-- The writer that steps leave, whichever of them are refused. -/
def run (w : Writer) (steps : List Step) : Writer :=
  steps.foldl (fun w s => (w.step s).1) w

theorem run_append (w : Writer) (steps more : List Step) :
    w.run (steps ++ more) = (w.run steps).run more :=
  List.foldl_append

/-- A run leaves what is written as it is, and binds the values of its steps in their order. -/
theorem run_grows (w : Writer) (steps : List Step) :
    ∃ text, w.run steps = ⟨w.text ++ text, w.params ++ (Step.values steps).toArray⟩ := by
  induction steps generalizing w with
  | nil => exact ⟨"", by simp [run, Step.values]⟩
  | cons s rest ih =>
    obtain ⟨text, hstep⟩ := (w.step_outcome s).grows
    obtain ⟨more, hrest⟩ := ih (w.step s).1
    refine ⟨text ++ more, ?_⟩
    have hrun : w.run (s :: rest) = (w.step s).1.run rest := rfl
    have hvalues : Step.values (s :: rest) = Step.values [s] ++ Step.values rest :=
      Step.values_append [s] rest
    rw [hrun, hrest, hstep, hvalues]
    simp [String.append_assoc]

theorem params_run (steps : List Step) : (empty.run steps).params.toList = Step.values steps := by
  obtain ⟨text, hrun⟩ := empty.run_grows steps
  rw [hrun]
  simp [empty]

theorem size_params_run (steps : List Step) :
    (empty.run steps).params.size = steps.countP Step.isBind := by
  rw [← Array.length_toList, params_run, Step.length_values]

/-- After any steps, refused ones among them, there is one value for each step that binds one. The
next of these writes the placeholder of its own value, which no later step moves. Later steps leave
text and values as they are, and a step has no other outcome than those listed. -/
theorem run_keeps_numbering (before : List Step) :
    (empty.run before).params.size = before.countP Step.isBind ∧
    (∀ param, (empty.run (before ++ [.bind param])).text =
      (empty.run before).text ++ "$" ++ toString (before.countP Step.isBind + 1)) ∧
    (∀ param later,
      (empty.run (before ++ .bind param :: later)).params[before.countP Step.isBind]? =
        some param) ∧
    (∀ later, ∃ text params, empty.run (before ++ later) =
      ⟨(empty.run before).text ++ text, (empty.run before).params ++ params⟩) ∧
    ∀ s, Step.Outcome (empty.run before) s ((empty.run before).step s) := by
  refine ⟨size_params_run before, fun param => ?_, fun param later => ?_, fun later => ?_,
    (empty.run before).step_outcome⟩
  · rw [run_append, ← size_params_run before]
    rfl
  · have hnext : Step.values (.bind param :: later) = param :: Step.values later := rfl
    rw [← Array.getElem?_toList, params_run, Step.values_append, hnext, ← Step.length_values]
    simp
  · obtain ⟨text, hlater⟩ := (empty.run before).run_grows later
    exact ⟨text, _, run_append empty before later ▸ hlater⟩

/-- What is written of a refused column stays, and the numbers go on behind it. -/
example : (empty.run [.text "a = ", .bind (.int64 1), .column (.qualified "u" "1x"), .ident "2",
    .bind .absent]).text = "a = $1u.$2" := by
  decide

end Writer

end NamedQuery.Sql
