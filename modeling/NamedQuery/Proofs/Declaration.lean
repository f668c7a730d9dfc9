import NamedQuery.Proofs.Definition

namespace NamedQuery

open Sql (Select)

/-- What is said of a definition while it is put together. -/
inductive Clause where
  | source (source : Select → Select)
  | rule (name : String) (rule : Rule)
  | unknown (unknown : UnknownFilters)

namespace Clause

def source? : Clause → Option (Select → Select)
  | source s => some s
  | _ => none

def rule? : Clause → Option (String × Rule)
  | rule name apply => some (name, apply)
  | _ => none

def unknown? : Clause → Option UnknownFilters
  | unknown u => some u
  | _ => none

def sources (clauses : List Clause) : List (Select → Select) :=
  clauses.filterMap source?

def rules (clauses : List Clause) : List (String × Rule) :=
  clauses.filterMap rule?

def unknowns (clauses : List Clause) : List UnknownFilters :=
  clauses.filterMap unknown?

end Clause

/-- Rules that can be taken up beside others: each has a name, and one that no other has. -/
structure Distinct (done : Dict Rule) (rules : List (String × Rule)) : Prop where
  named : ∀ e ∈ rules, e.1 ≠ ""
  fresh : ∀ e ∈ rules, e.1 ∉ done.keys
  nodup : (rules.map (·.1)).Nodup

theorem distinct_cons {done : Dict Rule} {name : String} {rule : Rule}
    {rest : List (String × Rule)} : Distinct done ((name, rule) :: rest) ↔
      name ≠ "" ∧ name ∉ done.keys ∧ Distinct (done.insert name rule) rest := by
  constructor
  · rintro ⟨hnamed, hfresh, hnodup⟩
    obtain ⟨hname, hnamed⟩ := List.forall_mem_cons.1 hnamed
    obtain ⟨hnew, hfresh⟩ := List.forall_mem_cons.1 hfresh
    obtain ⟨hother, hnodup⟩ := List.nodup_cons.1 hnodup
    refine ⟨hname, hnew, hnamed, fun e he hmem => ?_, hnodup⟩
    obtain hkey | hmem := Dict.mem_keys_insert.1 hmem
    · exact hother (List.mem_map.2 ⟨e, he, hkey⟩)
    · exact hfresh e he hmem
  · rintro ⟨hname, hnew, hnamed, hfresh, hnodup⟩
    refine ⟨List.forall_mem_cons.2 ⟨hname, hnamed⟩, List.forall_mem_cons.2 ⟨hnew, ?_⟩,
      List.nodup_cons.2 ⟨fun hmem => ?_, hnodup⟩⟩
    · exact fun e he hmem => hfresh e he (Dict.mem_keys_insert.2 (.inr hmem))
    · obtain ⟨e, he, hkey⟩ := List.mem_map.1 hmem
      exact hfresh e he (Dict.mem_keys_insert.2 (.inl hkey))

/-- The first rule that cannot be taken up, behind those that can, and what is wrong with it. -/
inductive Refused (query : String) (done : Dict Rule) (rules : List (String × Rule)) :
    ConfigFault → Prop
  | unnamed {before rest : List (String × Rule)} {rule : Rule}
      (split : rules = before ++ ("", rule) :: rest) (distinct : Distinct done before) :
      Refused query done rules (.unnamedRule query)
  | repeated {before rest : List (String × Rule)} {name : String} {rule : Rule}
      (split : rules = before ++ (name, rule) :: rest) (distinct : Distinct done before)
      (named : name ≠ "") (taken : name ∈ done.keys ∨ name ∈ before.map (·.1)) :
      Refused query done rules (.repeatedRule query name)

theorem Distinct.nil (done : Dict Rule) : Distinct done [] :=
  ⟨List.forall_mem_nil _, List.forall_mem_nil _, List.nodup_nil⟩

theorem Distinct.not_refused {query : String} {done : Dict Rule} {rules : List (String × Rule)}
    {fault : ConfigFault} (h : Distinct done rules) : ¬ Refused query done rules fault := by
  rintro (⟨rfl, -⟩ | ⟨rfl, -, -, htaken⟩)
  · exact h.named _ (List.mem_append_right _ (List.mem_cons_self ..)) rfl
  · obtain hdone | hbefore := htaken
    · exact h.fresh _ (List.mem_append_right _ (List.mem_cons_self ..)) hdone
    · have hnodup := h.nodup
      rw [List.map_append, List.map_cons, List.nodup_append] at hnodup
      exact hnodup.2.2 _ hbefore _ (List.mem_cons_self ..) rfl

theorem Refused.cons {query : String} {done : Dict Rule} {name : String} {rule : Rule}
    {rest : List (String × Rule)} {fault : ConfigFault} (hname : name ≠ "")
    (hnew : name ∉ done.keys) (h : Refused query (done.insert name rule) rest fault) :
    Refused query done ((name, rule) :: rest) fault := by
  obtain ⟨rfl, hdistinct⟩ | ⟨rfl, hdistinct, hother, htaken⟩ := h
  · exact .unnamed rfl (distinct_cons.2 ⟨hname, hnew, hdistinct⟩)
  · refine .repeated rfl (distinct_cons.2 ⟨hname, hnew, hdistinct⟩) hother ?_
    rw [Dict.mem_keys_insert] at htaken
    rw [List.map_cons, List.mem_cons]
    tauto

namespace Declaration

/-- Rules are taken up if they are distinct, all of them, and otherwise up to the first that is not. -/
theorem collect_cases (query : String) (rules : List (String × Rule)) (done : Dict Rule) :
    Distinct done rules ∧
        collect query rules done = .ok (rules.foldl (fun d e => d.insert e.1 e.2) done) ∨
      ∃ fault, Refused query done rules fault ∧
        collect query rules done = .error (.config fault) := by
  induction rules generalizing done with
  | nil => exact .inl ⟨Distinct.nil done, rfl⟩
  | cons e rest ih =>
    obtain ⟨name, rule⟩ := e
    have hhead : (name, rule) :: rest = [] ++ (name, rule) :: rest := rfl
    rw [collect]
    split
    next hempty =>
      obtain rfl : name = "" := String.isEmpty_iff.1 hempty
      exact .inr ⟨_, .unnamed hhead (Distinct.nil done), rfl⟩
    next hempty =>
      have hname : name ≠ "" := fun h => hempty (String.isEmpty_iff.2 h)
      split
      next htaken =>
        have hmem := Dict.contains_eq_true.1 htaken
        exact .inr ⟨_, .repeated hhead (Distinct.nil done) hname (.inl hmem), rfl⟩
      next htaken =>
        have hnew : name ∉ done.keys := fun h => htaken (Dict.contains_eq_true.2 h)
        obtain ⟨hdistinct, hrest⟩ | ⟨fault, hrefused, hrest⟩ := ih (done.insert name rule)
        · exact .inl ⟨distinct_cons.2 ⟨hname, hnew, hdistinct⟩, hrest⟩
        · exact .inr ⟨fault, hrefused.cons hname hnew, hrest⟩

def add (d : Declaration) : Clause → Declaration
  | .source s => d.withSource s
  | .rule name rule => d.withRule name rule
  | .unknown u => d.withUnknown u

/-- What clauses come to, one after the other. -/
def ofClauses (name : String) (clauses : List Clause) : Declaration :=
  clauses.foldl add (named name)

/-- Of the sources and of the ways with unknown filters the last one counts, of the rules all. -/
theorem foldl_add (clauses : List Clause) (d : Declaration) : clauses.foldl add d =
    { name := d.name
      source := (Clause.sources clauses).getLast?.or d.source
      rules := d.rules ++ Clause.rules clauses
      unknown := (Clause.unknowns clauses).getLast?.getD d.unknown } := by
  induction clauses generalizing d with
  | nil => simp [Clause.sources, Clause.rules, Clause.unknowns]
  | cons clause rest ih =>
    rw [List.foldl_cons, ih]
    cases clause with
    | source s =>
      have hlast : (Clause.sources (.source s :: rest)).getLast? =
          (Clause.sources rest).getLast?.or (some s) := by
        rw [Option.or_some]
        exact List.getLast?_cons
      rw [hlast, Option.or_assoc]
      rfl
    | rule name rule =>
      have hrules : Clause.rules (.rule name rule :: rest) = (name, rule) :: Clause.rules rest := rfl
      rw [hrules, List.append_cons]
      rfl
    | unknown u =>
      have hlast : (Clause.unknowns (.unknown u :: rest)).getLast? =
          some ((Clause.unknowns rest).getLast?.getD u) := List.getLast?_cons
      rw [hlast]
      rfl

theorem ofClauses_eq (name : String) (clauses : List Clause) : ofClauses name clauses =
    { name := name
      source := (Clause.sources clauses).getLast?
      rules := Clause.rules clauses
      unknown := (Clause.unknowns clauses).getLast?.getD .ignore } := by
  rw [ofClauses, foldl_add]
  simp [named]

theorem build_cases (d : Declaration) :
    d.source = none ∧ d.build = .error (.config (.noSource d.name)) ∨
      ∃ source, d.source = some source ∧
        (Distinct .empty d.rules ∧
            d.build = .ok ⟨d.name, source, Dict.ofList d.rules, d.unknown⟩ ∨
          ∃ fault, Refused d.name .empty d.rules fault ∧ d.build = .error (.config fault)) := by
  rw [build]
  cases d.source with
  | none => exact .inl ⟨rfl, rfl⟩
  | some source =>
    refine .inr ⟨source, rfl, ?_⟩
    obtain ⟨hdistinct, hrules⟩ | ⟨fault, hrefused, hrules⟩ := collect_cases d.name d.rules .empty
    · rw [hrules]
      exact .inl ⟨hdistinct, rfl⟩
    · rw [hrules]
      exact .inr ⟨fault, hrefused, rfl⟩

theorem build_eq_ok {d : Declaration} {q : Definition} : d.build = .ok q ↔
    ∃ source, d.source = some source ∧ Distinct .empty d.rules ∧
      q = ⟨d.name, source, Dict.ofList d.rules, d.unknown⟩ := by
  obtain ⟨hnone, hbuild⟩ | ⟨source, hsource, ⟨hdistinct, hbuild⟩ | ⟨fault, hrefused, hbuild⟩⟩ :=
    d.build_cases
  · simp [hnone, hbuild]
  · simp [hsource, hbuild, hdistinct, eq_comm]
  · have hnot : ¬ Distinct .empty d.rules := fun h => h.not_refused hrefused
    simp [hbuild, hnot]

end Declaration

theorem distinct_empty {rules : List (String × Rule)} :
    Distinct .empty rules ↔ (∀ e ∈ rules, e.1 ≠ "") ∧ (rules.map (·.1)).Nodup :=
  ⟨fun h => ⟨h.named, h.nodup⟩,
    fun ⟨hnamed, hnodup⟩ => ⟨hnamed, fun _ _ => List.not_mem_nil, hnodup⟩⟩

theorem Distinct.perm {rules others : List (String × Rule)} (h : Distinct .empty rules)
    (hperm : rules.Perm others) : Distinct .empty others := by
  obtain ⟨hnamed, hnodup⟩ := distinct_empty.1 h
  exact distinct_empty.2 ⟨fun e he => hnamed e (hperm.mem_iff.2 he), (hperm.map _).nodup hnodup⟩

namespace Definition

/-- Definitions that no criteria and no call of a rule tell apart. -/
structure Alike (d d' : Definition) : Prop where
  check : ∀ c, d.check c = d'.check c
  prepare : ∀ c, d.prepare c = d'.prepare c
  compile : ∀ c, d.compile c = d'.compile c
  applyRule : ∀ rule value s, d.applyRule rule value s = d'.applyRule rule value s
  ruleNames : d.ruleNames = d'.ruleNames

/-- Rules are known by what is found under each name, whatever the order in which they were put in. -/
theorem alike_of_get? {name : String} {source : Select → Select} {unknown : UnknownFilters}
    {rules others : Dict Rule} (h : ∀ key, rules.get? key = others.get? key) :
    Alike ⟨name, source, rules, unknown⟩ ⟨name, source, others, unknown⟩ := by
  obtain rfl := Dict.ext_get? h
  exact ⟨fun _ => rfl, fun _ => rfl, fun _ => rfl, fun _ _ _ => rfl, rfl⟩

/-- What a definition is that clauses come to. -/
structure DeclaredBy (d : Definition) (query : String) (clauses : List Clause) : Prop where
  name : d.name = query
  source : (Clause.sources clauses).getLast? = some d.source
  unknown : d.unknown = (Clause.unknowns clauses).getLast?.getD .ignore
  /-- A name stands for the rule that was given under it, and other names for none. -/
  rules : ∀ key rule, d.rules.get? key = some rule ↔ (key, rule) ∈ Clause.rules clauses
  hasRule : ∀ key, d.hasRule key = true ↔ key ∈ (Clause.rules clauses).map (·.1)
  applyRule : ∀ key rule, (key, rule) ∈ Clause.rules clauses → d.applyRule key = rule
  unruled : ∀ key, key ∉ (Clause.rules clauses).map (·.1) → ∀ value s,
    d.applyRule key value s = .stopped s (.config (.unknownRule query key))
  ascending : d.ruleNames.Pairwise (· < ·)
  ruleNames : d.ruleNames.Perm ((Clause.rules clauses).map (·.1))

end Definition

namespace Declaration

open Definition (Alike DeclaredBy)

variable {name : String} {clauses : List Clause}

theorem build_ofClauses_eq_ok {d : Definition} : (ofClauses name clauses).build = .ok d ↔
    ∃ source, (Clause.sources clauses).getLast? = some source ∧
      Distinct .empty (Clause.rules clauses) ∧
      d = ⟨name, source, Dict.ofList (Clause.rules clauses),
        (Clause.unknowns clauses).getLast?.getD .ignore⟩ := by
  rw [ofClauses_eq, build_eq_ok]

theorem declaredBy_of_build {d : Definition} (h : (ofClauses name clauses).build = .ok d) :
    d.DeclaredBy name clauses := by
  obtain ⟨source, hsource, hdistinct, rfl⟩ := build_ofClauses_eq_ok.1 h
  have hrules (key : String) (rule : Rule) :
      (Dict.ofList (Clause.rules clauses)).get? key = some rule ↔
        (key, rule) ∈ Clause.rules clauses := Dict.get?_ofList hdistinct.nodup
  have hnames (key : String) : key ∈ (Dict.ofList (Clause.rules clauses)).keys ↔
      key ∈ (Clause.rules clauses).map (·.1) := by
    simp [Dict.mem_keys, hrules]
  have hascending := (Dict.ofList (Clause.rules clauses)).ascending_keys
  refine ⟨rfl, hsource, rfl, hrules, fun key => ?_, fun key rule hmem => ?_,
    fun key hnot value s => ?_, hascending, ?_⟩
  · exact Dict.contains_eq_true.trans (hnames key)
  · funext value s
    rw [Definition.applyRule, (hrules key rule).2 hmem]
  · have hnone : (Dict.ofList (Clause.rules clauses)).get? key = none := by
      rw [← Option.not_isSome_iff_eq_none, Option.isSome_iff_exists, ← Dict.mem_keys, hnames]
      exact hnot
    rw [Definition.applyRule, hnone]
  · have hnodup : (Dict.ofList (Clause.rules clauses)).keys.Nodup :=
      hascending.imp fun hlt => Std.ne_of_lt hlt
    exact (List.perm_ext_iff_of_nodup hnodup hdistinct.nodup).2 hnames

theorem alike_of_perm {d : Definition} (h : (ofClauses name clauses).build = .ok d)
    {others : List Clause} (hperm : (Clause.rules clauses).Perm (Clause.rules others))
    (hsources : Clause.sources others = Clause.sources clauses)
    (hunknowns : Clause.unknowns others = Clause.unknowns clauses) :
    ∃ d', (ofClauses name others).build = .ok d' ∧ Alike d d' := by
  obtain ⟨source, hsource, hdistinct, rfl⟩ := build_ofClauses_eq_ok.1 h
  have hothers := hdistinct.perm hperm
  refine ⟨_, build_ofClauses_eq_ok.2 ⟨source, hsources ▸ hsource, hothers, rfl⟩, ?_⟩
  rw [hunknowns]
  apply Definition.alike_of_get?
  intro key
  apply Option.ext
  intro rule
  rw [Dict.get?_ofList hdistinct.nodup, Dict.get?_ofList hothers.nodup, hperm.mem_iff]

theorem build_ofClauses_eq_error {error : Error}
    (h : (ofClauses name clauses).build = .error error) : ∃ fault, error = .config fault ∧
      (Clause.sources clauses = [] ∧ fault = .noSource name ∨
        Clause.sources clauses ≠ [] ∧ Refused name .empty (Clause.rules clauses) fault) := by
  rw [ofClauses_eq] at h
  obtain ⟨hnone, hbuild⟩ | ⟨source, hsource, ⟨-, hbuild⟩ | ⟨fault, hrefused, hbuild⟩⟩ :=
    build_cases ⟨name, (Clause.sources clauses).getLast?, Clause.rules clauses,
      (Clause.unknowns clauses).getLast?.getD .ignore⟩
  · obtain rfl := Except.error.inj (hbuild.symm.trans h)
    exact ⟨_, rfl, .inl ⟨List.getLast?_eq_none_iff.1 hnone, rfl⟩⟩
  · cases hbuild.symm.trans h
  · obtain rfl := Except.error.inj (hbuild.symm.trans h)
    refine ⟨fault, rfl, .inr ⟨?_, hrefused⟩⟩
    exact List.getLast?_isSome.1 (Option.isSome_of_eq_some hsource)

/-- Clauses come to a definition when one of them gives a source and the rules are distinct; otherwise
the first fault is reported. The definition has the last source and finds each rule under the name that
was given with it, so the order of the rules makes no difference. -/
theorem build_follows_clauses (name : String) (clauses : List Clause) :
    ((∃ d, (ofClauses name clauses).build = .ok d) ↔ Clause.sources clauses ≠ [] ∧
      (∀ e ∈ Clause.rules clauses, e.1 ≠ "") ∧ ((Clause.rules clauses).map (·.1)).Nodup) ∧
    (∀ error, (ofClauses name clauses).build = .error error → ∃ fault, error = .config fault ∧
      (Clause.sources clauses = [] ∧ fault = .noSource name ∨
        Clause.sources clauses ≠ [] ∧ Refused name .empty (Clause.rules clauses) fault)) ∧
    ∀ d, (ofClauses name clauses).build = .ok d → d.DeclaredBy name clauses ∧
      ∀ others, (Clause.rules clauses).Perm (Clause.rules others) →
        Clause.sources others = Clause.sources clauses →
        Clause.unknowns others = Clause.unknowns clauses →
          ∃ d', (ofClauses name others).build = .ok d' ∧ Alike d d' := by
  refine ⟨?_, fun error => build_ofClauses_eq_error, fun d h =>
    ⟨declaredBy_of_build h, fun others => alike_of_perm h⟩⟩
  rw [← distinct_empty, ← List.getLast?_isSome, Option.isSome_iff_exists]
  constructor
  · rintro ⟨d, h⟩
    obtain ⟨source, hsource, hdistinct, -⟩ := build_ofClauses_eq_ok.1 h
    exact ⟨⟨source, hsource⟩, hdistinct⟩
  · rintro ⟨⟨source, hsource⟩, hdistinct⟩
    exact ⟨_, build_ofClauses_eq_ok.2 ⟨source, hsource, hdistinct, rfl⟩⟩

def byStatus : Rule := fun value s =>
  .done (s.restrict (.test (.qualified "u" "status") .eq (.filter value)))

def byName : Rule := fun value s =>
  .done (s.restrict (.test (.qualified "u" "name") .like (.filter value)))

/-- Users by their status and their name; the first source is replaced. -/
def usersClauses : List Clause :=
  [.rule "status" byStatus, .source (·.addTable "people" "u"), .unknown .reject,
    .source (·.addTable "users" "u"), .rule "name" byName]

def usersShuffled : List Clause :=
  [.source (·.addTable "people" "u"), .rule "name" byName, .source (·.addTable "users" "u"),
    .rule "status" byStatus, .unknown .reject]

theorem users_declared :
    (∃ d d', (ofClauses "users" usersClauses).build = .ok d ∧
      (Clause.rules usersClauses).Perm (Clause.rules usersShuffled) ∧
      (ofClauses "users" usersShuffled).build = .ok d' ∧ Alike d d' ∧
      d.DeclaredBy "users" usersClauses ∧ d.ruleNames = ["name", "status"] ∧
      d.unknown = .reject ∧ d.source .empty = Select.empty.addTable "users" "u") ∧
    (ofClauses "users" (.rule "name" byStatus :: usersClauses)).build =
      .error (.config (.repeatedRule "users" "name")) ∧
    Refused "users" .empty (Clause.rules (.rule "name" byStatus :: usersClauses))
      (.repeatedRule "users" "name") := by
  have hbuild : (ofClauses "users" usersClauses).build = .ok _ := rfl
  have hrepeated : (ofClauses "users" (.rule "name" byStatus :: usersClauses)).build =
      .error (.config (.repeatedRule "users" "name")) := rfl
  have hperm : (Clause.rules usersClauses).Perm (Clause.rules usersShuffled) := .swap _ _ _
  obtain ⟨-, -, hok⟩ := build_follows_clauses "users" usersClauses
  obtain ⟨-, hrefused, -⟩ :=
    build_follows_clauses "users" (.rule "name" byStatus :: usersClauses)
  obtain ⟨hdeclared, hshuffled⟩ := hok _ hbuild
  obtain ⟨d', hbuild', halike⟩ := hshuffled usersShuffled hperm rfl rfl
  refine ⟨⟨_, d', hbuild, hperm, hbuild', halike, hdeclared, rfl, rfl, rfl⟩, hrepeated, ?_⟩
  obtain ⟨fault, hfault, ⟨hnone, -⟩ | ⟨-, hrule⟩⟩ := hrefused _ hrepeated
  · cases hnone
  · cases hfault
    exact hrule

end Declaration
end NamedQuery
