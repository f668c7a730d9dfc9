import NamedQuery.Proofs.Database
import NamedQuery.Service
import Mathlib.Data.List.Basic

namespace NamedQuery

variable {α : Type}

/-- A step that a run can come to: what is handed to it, and the error it fails with, if it does. -/
structure Stage (α : Type) where
  visit : Visit α
  error : Option Error

namespace Stage

/-- All stages up to the first that fails. -/
def entered : List (Stage α) → List (Stage α)
  | [] => []
  | s :: rest =>
    match s.error with
    | some _ => [s]
    | none => s :: entered rest

/-- The error of the first stage that fails. -/
def failure? (stages : List (Stage α)) : Option Error :=
  stages.findSome? (·.error)

theorem failure?_eq_none {stages : List (Stage α)} :
    failure? stages = none ↔ ∀ s ∈ stages, s.error = none :=
  List.findSome?_eq_none_iff

theorem failure?_cons_of_some {s : Stage α} {error : Error} (h : s.error = some error)
    (rest : List (Stage α)) : failure? (s :: rest) = some error := by
  rw [failure?, List.findSome?_cons, h]

theorem failure?_cons_of_none {s : Stage α} (h : s.error = none) (rest : List (Stage α)) :
    failure? (s :: rest) = failure? rest := by
  rw [failure?, List.findSome?_cons, h]
  rfl

theorem failure?_append (first more : List (Stage α)) :
    failure? (first ++ more) = (failure? first).or (failure? more) :=
  List.findSome?_append

theorem entered_cons_of_some {s : Stage α} {error : Error} (h : s.error = some error)
    (rest : List (Stage α)) : entered (s :: rest) = [s] := by
  rw [entered, h]

theorem entered_cons_of_none {s : Stage α} (h : s.error = none) (rest : List (Stage α)) :
    entered (s :: rest) = s :: entered rest := by
  rw [entered, h]

theorem entered_append_of_none {first : List (Stage α)} (h : failure? first = none)
    (more : List (Stage α)) : entered (first ++ more) = first ++ entered more := by
  induction first with
  | nil => rfl
  | cons s rest ih =>
    obtain ⟨hs, hrest⟩ := List.forall_mem_cons.1 (failure?_eq_none.1 h)
    rw [List.cons_append, entered_cons_of_none hs, ih (failure?_eq_none.2 hrest)]
    rfl

theorem entered_of_none {stages : List (Stage α)} (h : failure? stages = none) :
    entered stages = stages := by
  simpa [entered] using entered_append_of_none h []

theorem entered_of_some {stages : List (Stage α)} {error : Error}
    (h : failure? stages = some error) : ∃ done failed rest, stages = done ++ failed :: rest ∧
      (∀ s ∈ done, s.error = none) ∧ failed.error = some error ∧
      entered stages = done ++ [failed] := by
  obtain ⟨done, failed, rest, rfl, hfailed, hdone⟩ := List.findSome?_eq_some_iff.1 h
  refine ⟨done, failed, rest, rfl, hdone, hfailed, ?_⟩
  rw [entered_append_of_none (failure?_eq_none.2 hdone), entered_cons_of_some hfailed]

theorem mem_of_mem_entered {stages : List (Stage α)} {s : Stage α} (h : s ∈ entered stages) :
    s ∈ stages := by
  cases hfailure : failure? stages with
  | none => rwa [entered_of_none hfailure] at h
  | some error =>
    obtain ⟨done, failed, rest, rfl, -, -, hentered⟩ := entered_of_some hfailure
    rw [hentered] at h
    simp only [List.mem_append, List.mem_cons, List.not_mem_nil, or_false] at h ⊢
    tauto

theorem entered_append_of_some {first : List (Stage α)} {error : Error}
    (h : failure? first = some error) (more : List (Stage α)) :
    entered (first ++ more) = entered first := by
  obtain ⟨done, failed, rest, rfl, hdone, hfailed, hentered⟩ := entered_of_some h
  rw [hentered, List.append_assoc, entered_append_of_none (failure?_eq_none.2 hdone),
    List.cons_append, entered_cons_of_some hfailed]

end Stage

open Stage

namespace Chain

/-- The criteria after the hooks before the query, each applied to what the one before it leaves. -/
def prepared (chain : Chain α) (c : Criteria) : Criteria :=
  chain.foldl (fun c layer => (layer.before c).value) c

/-- The rows after the hooks behind the query, which all see the same criteria. -/
def finished (chain : Chain α) (c : Criteria) (l : Listing α) : Listing α :=
  chain.foldl (fun l layer => (layer.after c l).value) l

def beforeStages (chain : Chain α) (position : Nat) (c : Criteria) : List (Stage α) :=
  chain.mapIdx fun i layer =>
    let handed := prepared (chain.take i) c
    ⟨.before (position + i) layer.name handed, (layer.before handed).error⟩

def afterStages (chain : Chain α) (position : Nat) (c : Criteria) (l : Listing α) :
    List (Stage α) :=
  chain.mapIdx fun i layer =>
    let handed := finished (chain.take i) c l
    ⟨.after (position + i) layer.name c handed, (layer.after c handed).error⟩

def queryStage (found : Logged (List α)) (c : Criteria) : Stage α :=
  ⟨.query c found.entries, match found.outcome with
    | .ok _ => none
    | .error error => some error⟩

/-- The rows that a query answers, and nothing beside them. -/
def foundRows (found : Logged (List α)) : Listing α :=
  .ofItems (found.outcome.toOption.getD [])

/-- What a run comes to when nothing fails: each hook before the query, the query, and each hook after
it. The query and the hooks after it are handed the same criteria. -/
def stages (chain : Chain α) (c : Criteria) (query : Criteria → Logged (List α)) : List (Stage α) :=
  let c' := chain.prepared c
  chain.beforeStages 0 c ++ queryStage (query c') c' ::
    chain.afterStages 0 c' (foundRows (query c'))

theorem beforeStages_cons (layer : Layer α) (rest : Chain α) (position : Nat) (c : Criteria) :
    beforeStages (layer :: rest) position c =
      ⟨.before position layer.name c, (layer.before c).error⟩ ::
        rest.beforeStages (position + 1) (layer.before c).value := by
  simp only [beforeStages, List.mapIdx_cons, Nat.add_assoc, Nat.add_comm 1]
  rfl

theorem afterStages_cons (layer : Layer α) (rest : Chain α) (position : Nat) (c : Criteria)
    (l : Listing α) : afterStages (layer :: rest) position c l =
      ⟨.after position layer.name c l, (layer.after c l).error⟩ ::
        rest.afterStages (position + 1) c (layer.after c l).value := by
  simp only [afterStages, List.mapIdx_cons, Nat.add_assoc, Nat.add_comm 1]
  rfl

variable {layer : Layer α} {rest : Chain α} {position : Nat} {c : Criteria} {l : Listing α}

theorem before_cons_of_some {error : Error} (h : (layer.before c).error = some error) :
    before (layer :: rest) position c =
      ([.before position layer.name c], ⟨(layer.before c).value, some error⟩) := by
  cases hlayer : layer.before c with | mk value failed =>
  obtain rfl : failed = some error := by simpa [hlayer] using h
  simp only [before, hlayer, Edited.stopped]

theorem before_cons_of_none (h : (layer.before c).error = none) :
    before (layer :: rest) position c =
      (.before position layer.name c :: (rest.before (position + 1) (layer.before c).value).1,
        (rest.before (position + 1) (layer.before c).value).2) := by
  cases hlayer : layer.before c with | mk value failed =>
  obtain rfl : failed = none := by simpa [hlayer] using h
  simp only [before, hlayer]

theorem after_cons_of_some {error : Error} (h : (layer.after c l).error = some error) :
    after (layer :: rest) position c l = ([.after position layer.name c l], .error error) := by
  cases hlayer : layer.after c l with | mk value failed =>
  obtain rfl : failed = some error := by simpa [hlayer] using h
  simp only [after, hlayer]

theorem after_cons_of_none (h : (layer.after c l).error = none) :
    after (layer :: rest) position c l =
      (.after position layer.name c l :: (rest.after (position + 1) c (layer.after c l).value).1,
        (rest.after (position + 1) c (layer.after c l).value).2) := by
  cases hlayer : layer.after c l with | mk value failed =>
  obtain rfl : failed = none := by simpa [hlayer] using h
  simp only [after, hlayer]

/-- The hooks before the query are entered up to the first that fails, and leave the criteria as these
hooks make them. -/
theorem before_eq (chain : Chain α) (position : Nat) (c : Criteria) : chain.before position c =
    ((entered (chain.beforeStages position c)).map (·.visit),
      ⟨prepared (chain.take (entered (chain.beforeStages position c)).length) c,
        failure? (chain.beforeStages position c)⟩) := by
  -- the position of the first layer and the criteria handed to it go along with the recursion
  induction chain generalizing position c with
  | nil => rfl
  | cons layer rest ih =>
    cases herror : (layer.before c).error with
    | some error =>
      rw [before_cons_of_some herror, beforeStages_cons, entered_cons_of_some herror,
        failure?_cons_of_some herror]
      rfl
    | none =>
      rw [before_cons_of_none herror, beforeStages_cons, entered_cons_of_none herror,
        failure?_cons_of_none herror, ih]
      rfl

theorem after_eq (chain : Chain α) (position : Nat) (c : Criteria) (l : Listing α) :
    chain.after position c l = ((entered (chain.afterStages position c l)).map (·.visit),
      match failure? (chain.afterStages position c l) with
      | some error => .error error
      | none => .ok (chain.finished c l)) := by
  induction chain generalizing position l with
  | nil => rfl
  | cons layer rest ih =>
    cases herror : (layer.after c l).error with
    | some error =>
      rw [after_cons_of_some herror, afterStages_cons, entered_cons_of_some herror,
        failure?_cons_of_some herror]
      rfl
    | none =>
      rw [after_cons_of_none herror, afterStages_cons, entered_cons_of_none herror,
        failure?_cons_of_none herror, ih]
      rfl

@[simp] theorem length_beforeStages (chain : Chain α) (position : Nat) (c : Criteria) :
    (chain.beforeStages position c).length = chain.length := by
  simp [beforeStages]

@[simp] theorem length_afterStages (chain : Chain α) (position : Nat) (c : Criteria)
    (l : Listing α) : (chain.afterStages position c l).length = chain.length := by
  simp [afterStages]

/-- A run enters its stages up to the first that fails, and ends with the error of that one, or with
the rows as the last hook leaves them. -/
theorem run_eq (chain : Chain α) (c : Criteria) (query : Criteria → Logged (List α)) :
    chain.run c query = ⟨(entered (chain.stages c query)).map (·.visit),
      prepared (chain.take (entered (chain.beforeStages 0 c)).length) c,
      match failure? (chain.stages c query) with
      | some error => .error error
      | none => .ok (chain.finished (chain.prepared c) (foundRows (query (chain.prepared c))))⟩ := by
  rw [run, before_eq, stages]
  cases hbefore : failure? (chain.beforeStages 0 c) with
  | some error =>
    rw [entered_append_of_some hbefore, failure?_append, hbefore]
    rfl
  | none =>
    -- every hook is entered, so the criteria are those that all of them make
    have hall : chain.take (entered (chain.beforeStages 0 c)).length = chain := by
      rw [entered_of_none hbefore, length_beforeStages, List.take_length]
    rw [entered_append_of_none hbefore, failure?_append, hbefore, hall, entered_of_none hbefore]
    cases hfound : (query (chain.prepared c)).outcome with
    | error error =>
      have hquery : (queryStage (query (chain.prepared c)) (chain.prepared c)).error = some error := by
        simp only [queryStage, hfound]
      rw [entered_cons_of_some hquery, failure?_cons_of_some hquery]
      simp [hfound, queryStage]
    | ok items =>
      have hquery : (queryStage (query (chain.prepared c)) (chain.prepared c)).error = none := by
        simp only [queryStage, hfound]
      have hrows : foundRows (query (chain.prepared c)) = .ofItems items := by
        rw [foundRows, hfound]
        rfl
      rw [entered_cons_of_none hquery, failure?_cons_of_none hquery, hrows]
      simp [hfound, after_eq, queryStage]

end Chain

namespace Visit

def isBefore : Visit α → Bool
  | before .. => true
  | _ => false

/-- The criteria that are handed to a step. -/
def criteria : Visit α → Criteria
  | before _ _ c => c
  | query c _ => c
  | after _ _ c _ => c

/-- The calls of a store that a step makes. A hook makes none. -/
def calls : Visit α → List (String × Array Param)
  | query _ entries => entries.filterMap Entry.call?
  | _ => []

end Visit

def Run.calls (r : Run α) : List (String × Array Param) :=
  r.visits.flatMap Visit.calls

namespace Chain

variable {chain : Chain α} {c : Criteria} {query : Criteria → Logged (List α)}

theorem isBefore_of_mem_beforeStages {position : Nat} {s : Stage α}
    (h : s ∈ chain.beforeStages position c) : s.visit.isBefore = true ∧ s.visit.calls = [] := by
  obtain ⟨i, hi, rfl⟩ := List.mem_mapIdx.1 h
  exact ⟨rfl, rfl⟩

theorem isAfter_of_mem_afterStages {position : Nat} {l : Listing α} {s : Stage α}
    (h : s ∈ chain.afterStages position c l) :
    s.visit.isBefore = false ∧ s.visit.criteria = c ∧ s.visit.calls = [] := by
  obtain ⟨i, hi, rfl⟩ := List.mem_mapIdx.1 h
  exact ⟨rfl, rfl, rfl⟩

/-- Either a hook before the query fails, or all of them and the query are entered. -/
theorem entered_stages (chain : Chain α) (c : Criteria) (query : Criteria → Logged (List α)) :
    ((∃ error, failure? (chain.beforeStages 0 c) = some error) ∧
      entered (chain.stages c query) = entered (chain.beforeStages 0 c)) ∨
    failure? (chain.beforeStages 0 c) = none ∧
      ∃ more, entered (chain.stages c query) = chain.beforeStages 0 c ++
          queryStage (query (chain.prepared c)) (chain.prepared c) :: more ∧
        ∀ s ∈ more, s ∈ chain.afterStages 0 (chain.prepared c)
          (foundRows (query (chain.prepared c))) := by
  rw [stages]
  cases hbefore : failure? (chain.beforeStages 0 c) with
  | some error => exact .inl ⟨⟨error, rfl⟩, entered_append_of_some hbefore _⟩
  | none =>
    refine .inr ⟨rfl, ?_⟩
    rw [entered_append_of_none hbefore]
    cases hquery : (queryStage (query (chain.prepared c)) (chain.prepared c)).error with
    | some error =>
      refine ⟨[], ?_, List.forall_mem_nil _⟩
      rw [entered_cons_of_some hquery]
    | none =>
      refine ⟨entered (chain.afterStages 0 (chain.prepared c) (foundRows (query (chain.prepared c)))),
        ?_, fun _ => mem_of_mem_entered⟩
      rw [entered_cons_of_none hquery]

/-- What a run keeps to, whatever its hooks do. -/
structure Protocol (chain : Chain α) (c : Criteria) (query : Criteria → Logged (List α))
    (r : Run α) : Prop where
  length : (chain.stages c query).length = 2 * chain.length + 1
  /-- The stages are entered in order, up to the first that fails, or all of them. -/
  ended : (∃ done failed rest error, chain.stages c query = done ++ failed :: rest ∧
      (∀ s ∈ done, s.error = none) ∧ failed.error = some error ∧
      r.visits = (done ++ [failed]).map (·.visit) ∧ r.outcome = .error error) ∨
    ∃ items, (query (chain.prepared c)).outcome = .ok items ∧
      (∀ s ∈ chain.stages c query, s.error = none) ∧
      r.visits = (chain.stages c query).map (·.visit) ∧
      r.outcome = .ok (chain.finished (chain.prepared c) ⟨items, none, .empty⟩)
  isOk_iff : (∃ l, r.outcome = .ok l) ↔ ∀ s ∈ chain.stages c query, s.error = none
  handed : ∀ v ∈ r.visits, v.isBefore = false → v.criteria = chain.prepared c
  /-- The criteria are left as the hooks that were entered make them. -/
  left : r.criteria = prepared (chain.take (r.visits.countP Visit.isBefore)) c

theorem handed_of_mem_stages {s : Stage α} (h : s ∈ chain.stages c query)
    (hlater : s.visit.isBefore = false) : s.visit.criteria = chain.prepared c := by
  obtain hbefore | hafter := List.mem_append.1 h
  · simp [isBefore_of_mem_beforeStages hbefore] at hlater
  · obtain rfl | hafter := List.mem_cons.1 hafter
    · rfl
    · exact (isAfter_of_mem_afterStages hafter).2.1

/-- As many hooks before the query are entered as have a stage of their own that is. -/
theorem countP_isBefore (chain : Chain α) (c : Criteria) (query : Criteria → Logged (List α)) :
    ((entered (chain.stages c query)).map (·.visit)).countP Visit.isBefore =
      (entered (chain.beforeStages 0 c)).length := by
  rw [List.countP_map]
  obtain ⟨-, hentered⟩ | ⟨hbefore, more, hentered, hmore⟩ := chain.entered_stages c query
  · rw [hentered, List.countP_eq_length]
    intro s hs
    exact (isBefore_of_mem_beforeStages (mem_of_mem_entered hs)).1
  · have hfirst : (chain.beforeStages 0 c).countP (Visit.isBefore ∘ Stage.visit) =
        (chain.beforeStages 0 c).length :=
      List.countP_eq_length.2 fun s hs => (isBefore_of_mem_beforeStages hs).1
    have hlast : more.countP (Visit.isBefore ∘ Stage.visit) = 0 :=
      List.countP_eq_zero.2 fun s hs => by simp [isAfter_of_mem_afterStages (hmore s hs)]
    rw [hentered, entered_of_none hbefore, List.countP_append, List.countP_cons_of_neg, hlast]
    · exact hfirst
    · simp [queryStage, Visit.isBefore]

/-- A run calls what its query calls, if it comes to the query. -/
theorem calls_run (chain : Chain α) (c : Criteria) (query : Criteria → Logged (List α)) :
    (chain.run c query).calls =
      if failure? (chain.beforeStages 0 c) = none then (query (chain.prepared c)).calls else [] := by
  rw [Run.calls, run_eq, List.flatMap_map]
  obtain ⟨⟨error, hbefore⟩, hentered⟩ | ⟨hbefore, more, hentered, hmore⟩ :=
    chain.entered_stages c query
  · rw [hentered, hbefore, if_neg (by simp), List.flatMap_eq_nil_iff]
    intro s hs
    exact (isBefore_of_mem_beforeStages (mem_of_mem_entered hs)).2
  · have hfirst : (chain.beforeStages 0 c).flatMap (fun s => s.visit.calls) = [] :=
      List.flatMap_eq_nil_iff.2 fun s hs => (isBefore_of_mem_beforeStages hs).2
    have hlast : more.flatMap (fun s => s.visit.calls) = [] :=
      List.flatMap_eq_nil_iff.2 fun s hs => (isAfter_of_mem_afterStages (hmore s hs)).2.2
    rw [hentered, hbefore, if_pos rfl, List.flatMap_append, List.flatMap_cons, hfirst, hlast,
      List.nil_append, List.append_nil]
    rfl

theorem run_protocol (chain : Chain α) (c : Criteria) (query : Criteria → Logged (List α)) :
    chain.Protocol c query (chain.run c query) := by
  rw [run_eq]
  constructor
  case length =>
    simp [stages]
    omega
  case ended =>
    cases hfailure : failure? (chain.stages c query) with
    | some error =>
      obtain ⟨done, failed, rest, hstages, hdone, hfailed, hentered⟩ := entered_of_some hfailure
      exact .inl ⟨done, failed, rest, error, hstages, hdone, hfailed, by rw [hentered], rfl⟩
    | none =>
      have hall := failure?_eq_none.1 hfailure
      have hquery := hall (queryStage (query (chain.prepared c)) (chain.prepared c))
        (List.mem_append_right _ (List.mem_cons_self ..))
      cases hfound : (query (chain.prepared c)).outcome with
      | error error => simp [queryStage, hfound] at hquery
      | ok items =>
        refine .inr ⟨items, rfl, hall, by rw [entered_of_none hfailure], ?_⟩
        rw [foundRows, hfound]
        rfl
  case isOk_iff =>
    rw [← failure?_eq_none]
    cases failure? (chain.stages c query) <;> simp
  case handed =>
    intro v hv
    obtain ⟨s, hs, rfl⟩ := List.mem_map.1 hv
    exact handed_of_mem_stages (mem_of_mem_entered hs)
  case left => rw [countP_isBefore]

/-- Whatever its hooks do, a run enters its stages in their order up to the first that fails. The error
is that one's; if there is none, the rows of the query have gone through every hook after it, and the
query and all of these were handed the criteria that the hooks before it leave. A store is called once at
the most. -/
theorem run_in_order (chain : Chain α) (c : Criteria) :
    (∀ query, chain.Protocol c query (chain.run c query)) ∧
      ∀ (db : Database α) (d : Definition), (db.run d chain c).calls.length ≤ 1 ∧
        ((db.run d chain c).calls.length = 1 ↔ (∀ s ∈ chain.beforeStages 0 c, s.error = none) ∧
          ∃ s st, (d.prepare (chain.prepared c)).outcome = .ok s ∧
            s.compile (chain.prepared c) = .ok st) := by
  refine ⟨chain.run_protocol c, fun db d => ?_⟩
  have hcompiles : (∃ s st, (d.prepare (chain.prepared c)).outcome = .ok s ∧
      s.compile (chain.prepared c) = .ok st) ↔
        ∃ st, (d.compile (chain.prepared c)).outcome = .ok st := by
    simp only [Definition.compile_eq_ok]
    exact exists_comm
  rw [hcompiles, Database.run, calls_run, ← failure?_eq_none]
  cases h : (d.compile (chain.prepared c)).outcome with
  | ok st =>
    rw [(Database.sent_of_compile db h).calls]
    split <;> simp_all
  | error error =>
    have hcalls : (db.executeQuery d (chain.prepared c)).calls = [] := by
      obtain ⟨-, hunsent⟩ | ⟨-, -, -, -, -, hunsent⟩ := Database.unsent_of_compile db h
      · exact hunsent.calls
      · exact hunsent.calls
    rw [hcalls]
    simp

/-- The second hook fails: the query is not entered, and the criteria stay as the first one makes
them. -/
example :
    let first : Layer Bool := .onCriteria fun c => .done (c.sortBy "id" .ascending)
    let second : Layer Bool := .onCriteria fun c => .stopped c (.store "down")
    let r := run [first, second] .default fun _ => .ofExcept (.ok [true])
    r.visits.length = 2 ∧ r.criteria.sort = [⟨"id", .ascending⟩] ∧
      r.outcome = .error (.store "down") :=
  ⟨rfl, rfl, rfl⟩

end Chain
end NamedQuery
