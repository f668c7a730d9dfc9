import NamedQuery.Pager
import NamedQuery.Proofs.Chain
import NamedQuery.Proofs.Database
import NamedQuery.Proofs.Except

namespace NamedQuery

open Sql (Select Statement)

variable {ρ α : Type} {read : ρ → Except Error α}

/-- A listing is mapped to one whose rows are read one by one, and which keeps all else. -/
theorem Listing.tryMap_eq_ok {l : Listing ρ} {l' : Listing α} : l.tryMap read = .ok l' ↔
    List.Forall₂ (fun row item => read row = .ok item) l.items l'.items ∧
      l.page = l'.page ∧ l.extras = l'.extras := by
  obtain ⟨items, page, extras⟩ := l'
  rw [tryMap, except_map_eq_ok, ← mapM_eq_ok]
  constructor
  · rintro ⟨items, hitems, ⟨⟩⟩
    exact ⟨hitems, rfl, rfl⟩
  · rintro ⟨hitems, rfl, rfl⟩
    exact ⟨items, hitems, rfl⟩

/-- Cutting a page off looks at the number of the rows alone. -/
theorem Pager.tryMap_trim {l : Listing ρ} {l' : Listing α} (h : l.tryMap read = .ok l')
    (c : Criteria) : (trim c l).tryMap read = .ok (trim c l') := by
  obtain ⟨hitems, hpage, hextras⟩ := Listing.tryMap_eq_ok.1 h
  simp only [trim]
  split
  · split
    · exact h
    · refine Listing.tryMap_eq_ok.2 ⟨?_, ?_, hextras⟩
      · simp only [hitems.length_eq]
        split
        · exact List.forall₂_take _ hitems
        · exact hitems
      · simp only [hitems.length_eq]
  · exact h

/-- A layer that leaves the rows themselves alone, and so fits rows of any type. -/
inductive Step where
  | edit (before : Criteria → Edited Criteria)
  | pages (pager : Pager)

namespace Step

def layer (α : Type) : Step → Layer α
  | edit before => .onCriteria before
  | pages pager => pager.layer α

/-- The same layers for rows of some type. -/
def chain (steps : List Step) (α : Type) : Chain α :=
  steps.map (layer α)

theorem chain_cons (s : Step) (rest : List Step) (α : Type) :
    chain (s :: rest) α = s.layer α :: chain rest α := rfl

theorem before_layer (s : Step) : (s.layer ρ).before = (s.layer α).before := by
  cases s <;> rfl

theorem after_layer (s : Step) (c : Criteria) {l : Listing ρ} {l' : Listing α}
    (h : l.tryMap read = .ok l') : ∃ m m', (s.layer ρ).after c l = .done m ∧
      (s.layer α).after c l' = .done m' ∧ m.tryMap read = .ok m' := by
  cases s with
  | edit => exact ⟨l, l', rfl, rfl, h⟩
  | pages => exact ⟨_, _, rfl, rfl, Pager.tryMap_trim h c⟩

/-- The hooks before the query do not see what rows are like. -/
theorem before_chain (steps : List Step) (position : Nat) (c : Criteria) :
    ((chain steps ρ).before position c).2 = ((chain steps α).before position c).2 := by
  induction steps generalizing position c with
  | nil => rfl
  | cons s rest ih =>
    have hbefore : (s.layer ρ).before c = (s.layer α).before c := congrFun s.before_layer c
    rw [chain_cons, chain_cons]
    cases h : ((s.layer α).before c).error with
    | some error =>
      rw [Chain.before_cons_of_some h, Chain.before_cons_of_some (hbefore ▸ h), hbefore]
    | none =>
      rw [Chain.before_cons_of_none h, Chain.before_cons_of_none (hbefore ▸ h), hbefore, ih]

/-- The hooks after the query do not fail, and rows that have been read before them are those that are
read behind them. -/
theorem after_chain (steps : List Step) (position : Nat) (c : Criteria) {l : Listing ρ}
    {l' : Listing α} (h : l.tryMap read = .ok l') :
    ∃ m m', ((chain steps ρ).after position c l).2 = .ok m ∧
      ((chain steps α).after position c l').2 = .ok m' ∧ m.tryMap read = .ok m' := by
  induction steps generalizing position l l' with
  | nil => exact ⟨l, l', rfl, rfl, h⟩
  | cons s rest ih =>
    obtain ⟨m, m', hm, hm', hread⟩ := s.after_layer c h
    rw [chain_cons, chain_cons, Chain.after_cons_of_none (congrArg Edited.error hm),
      Chain.after_cons_of_none (congrArg Edited.error hm'), hm, hm']
    exact ih (position + 1) hread

theorem exists_after_eq_ok (steps : List Step) (position : Nat) (c : Criteria) (l : Listing ρ) :
    ∃ m, ((chain steps ρ).after position c l).2 = .ok m := by
  have hread : l.tryMap .ok = .ok l :=
    Listing.tryMap_eq_ok.2 ⟨List.forall₂_same.2 fun _ _ => rfl, rfl, rfl⟩
  obtain ⟨m, -, hm, -⟩ := after_chain steps position c hread
  exact ⟨m, hm⟩

end Step

def Visit.isAfter : Visit α → Bool
  | after .. => true
  | _ => false

namespace Chain

/-- The rows that a run finds, or the failure in their place: of a hook before the query, or of the query
itself, from its preparation to its store. -/
def found {β : Type} (chain : Chain α) (c : Criteria) (query : Criteria → Logged (List β)) :
    Except Error (List β) :=
  (chain.before 0 c).2.toExcept >>= fun c => (query c).outcome

variable {chain : Chain α} {c : Criteria} {query : Criteria → Logged (List α)}

theorem isAfter_of_mem_before {position : Nat} {v : Visit α}
    (h : v ∈ (chain.before position c).1) : v.isAfter = false := by
  rw [before_eq] at h
  obtain ⟨s, hs, rfl⟩ := List.mem_map.1 h
  obtain ⟨i, -, rfl⟩ := List.mem_mapIdx.1 (Stage.mem_of_mem_entered hs)
  rfl

theorem run_of_error {error : Error} (h : chain.found c query = .error error) :
    (chain.run c query).outcome = .error error ∧
      ∀ v ∈ (chain.run c query).visits, v.isAfter = false := by
  have hvisits : ∀ v ∈ (chain.before 0 c).1, v.isAfter = false := fun _ => isAfter_of_mem_before
  rw [found] at h
  rw [run]
  revert h hvisits
  obtain ⟨visits, c', failed⟩ := chain.before 0 c
  cases failed with
  | some failed =>
    rintro ⟨⟩ hvisits
    exact ⟨rfl, hvisits⟩
  | none =>
    intro h hvisits
    have hquery : (query c').outcome = .error error := h
    simp only [hquery, List.mem_append, List.mem_singleton]
    refine ⟨trivial, ?_⟩
    rintro v (hv | rfl)
    · exact hvisits v hv
    · rfl

theorem run_of_ok {items : List α} (h : chain.found c query = .ok items) :
    (chain.run c query).outcome =
      (chain.after 0 (chain.before 0 c).2.value (.ofItems items)).2 := by
  rw [found] at h
  rw [run]
  revert h
  obtain ⟨visits, c', failed⟩ := chain.before 0 c
  cases failed with
  | some failed =>
    rintro ⟨⟩
  | none =>
    intro h
    have hquery : (query c').outcome = .ok items := h
    simp only [hquery]

end Chain

namespace Database

/-- What asking for rows comes to. The hooks before the query may stop it; else the definition is compiled
for the criteria that they leave, and the store answers the statement. -/
inductive Answer (db : Database ρ) (d : Definition) (chain : Chain ρ) (c : Criteria) :
    Except Error (List ρ) → Prop
  | stopped {error : Error} (hooks : (chain.before 0 c).2.toExcept = .error error) :
    Answer db d chain c (.error error)
  | uncompiled {left : Criteria} {error : Error} (hooks : (chain.before 0 c).2.toExcept = .ok left)
    (attached : ∀ s, (d.prepare left).outcome = .ok s → s.hasTable = true)
    (compiled : (d.compile left).outcome = .error error) : Answer db d chain c (.error error)
  | unattached {left : Criteria} {s : Select} (hooks : (chain.before 0 c).2.toExcept = .ok left)
    (prepared : (d.prepare left).outcome = .ok s) (noTable : s.hasTable = false) :
    Answer db d chain c (.error (.config (.noSourceAttached d.name)))
  | sent {left : Criteria} {st : Statement} (hooks : (chain.before 0 c).2.toExcept = .ok left)
    (compiled : (d.compile left).outcome = .ok st) :
    Answer db d chain c (db.store st.sql st.params)

theorem answer_found (db : Database ρ) (d : Definition) (chain : Chain ρ) (c : Criteria) :
    db.Answer d chain c (chain.found c (db.executeQuery d)) := by
  rw [Chain.found]
  cases hooks : (chain.before 0 c).2.toExcept with
  | error error => exact .stopped hooks
  | ok left =>
    change db.Answer d chain c (db.executeQuery d left).outcome
    cases compiled : (d.compile left).outcome with
    | ok st =>
      rw [(sent_of_compile db compiled).outcome]
      exact .sent hooks compiled
    | error error =>
      obtain ⟨attached, unsent⟩ | ⟨s, fault, prepared, noTable, -, unsent⟩ :=
        unsent_of_compile db compiled
      · rw [unsent.outcome]
        exact .uncompiled hooks attached compiled
      · rw [unsent.outcome]
        exact .unattached hooks prepared noTable

/-- How a fetch goes, beside a run that finds the same rows or fails to find any. -/
structure Agreement (read : ρ → Except Error α) (found : Except Error (List ρ)) (run : Run ρ)
    (fetched : Run α) : Prop where
  /-- What fails before there are rows fails both alike. -/
  failed : ∀ error, found = .error error →
    run.outcome = .error error ∧ fetched.outcome = .error error
  /-- If all rows can be read, a fetch gives what the run gives, with its rows read. -/
  mapped : ∀ rows, found = .ok rows → (∀ row ∈ rows, ∃ item, read row = .ok item) →
    ∃ l, run.outcome = .ok l ∧ fetched.outcome = l.tryMap read ∧ ∃ l', l.tryMap read = .ok l'
  /-- The first row that cannot be read fails the fetch before the hooks behind the query, even where
  these would drop the row. The run does not mind. -/
  unread : ∀ done row rest error, found = .ok (done ++ row :: rest) →
    (∀ row ∈ done, ∃ item, read row = .ok item) → read row = .error error →
    (∃ l, run.outcome = .ok l) ∧ fetched.outcome = .error error ∧
      ∀ v ∈ fetched.visits, v.isAfter = false

theorem found_fetch (db : Database ρ) (d : Definition) (read : ρ → Except Error α)
    (steps : List Step) (c : Criteria) : ((Step.chain steps α).found c fun c => do
      let rows ← db.executeQuery d c
      Logged.ofExcept (rows.mapM read)) =
        (Step.chain steps ρ).found c (db.executeQuery d) >>= (·.mapM read) := by
  rw [Chain.found, Chain.found, bind_assoc, Step.before_chain (α := ρ)]
  simp only [Logged.outcome_bind, Logged.outcome_ofExcept]

/-- Reading the rows of a run comes to the same as reading them before the hooks behind the query, as
long as these cut pages and do nothing else. The rows are what the store gives for the compiled
statement. -/
theorem fetch_maps_run (db : Database ρ) (d : Definition) (read : ρ → Except Error α)
    (steps : List Step) (c : Criteria) :
    db.Answer d (Step.chain steps ρ) c ((Step.chain steps ρ).found c (db.executeQuery d)) ∧
    Agreement read ((Step.chain steps ρ).found c (db.executeQuery d))
      (db.run d (Step.chain steps ρ) c) (db.fetch d read (Step.chain steps α) c) := by
  have hfetch := found_fetch db d read steps c
  refine ⟨db.answer_found d (Step.chain steps ρ) c, ?_⟩
  constructor
  case failed =>
    intro error h
    have hfailed := hfetch.trans (except_bind_eq_error.2 (.inl h))
    exact ⟨(Chain.run_of_error h).1, (Chain.run_of_error hfailed).1⟩
  case mapped =>
    intro rows h hrows
    obtain ⟨items, hitems⟩ := exists_mapM_eq_ok hrows
    have hfound := hfetch.trans (except_bind_eq_ok.2 ⟨rows, h, hitems⟩)
    have hstart : (Listing.ofItems rows).tryMap read = .ok (.ofItems items) :=
      except_map_eq_ok.2 ⟨items, hitems, rfl⟩
    obtain ⟨l, l', hl, hl', hmapped⟩ :=
      Step.after_chain steps 0 ((Step.chain steps ρ).before 0 c).2.value hstart
    rw [Step.before_chain (α := α)] at hl'
    refine ⟨l, (Chain.run_of_ok h).trans hl, ?_, l', hmapped⟩
    exact ((Chain.run_of_ok hfound).trans hl').trans hmapped.symm
  case unread =>
    intro done row rest error h hdone hrow
    have hmap : (done ++ row :: rest).mapM read = .error error :=
      mapM_eq_error.2 ⟨done, row, rest, rfl, hdone, hrow⟩
    have hfound := hfetch.trans (except_bind_eq_error.2 (.inr ⟨_, h, hmap⟩))
    obtain ⟨l, hl⟩ := Step.exists_after_eq_ok steps 0 ((Step.chain steps ρ).before 0 c).2.value
      (.ofItems (done ++ row :: rest))
    exact ⟨⟨l, (Chain.run_of_ok h).trans hl⟩, Chain.run_of_error hfound⟩

/-- A row beyond the page that cannot be read fails the fetch, and is cut off in the run. -/
example :
    let db : Database Nat := ⟨fun _ _ => .ok [1, 0], .default⟩
    let d : Definition := ⟨"ids", (·.addTable "ids" ""), .empty, .ignore⟩
    let read (n : Nat) : Except Error Nat :=
      if n = 0 then .error (.decode "<row>" "zero") else .ok n
    let steps := [Step.pages (.ofRows 1)]
    (db.run d (Step.chain steps Nat) .default).outcome =
      .ok ⟨[1], some ⟨1, 1, true⟩, .empty⟩ ∧
    (db.fetch d read (Step.chain steps Nat) .default).outcome = .error (.decode "<row>" "zero") :=
  ⟨rfl, rfl⟩

end Database
end NamedQuery
