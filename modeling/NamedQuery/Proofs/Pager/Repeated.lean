import NamedQuery.Proofs.Pager.Normal
import NamedQuery.Proofs.Service

namespace NamedQuery

variable {α : Type}

/-- The same rows, and no page behind them. -/
def Listing.closed (l : Listing α) : Listing α :=
  { l with page := l.page.map fun page => { page with hasNext := false } }

theorem Listing.closed_ne_self {l : Listing α} : l.closed ≠ l ↔ l.hasNext = true := by
  obtain ⟨items, _ | ⟨current, rows, hasNext⟩, extras⟩ := l
  · simp [closed, Listing.hasNext]
  · cases hasNext <;> simp [closed, Listing.hasNext]

theorem Chain.criteria_run (chain : Chain α) (c : Criteria) (query : Criteria → Logged (List α)) :
    (chain.run c query).criteria = (chain.before 0 c).2.value := by
  rw [run]
  obtain ⟨visits, c', _ | error⟩ := chain.before 0 c
  · cases hquery : (query c').outcome <;> simp only [hquery]
  · rfl

namespace Pager

/-- Pagers that are called one after the other. -/
def chain (pagers : List Pager) (α : Type) : Chain α :=
  pagers.map (·.layer α)

theorem trim_of_short (p : Pager) {c : Criteria} (h : unpaged c = false) {l : Listing α}
    (hshort : l.items.length < (lookAhead (p.rowsAsked c)).toNatClampNeg) :
    trim (p.resize c) l = { l with page := some ⟨pageAsked c, p.rowsAsked c, false⟩ } := by
  rw [p.trim_resize h, List.take_of_length_le (Nat.le_sub_one_of_lt hshort),
    decide_eq_false (Nat.not_le.2 hshort)]

theorem length_items_trim (p : Pager) {c : Criteria} (h : unpaged c = false) (l : Listing α) :
    (trim (p.resize c) l).items.length < (lookAhead (p.rowsAsked c)).toNatClampNeg := by
  have hsome := two_le_lookAhead (p.one_le_rowsAsked c)
  rw [p.trim_resize h, List.length_take, Int64.toNatClampNeg]
  omega

/-- The row that tells of a page behind is gone when the rows are trimmed again. -/
theorem trim_trim (p : Pager) (c : Criteria) {l : Listing α} (hl : l.page = none) :
    trim (p.resize c) (trim (p.resize c) l) = (trim (p.resize c) l).closed := by
  cases h : unpaged c with
  | true =>
    rw [p.resize_of_unpaged h, trim_of_unpaged h, trim_of_unpaged h, Listing.closed, hl]
    exact congrArg (Listing.mk l.items · l.extras) hl
  | false =>
    rw [p.trim_of_short h (p.length_items_trim h l), p.trim_resize h]
    rfl

theorem trim_closed (p : Pager) (c : Criteria) (l : Listing α) :
    trim (p.resize c) (trim (p.resize c) l).closed = (trim (p.resize c) l).closed := by
  cases h : unpaged c with
  | true => rw [p.resize_of_unpaged h, trim_of_unpaged h]
  | false =>
    have hshort : (trim (p.resize c) l).closed.items.length < _ := p.length_items_trim h l
    rw [p.trim_of_short h hshort, p.trim_resize h]
    rfl

theorem hasNext_trim (p : Pager) (c : Criteria) (found : List α) :
    (trim (p.resize c) (.ofItems found)).hasNext = true ↔ unpaged c = false ∧
      ∃ take, (p.resize c).take = some take ∧ take.toNatClampNeg ≤ found.length := by
  cases h : unpaged c with
  | true =>
    rw [p.resize_of_unpaged h, trim_of_unpaged h]
    simp [Listing.hasNext, Listing.ofItems]
  | false =>
    have htake : (p.resize c).take = some (lookAhead (p.rowsAsked c)) := by
      rw [p.resize_of_paged h]
    simp only [p.trim_resize h, htake, Listing.hasNext, Listing.ofItems, Option.any_some,
      decide_eq_true_iff, true_and, Option.some.injEq, exists_eq_left']

theorem before_cons (q : Pager) (rest : List Pager) (position : Nat) (c : Criteria) :
    ((chain (q :: rest) α).before position c).2 =
      ((chain rest α).before (position + 1) (q.resize c)).2 := by
  rw [chain, List.map_cons, Chain.before_cons_of_none rfl]
  rfl

theorem after_cons (q : Pager) (rest : List Pager) (position : Nat) (c : Criteria)
    (l : Listing α) : ((chain (q :: rest) α).after position c l).2 =
      ((chain rest α).after (position + 1) c (trim c l)).2 := by
  rw [chain, List.map_cons, Chain.after_cons_of_none rfl]
  rfl

theorem before_resized (p : Pager) (c : Criteria) (rest : List Pager) (position : Nat) :
    ((chain rest α).before position (p.resize c)).2 = .done (p.resize c) := by
  induction rest generalizing position with
  | nil => rfl
  | cons q rest ih =>
    rw [before_cons, p.resize_resize]
    exact ih (position + 1)

/-- Only the first of several pagers has a say in what the query is handed. -/
theorem before_chain (p : Pager) (rest : List Pager) (position : Nat) (c : Criteria) :
    ((chain (p :: rest) α).before position c).2 = .done (p.resize c) := by
  rw [before_cons]
  exact p.before_resized c rest (position + 1)

theorem after_of_trimmed {c : Criteria} {l : Listing α} (h : trim c l = l) (rest : List Pager)
    (position : Nat) : ((chain rest α).after position c l).2 = .ok l := by
  induction rest generalizing position with
  | nil => rfl
  | cons q rest ih =>
    rw [after_cons, h]
    exact ih (position + 1)

/-- Every pager after the first keeps the rows, and denies that a page follows. -/
theorem after_chain (p : Pager) (rest : List Pager) (position : Nat) (c : Criteria)
    {l : Listing α} (hl : l.page = none) :
    ((chain (p :: rest) α).after position (p.resize c) l).2 =
      .ok (if rest = [] then trim (p.resize c) l else (trim (p.resize c) l).closed) := by
  rw [after_cons]
  cases rest with
  | nil => rfl
  | cons q rest =>
    -- the second trimming is the last one that changes anything
    rw [after_cons, p.trim_trim c hl]
    exact after_of_trimmed (p.trim_closed c l) rest (position + 1 + 1)

theorem found_chain (p : Pager) (rest : List Pager) (c : Criteria)
    (query : Criteria → Logged (List α)) :
    (chain (p :: rest) α).found c query = (query (p.resize c)).outcome := by
  rw [Chain.found, p.before_chain]
  rfl

theorem outcome_chain (p : Pager) (rest : List Pager) (c : Criteria)
    (query : Criteria → Logged (List α)) :
    ((chain (p :: rest) α).run c query).outcome = (query (p.resize c)).outcome.map fun found =>
      if rest = [] then trim (p.resize c) (.ofItems found)
      else (trim (p.resize c) (.ofItems found)).closed := by
  have hfound := p.found_chain rest c query
  cases hquery : (query (p.resize c)).outcome with
  | error error => exact (Chain.run_of_error (hfound.trans hquery)).1
  | ok found =>
    rw [Chain.run_of_ok (hfound.trans hquery), p.before_chain]
    exact p.after_chain rest 0 c rfl

/-- More pagers than one ask the query for the same rows as the first alone and keep the same of them,
but deny that a page follows. So they answer otherwise where the first has found all rows that it asked
for. -/
theorem run_repeated (p : Pager) (rest : List Pager) (c : Criteria)
    (query : Criteria → Logged (List α)) :
    let first := (chain [p] α).run c query
    let run := (chain (p :: rest) α).run c query
    first.criteria = p.resize c ∧ run.criteria = p.resize c ∧
    run.outcome = (if rest = [] then first.outcome else first.outcome.map Listing.closed) ∧
    (run.outcome ≠ first.outcome ↔ rest ≠ [] ∧ unpaged c = false ∧ ∃ found take,
      (query (p.resize c)).outcome = .ok found ∧ (p.resize c).take = some take ∧
        take.toNatClampNeg ≤ found.length) := by
  intro first run
  have hcriteria (pagers : List Pager) :
      ((chain (p :: pagers) α).run c query).criteria = p.resize c := by
    rw [Chain.criteria_run, p.before_chain]
    rfl
  refine ⟨hcriteria [], hcriteria rest, ?_⟩
  simp only [first, run, p.outcome_chain]
  cases hquery : (query (p.resize c)).outcome with
  | error error => simp [Except.map]
  | ok found =>
    have hclosed := Listing.closed_ne_self.trans (p.hasNext_trim c found)
    by_cases hrest : rest = []
    · simp [Except.map, hrest]
    · simpa [Except.map, hrest] using hclosed

def findThree (_ : Criteria) : Logged (List Nat) :=
  .ofExcept (.ok [10, 20, 30])

theorem second_denies_next :
    ((chain [ofRows 2] Nat).run .default findThree).outcome =
        .ok ⟨[10, 20], some ⟨1, 2, true⟩, .empty⟩ ∧
      ((chain [ofRows 2, ofRows 2] Nat).run .default findThree).outcome =
        .ok ⟨[10, 20], some ⟨1, 2, false⟩, .empty⟩ ∧
      ¬ ∀ (p : Pager) (rest : List Pager) (c : Criteria) (query : Criteria → Logged (List Nat)),
        ((chain (p :: rest) Nat).run c query).outcome = ((chain [p] Nat).run c query).outcome := by
  have hone : ((chain [ofRows 2] Nat).run .default findThree).outcome =
      .ok ⟨[10, 20], some ⟨1, 2, true⟩, .empty⟩ := rfl
  have htwo : ((chain [ofRows 2, ofRows 2] Nat).run .default findThree).outcome =
      .ok ⟨[10, 20], some ⟨1, 2, false⟩, .empty⟩ := rfl
  refine ⟨hone, htwo, fun hsame => ?_⟩
  have hequal := hsame (ofRows 2) [ofRows 2] .default findThree
  rw [hone, htwo] at hequal
  exact absurd hequal (by simp)

end Pager
end NamedQuery
