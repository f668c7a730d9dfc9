import NamedQuery.Proofs.Pager
import NamedQuery.Proofs.Sql.Window

namespace NamedQuery.Pager

open Sql (Select)

variable {α : Type}

theorem toInt_pageAsked (c : Criteria) :
    (pageAsked c).toInt = max (c.page.elim 1 Int64.toInt) 1 := by
  rw [pageAsked, toInt_max]
  cases c.page <;> rfl

theorem toInt_rowsAsked (p : Pager) (c : Criteria) :
    (p.rowsAsked c).toInt = max (c.rows.elim p.defaultRows.toInt Int64.toInt) 1 := by
  rw [rowsAsked, toInt_max]
  cases c.rows <;> rfl

theorem unpaged_iff {c : Criteria} : unpaged c = true ↔ c.noPagination = true ∨ c.take = some 1 := by
  simp [unpaged]

theorem resize_of_unpaged (p : Pager) {c : Criteria} (h : unpaged c = true) : p.resize c = c :=
  if_pos h

theorem trim_of_unpaged {c : Criteria} (h : unpaged c = true) (l : Listing α) : trim c l = l := by
  simp only [trim, h, Bool.true_or, if_pos]
  split <;> rfl

/-- Criteria that a pager has resized ask for the same page of every other. -/
theorem resize_resize (p q : Pager) (c : Criteria) : q.resize (p.resize c) = p.resize c := by
  cases h : unpaged c with
  | true => rw [p.resize_of_unpaged h, q.resize_of_unpaged h]
  | false =>
    rw [q.resize_of_paged (p.unpaged_resize h), p.resize_of_paged h]
    simp only [pageAsked, rowsAsked, Option.getD_some, max_one_eq (one_le_max_one _)]

theorem toNatClampNeg_sub_one {n : Int64} (h : 2 ≤ n.toInt) :
    n.toNatClampNeg - 1 = (n.toInt - 1).toNat := by
  rw [Int64.toNatClampNeg]
  omega

/-- What a pager makes of criteria that do not forbid it: which page they ask for, and the window on the
rows with one row more than the page holds. A number below one stands for one, and one that no word holds
for the largest word. -/
structure Paged (p : Pager) (c paged : Criteria) (page rows take skip : Int64) : Prop where
  /-- Filters and order stay. -/
  criteria_eq : paged = { c with
    page := some page, rows := some rows, take := some take, skip := some skip }
  toInt_page : page.toInt = max (c.page.elim 1 Int64.toInt) 1
  toInt_rows : rows.toInt = max (c.rows.elim p.defaultRows.toInt Int64.toInt) 1
  toInt_take : take.toInt = min (rows.toInt + 1) (2 ^ 63 - 1)
  toInt_skip : skip.toInt = min ((page.toInt - 1) * rows.toInt) (2 ^ 63 - 1)
  two_le_take : 2 ≤ take.toInt
  skip_nonneg : 0 ≤ skip.toInt
  /-- Every pager leaves these criteria as they are. -/
  before_eq (q : Pager) (α : Type) : (q.layer α).before paged = .done paged
  /-- Every pager cuts the same page from the rows found with them. -/
  after_eq (q : Pager) (α : Type) (l : Listing α) : (q.layer α).after paged l = .done
    { l with
      items := l.items.take (take.toInt - 1).toNat
      page := some ⟨page, rows, decide (take.toInt ≤ l.items.length)⟩ }
  /-- The window stands behind all else of a statement, in place of the one it has, and is never what
  keeps it from being compiled. -/
  compile_eq (s : Select) : s.compile paged =
    (s.unwindowed.compile paged.unwindowed).map (·.windowed take skip)

theorem paged_resize (p : Pager) {c : Criteria} (h : unpaged c = false) :
    p.Paged c (p.resize c) (pageAsked c) (p.rowsAsked c) (lookAhead (p.rowsAsked c))
      (rowsBefore (pageAsked c) (p.rowsAsked c)) := by
  have hpage := one_le_pageAsked c
  have hrows := p.one_le_rowsAsked c
  have htake := two_le_lookAhead hrows
  have heq := p.resize_of_paged h
  constructor
  case criteria_eq => exact heq
  case toInt_page => exact toInt_pageAsked c
  case toInt_rows => exact p.toInt_rowsAsked c
  case toInt_take => exact toInt_lookAhead hrows
  case toInt_skip => exact toInt_rowsBefore hpage hrows
  case two_le_take => exact htake
  case skip_nonneg => exact rowsBefore_nonneg hpage hrows
  case before_eq =>
    intro q α
    exact congrArg Edited.done (p.resize_resize q c)
  case after_eq =>
    intro q α l
    have hcount : (lookAhead (p.rowsAsked c)).toNatClampNeg ≤ l.items.length ↔
        (lookAhead (p.rowsAsked c)).toInt ≤ l.items.length := by
      rw [Int64.toNatClampNeg]
      omega
    refine congrArg Edited.done ?_
    rw [p.trim_resize h, toNatClampNeg_sub_one htake]
    simp only [hcount]
  case compile_eq =>
    intro s
    rw [heq]
    exact s.compile_windowed rfl rfl (zero_le_lookAhead hrows) (zero_le_rowsBefore hpage hrows)

/-- A pager leaves criteria alone that want no pages or a single row, and their rows. All others it
brings to a page, whatever numbers they hold. -/
theorem layer_normalizes (p : Pager) (c : Criteria) :
    (c.noPagination = true ∨ c.take = some 1 → ∀ α : Type, (p.layer α).before c = .done c ∧
      ∀ l, (p.layer α).after c l = .done l) ∧
    (¬ (c.noPagination = true ∨ c.take = some 1) → ∃ paged page rows take skip,
      p.Paged c paged page rows take skip ∧ ∀ α : Type, (p.layer α).before c = .done paged) := by
  rw [← unpaged_iff]
  refine ⟨fun h α => ⟨?_, fun l => ?_⟩, fun h => ?_⟩
  · exact congrArg Edited.done (p.resize_of_unpaged h)
  · exact congrArg Edited.done (trim_of_unpaged h l)
  · exact ⟨_, _, _, _, _, p.paged_resize (Bool.eq_false_iff.2 h), fun _ => rfl⟩

/-- A page beyond all others, in a window that lies before the first row. -/
def farPage : Criteria :=
  { Criteria.default with
    take := some .minValue, skip := some .minValue, page := some .maxValue, rows := some .maxValue }

theorem farPage_normalized : ¬ (farPage.noPagination = true ∨ farPage.take = some 1) ∧
    (∃ paged, default.Paged farPage paged .maxValue .maxValue .maxValue .maxValue ∧
      Sql.negativeLimit.compile paged = .ok
        ⟨"SELECT i.* FROM shop.\"Order Items\" i WHERE TRUE" ++
          " LIMIT 9223372036854775807 OFFSET 9223372036854775807", #[]⟩) ∧
    ((default.layer Nat).before { farPage with take := some 1 } =
        .done { farPage with take := some 1 } ∧
      ∀ l, (default.layer Nat).after { farPage with take := some 1 } l = .done l) := by
  have hpaged : ¬ (farPage.noPagination = true ∨ farPage.take = some 1) := by decide
  obtain ⟨paged, page, rows, take, skip, h, -⟩ := (default.layer_normalizes farPage).2 hpaged
  obtain rfl : page = .maxValue := Int64.toInt_inj.1 h.toInt_page
  obtain rfl : rows = .maxValue := Int64.toInt_inj.1 h.toInt_rows
  obtain rfl : take = .maxValue := Int64.toInt_inj.1 h.toInt_take
  obtain rfl : skip = .maxValue := Int64.toInt_inj.1 h.toInt_skip
  refine ⟨hpaged, ⟨paged, h, ?_⟩, (default.layer_normalizes _).1 (.inr rfl) Nat⟩
  rw [h.criteria_eq]
  rfl

end NamedQuery.Pager
