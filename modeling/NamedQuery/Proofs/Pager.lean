import NamedQuery.Chain
import NamedQuery.Pager
import Mathlib.Algebra.Order.Floor.Div
import Mathlib.Data.List.Basic

namespace NamedQuery

theorem toInt_clampInt64 (n : Int) :
    (clampInt64 n).toInt = max (-2 ^ 63) (min n (2 ^ 63 - 1)) := by
  rw [clampInt64, Int64.toInt_minValue, Int64.toInt_maxValue]
  exact Int64.toInt_ofInt_of_le (by omega) (by omega)

/-- The larger of two words is the larger number. -/
theorem toInt_max (a b : Int64) : (max a b).toInt = max a.toInt b.toInt := by
  have hmax : max a b = if a ≤ b then b else a := rfl
  rw [hmax]
  split
  next h =>
    have hle := Int64.le_iff_toInt_le.1 h
    omega
  next h =>
    have hlt : ¬ a.toInt ≤ b.toInt := fun hle => h (Int64.le_iff_toInt_le.2 hle)
    omega

theorem one_le_iff {n : Int64} : 1 ≤ n ↔ 1 ≤ n.toInt :=
  Int64.le_iff_toInt_le

theorem max_one_eq {n : Int64} (h : 1 ≤ n) : max n 1 = n := by
  rw [← Int64.toInt_inj, toInt_max]
  exact max_eq_left (one_le_iff.1 h)

theorem one_le_max_one (n : Int64) : 1 ≤ max n 1 := by
  rw [one_le_iff, toInt_max]
  exact le_max_right _ _

/-- A word of at least one is the word after some natural number. -/
theorem exists_succ {n : Int64} (h : 1 ≤ n) :
    ∃ m : Nat, n.toInt = m + 1 ∧ n.toNatClampNeg = m + 1 := by
  have hone := one_le_iff.1 h
  refine ⟨n.toInt.toNat - 1, ?_, ?_⟩
  · omega
  · rw [Int64.toNatClampNeg]
    omega

theorem toNat_add_one {n : Int64} (h : 1 ≤ n) (hlt : n.toNatClampNeg < 2 ^ 63 - 1) :
    1 ≤ n + 1 ∧ (n + 1).toNatClampNeg = n.toNatClampNeg + 1 := by
  obtain ⟨m, hint, hnat⟩ := exists_succ h
  have hsum : (n + 1).toInt = m + 2 := by
    have hone : (1 : Int64).toInt = 1 := rfl
    rw [Int64.toInt_add, hint, hone, Int.bmod_eq_of_le] <;> omega
  rw [one_le_iff, Int64.toNatClampNeg, hsum]
  omega

section
variable {α : Type}

/-- The rows that criteria leave of a store: some are skipped, and of the others no more are taken than
asked for. -/
def Criteria.window (c : Criteria) (store : List α) : List α :=
  let rest := store.drop (c.skip.elim 0 Int64.toNatClampNeg)
  match c.take with
  | none => rest
  | some n => rest.take n.toNatClampNeg

/-- A window with no number below zero. -/
def Criteria.ProperWindow (c : Criteria) : Prop :=
  (∀ n ∈ c.take, 0 ≤ n) ∧ ∀ n ∈ c.skip, 0 ≤ n

/-- The rows on a page of a store, when each page has as many. -/
def pageOf (store : List α) (page rows : Nat) : List α :=
  (store.drop ((page - 1) * rows)).take rows

/-- A page of a store, with the word on whether the store goes on behind it. -/
def pageListing (store : List α) (page rows : Int64) : Listing α where
  items := pageOf store page.toNatClampNeg rows.toNatClampNeg
  page := some ⟨page, rows, page.toNatClampNeg * rows.toNatClampNeg < store.length⟩
  extras := .empty

theorem hasNext_pageListing (store : List α) (page rows : Int64) :
    (pageListing store page rows).hasNext = true ↔
      page.toNatClampNeg * rows.toNatClampNeg < store.length := by
  simp [pageListing, Listing.hasNext]

/-- The rows that are left from a page on are those of the page and those from the next one on. -/
theorem pageOf_append (store : List α) (page rows : Nat) (h : 1 ≤ page) :
    pageOf store page rows ++ store.drop (page * rows) = store.drop ((page - 1) * rows) := by
  obtain ⟨m, rfl⟩ := Nat.exists_eq_add_of_le' h
  rw [pageOf, Nat.add_sub_cancel, Nat.succ_mul, ← List.drop_drop, List.take_append_drop]

/-- Looking ahead by one row shows whether there is one, and the page is what stands before it. Where
`most` does not allow for it, the list is shorter than that. -/
theorem look_ahead {xs : List α} {most : Nat} (h : xs.length < most) (rows : Nat) :
    (xs.take (rows + 1)).take (min (rows + 1) most - 1) = xs.take rows ∧
      (min (rows + 1) most ≤ (xs.take (rows + 1)).length ↔ rows < xs.length) := by
  rw [List.take_take, List.take_eq_take_iff, List.length_take]
  omega

end

/-- The number of pages that some rows fill; no rows are a page, too. -/
def pageCount (count rows : Nat) : Nat :=
  max 1 (count ⌈/⌉ rows)

theorem pageCount_of_le {count rows : Nat} (h : count ≤ rows) (hrows : 0 < rows) :
    pageCount count rows = 1 := by
  have hone : count ⌈/⌉ rows ≤ 1 := (ceilDiv_le_iff_le_mul hrows).2 (by omega)
  exact max_eq_left hone

theorem pageCount_of_lt {count rows : Nat} (h : rows < count) (hrows : 0 < rows) :
    pageCount count rows = pageCount (count - rows) rows + 1 := by
  have hstep : count ⌈/⌉ rows = (count - rows) ⌈/⌉ rows + 1 := by
    rw [Nat.ceilDiv_eq_add_pred_div, Nat.ceilDiv_eq_add_pred_div, ← Nat.add_div_right _ hrows]
    congr 1
    omega
  have hpos : 0 < (count - rows) ⌈/⌉ rows := by
    rw [Nat.ceilDiv_eq_add_pred_div]
    exact Nat.div_pos (by omega) hrows
  rw [pageCount, pageCount, hstep]
  omega

namespace Pager

variable {α : Type}

theorem toNat_lookAhead {rows : Int64} (h : 1 ≤ rows) :
    (lookAhead rows).toNatClampNeg = min (rows.toNatClampNeg + 1) (2 ^ 63 - 1) := by
  obtain ⟨n, hint, hnat⟩ := exists_succ h
  rw [Int64.toNatClampNeg, lookAhead, toInt_clampInt64, hint, hnat]
  omega

theorem lookAhead_ne_one {rows : Int64} (h : 1 ≤ rows) : lookAhead rows ≠ 1 := by
  intro hone
  have hahead := toNat_lookAhead h
  obtain ⟨n, -, hnat⟩ := exists_succ h
  have hword : (1 : Int64).toNatClampNeg = 1 := rfl
  rw [hone, hnat, hword] at hahead
  omega

theorem toNat_rowsBefore {page rows : Int64} (hpage : 1 ≤ page) (hrows : 1 ≤ rows) :
    (rowsBefore page rows).toNatClampNeg =
      min ((page.toNatClampNeg - 1) * rows.toNatClampNeg) (2 ^ 63 - 1) := by
  obtain ⟨m, hpageInt, hpageNat⟩ := exists_succ hpage
  obtain ⟨n, hrowsInt, hrowsNat⟩ := exists_succ hrows
  have hproduct : (page.toInt - 1) * rows.toInt = ((m * (n + 1) : Nat) : Int) := by
    rw [hpageInt, hrowsInt, Int.add_sub_cancel]
    rfl
  rw [Int64.toNatClampNeg, rowsBefore, toInt_clampInt64, hproduct, hpageNat, hrowsNat,
    Nat.add_sub_cancel]
  omega

theorem toInt_lookAhead {rows : Int64} (h : 1 ≤ rows) :
    (lookAhead rows).toInt = min (rows.toInt + 1) (2 ^ 63 - 1) := by
  have hone := one_le_iff.1 h
  rw [lookAhead, toInt_clampInt64]
  omega

theorem product_nonneg {page rows : Int64} (hpage : 1 ≤ page) (hrows : 1 ≤ rows) :
    0 ≤ (page.toInt - 1) * rows.toInt := by
  have hone := one_le_iff.1 hpage
  have hone' := one_le_iff.1 hrows
  exact Int.mul_nonneg (by omega) (by omega)

theorem toInt_rowsBefore {page rows : Int64} (hpage : 1 ≤ page) (hrows : 1 ≤ rows) :
    (rowsBefore page rows).toInt = min ((page.toInt - 1) * rows.toInt) (2 ^ 63 - 1) := by
  have hproduct := product_nonneg hpage hrows
  rw [rowsBefore, toInt_clampInt64]
  omega

theorem two_le_lookAhead {rows : Int64} (h : 1 ≤ rows) : 2 ≤ (lookAhead rows).toInt := by
  have hone := one_le_iff.1 h
  rw [toInt_lookAhead h]
  omega

theorem rowsBefore_nonneg {page rows : Int64} (hpage : 1 ≤ page) (hrows : 1 ≤ rows) :
    0 ≤ (rowsBefore page rows).toInt := by
  have hproduct := product_nonneg hpage hrows
  rw [toInt_rowsBefore hpage hrows]
  omega

theorem zero_le_lookAhead {rows : Int64} (h : 1 ≤ rows) : 0 ≤ lookAhead rows :=
  Int64.le_iff_toInt_le.2 (Int.le_trans (by decide) (two_le_lookAhead h))

theorem zero_le_rowsBefore {page rows : Int64} (hpage : 1 ≤ page) (hrows : 1 ≤ rows) :
    0 ≤ rowsBefore page rows :=
  Int64.le_iff_toInt_le.2 (rowsBefore_nonneg hpage hrows)

/-- The page that criteria ask for. -/
def pageAsked (c : Criteria) : Int64 :=
  max (c.page.getD 1) 1

/-- The number of rows on the pages that criteria ask for. -/
def rowsAsked (p : Pager) (c : Criteria) : Int64 :=
  max (c.rows.getD p.defaultRows) 1

theorem one_le_pageAsked (c : Criteria) : 1 ≤ pageAsked c :=
  one_le_max_one _

theorem one_le_rowsAsked (p : Pager) (c : Criteria) : 1 ≤ p.rowsAsked c :=
  one_le_max_one _

theorem resize_of_paged (p : Pager) {c : Criteria} (h : unpaged c = false) : p.resize c =
    { c with
      page := some (pageAsked c)
      rows := some (p.rowsAsked c)
      take := some (lookAhead (p.rowsAsked c))
      skip := some (rowsBefore (pageAsked c) (p.rowsAsked c)) } := by
  simp [resize, h, pageAsked, rowsAsked]

theorem unpaged_resize (p : Pager) {c : Criteria} (h : unpaged c = false) :
    unpaged (p.resize c) = false := by
  have hno : c.noPagination = false := (Bool.or_eq_false_iff.1 h).1
  rw [resize_of_paged p h]
  simpa [unpaged, hno] using lookAhead_ne_one (p.one_le_rowsAsked c)

theorem properWindow_resize (p : Pager) {c : Criteria} (h : unpaged c = false) :
    (p.resize c).ProperWindow := by
  rw [resize_of_paged p h]
  constructor
  · rintro _ ⟨⟩
    exact zero_le_lookAhead (p.one_le_rowsAsked c)
  · rintro _ ⟨⟩
    exact zero_le_rowsBefore (one_le_pageAsked c) (p.one_le_rowsAsked c)

/-- Of the rows found for a page those that it holds are kept, and one more tells that another page
follows. -/
theorem trim_resize (p : Pager) {c : Criteria} (h : unpaged c = false) (l : Listing α) :
    trim (p.resize c) l =
      { l with
        items := l.items.take ((lookAhead (p.rowsAsked c)).toNatClampNeg - 1)
        page := some ⟨pageAsked c, p.rowsAsked c,
          (lookAhead (p.rowsAsked c)).toNatClampNeg ≤ l.items.length⟩ } := by
  have hpaged := p.unpaged_resize h
  have hrows : ¬ p.rowsAsked c < 1 := Int64.not_lt.2 (p.one_le_rowsAsked c)
  rw [resize_of_paged p h] at hpaged ⊢
  -- a list that is shorter than what was asked for is not cut
  have hshort : l.items.length < (lookAhead (p.rowsAsked c)).toNatClampNeg →
      l.items.length ≤ (lookAhead (p.rowsAsked c)).toNatClampNeg - 1 := Nat.le_sub_one_of_lt
  simpa [trim, hpaged, hrows] using hshort

/-- A window that no word can hold leaves of a store what the largest word does. -/
theorem window_resize (p : Pager) {store : List α} (hsmall : store.length < 2 ^ 63 - 1)
    {c : Criteria} (h : unpaged c = false) : (p.resize c).window store =
      (store.drop (((pageAsked c).toNatClampNeg - 1) * (p.rowsAsked c).toNatClampNeg)).take
        ((p.rowsAsked c).toNatClampNeg + 1) := by
  rw [resize_of_paged p h]
  simp only [Criteria.window, Option.elim_some]
  rw [toNat_lookAhead (p.one_le_rowsAsked c),
    toNat_rowsBefore (one_le_pageAsked c) (p.one_le_rowsAsked c)]
  have hdrop (k : Nat) : store.drop (min k (2 ^ 63 - 1)) = store.drop k :=
    List.drop_eq_drop_iff.2 (by omega)
  rw [hdrop, List.take_eq_take_iff, List.length_drop]
  omega

theorem run_layer (p : Pager) (c : Criteria) {query : Criteria → Logged (List α)}
    {found : List α} (h : (query (p.resize c)).outcome = .ok found) :
    (Chain.run [p.layer α] c query).outcome = .ok (trim (p.resize c) (.ofItems found)) := by
  simp [Chain.run, Chain.before, Chain.after, layer, Edited.done, h]

/-- A run answers the page that was asked for, and tells whether the store goes on behind it. -/
theorem run_paged (p : Pager) {store : List α} (hsmall : store.length < 2 ^ 63 - 1)
    {query : Criteria → Logged (List α)}
    (hquery : ∀ c, c.ProperWindow → (query c).outcome = .ok (c.window store))
    {c : Criteria} (h : unpaged c = false) : (Chain.run [p.layer α] c query).outcome =
      .ok (pageListing store (pageAsked c) (p.rowsAsked c)) := by
  rw [p.run_layer c (hquery _ (p.properWindow_resize h)), p.trim_resize h, p.window_resize hsmall h,
    toNat_lookAhead (p.one_le_rowsAsked c)]
  obtain ⟨m, -, hpage⟩ := exists_succ (one_le_pageAsked c)
  have hrest : (store.drop (m * (p.rowsAsked c).toNatClampNeg)).length < 2 ^ 63 - 1 := by
    rw [List.length_drop]
    omega
  obtain ⟨hitems, hnext⟩ := look_ahead hrest (p.rowsAsked c).toNatClampNeg
  have hbehind : (p.rowsAsked c).toNatClampNeg <
      (store.drop (m * (p.rowsAsked c).toNatClampNeg)).length ↔
        (m + 1) * (p.rowsAsked c).toNatClampNeg < store.length := by
    rw [List.length_drop, Nat.succ_mul]
    omega
  rw [pageListing, pageOf, hpage, Nat.add_sub_cancel]
  simp only [Listing.ofItems, hitems, hnext, hbehind]

end Pager

/-- Pages from the given one on. Each but the last tells that another follows, which is the next one
asked for. -/
inductive Trail {α : Type} (answer : Int64 → Except Error (Listing α)) :
    Int64 → List (Listing α) → Prop
  | last {page : Int64} {l : Listing α} (found : answer page = .ok l) (stop : ¬ l.hasNext) :
      Trail answer page [l]
  | more {page : Int64} {l : Listing α} {rest : List (Listing α)} (found : answer page = .ok l)
      (next : l.hasNext) (follow : Trail answer (page + 1) rest) : Trail answer page (l :: rest)

namespace Trail

variable {α : Type} {answer : Int64 → Except Error (Listing α)} {page : Int64}

theorem unique {pages others : List (Listing α)} (h : Trail answer page pages)
    (h' : Trail answer page others) : pages = others := by
  induction h generalizing others with
  | last found stop =>
    cases h' with
    | last found' stop' =>
      obtain rfl := Except.ok.inj (found.symm.trans found')
      rfl
    | more found' next' follow' =>
      obtain rfl := Except.ok.inj (found.symm.trans found')
      exact absurd next' stop
  | more found next follow ih =>
    cases h' with
    | last found' stop' =>
      obtain rfl := Except.ok.inj (found.symm.trans found')
      exact absurd next stop'
    | more found' next' follow' =>
      obtain rfl := Except.ok.inj (found.symm.trans found')
      rw [ih follow']

/-- The pages from one on hold the rows of the store from there on. -/
theorem exists_from {store : List α} (hsmall : store.length < 2 ^ 63 - 1) {rows : Int64}
    (hrows : 1 ≤ rows)
    (hanswer : ∀ page, 1 ≤ page → answer page = .ok (pageListing store page rows))
    (hpage : 1 ≤ page) :
    ∃ pages, Trail answer page pages ∧
      pages.flatMap Listing.items =
        store.drop ((page.toNatClampNeg - 1) * rows.toNatClampNeg) ∧
      pages.length = pageCount
        (store.length - (page.toNatClampNeg - 1) * rows.toNatClampNeg) rows.toNatClampNeg := by
  obtain ⟨n, -, hn⟩ := exists_succ hrows
  -- on the rows behind the page, of which there are fewer each time
  induction hleft : store.length - page.toNatClampNeg * rows.toNatClampNeg
    using Nat.strong_induction_on generalizing page with
  | h left ih =>
    obtain ⟨m, -, hm⟩ := exists_succ hpage
    have hsplit := pageOf_append store page.toNatClampNeg rows.toNatClampNeg (by omega)
    have hmul : page.toNatClampNeg * rows.toNatClampNeg =
        (page.toNatClampNeg - 1) * rows.toNatClampNeg + rows.toNatClampNeg := by
      rw [hm, Nat.add_sub_cancel, Nat.succ_mul]
    have hfound := hanswer page hpage
    by_cases hnext : page.toNatClampNeg * rows.toNatClampNeg < store.length
    · have hle : page.toNatClampNeg ≤ page.toNatClampNeg * rows.toNatClampNeg :=
        Nat.le_mul_of_pos_right _ (by omega)
      obtain ⟨hpage', hsucc⟩ := toNat_add_one hpage (by omega)
      have hless : store.length - (page + 1).toNatClampNeg * rows.toNatClampNeg < left := by
        rw [← hleft, hsucc, Nat.succ_mul]
        omega
      obtain ⟨rest, hfollow, hitems, hlength⟩ := ih _ hless hpage' rfl
      rw [hsucc, Nat.add_sub_cancel] at hitems hlength
      refine ⟨_, .more hfound ((hasNext_pageListing ..).2 hnext) hfollow, ?_, ?_⟩
      · rw [List.flatMap_cons, hitems]
        exact hsplit
      · have hbehind : rows.toNatClampNeg <
            store.length - (page.toNatClampNeg - 1) * rows.toNatClampNeg := by omega
        rw [List.length_cons, hlength, pageCount_of_lt hbehind (by omega), Nat.sub_sub, ← hmul]
    · have hnil : store.drop (page.toNatClampNeg * rows.toNatClampNeg) = [] :=
        List.drop_eq_nil_of_le (by omega)
      refine ⟨_, .last hfound (mt (hasNext_pageListing ..).1 hnext), ?_, ?_⟩
      · rw [← hsplit, hnil]
        rfl
      · rw [pageCount_of_le (by omega) (by omega), List.length_singleton]

end Trail

namespace Pager

variable {α : Type}

/-- What a run answers when it is asked for one page of so many rows. -/
def answer (p : Pager) (query : Criteria → Logged (List α)) (c : Criteria) (rows page : Int64) :
    Except Error (Listing α) :=
  (Chain.run [p.layer α] { c with page := some page, rows := some rows } query).outcome

/-- Looking ahead cuts a store into its pages, if the store is read as proper windows ask: each holds
its own rows and tells whether the store goes on behind it, and whoever follows them from the first
comes to an end and has read the whole store in its order. -/
theorem pages_partition (p : Pager) {store : List α} (hsmall : store.length < 2 ^ 63 - 1)
    {query : Criteria → Logged (List α)}
    (hquery : ∀ c, c.ProperWindow → (query c).outcome = .ok (c.window store))
    {c : Criteria} (hpages : c.noPagination = false) (hmany : c.take ≠ some 1) {rows : Int64}
    (hrows : 1 ≤ rows) :
    (∀ page, 1 ≤ page → p.answer query c rows page = .ok (pageListing store page rows)) ∧
    ∃ pages, (∀ others, Trail (p.answer query c rows) 1 others ↔ others = pages) ∧
      pages.length = max 1 (store.length ⌈/⌉ rows.toNatClampNeg) ∧
      pages.flatMap Listing.items = store := by
  have hanswer : ∀ page, 1 ≤ page →
      p.answer query c rows page = .ok (pageListing store page rows) := by
    intro page hpage
    have hpaged : unpaged { c with page := some page, rows := some rows } = false := by
      simp [unpaged, hpages, hmany]
    have hrun := p.run_paged hsmall hquery hpaged
    simpa only [answer, pageAsked, rowsAsked, Option.getD_some, max_one_eq hpage,
      max_one_eq hrows] using hrun
  obtain ⟨pages, htrail, hitems, hlength⟩ :=
    Trail.exists_from hsmall hrows hanswer (Int64.le_refl 1)
  refine ⟨hanswer, pages, fun others => ⟨fun h => h.unique htrail, ?_⟩, ?_, ?_⟩
  · rintro rfl
    exact htrail
  · simpa [pageCount] using hlength
  · simpa using hitems

def shelf : List Nat := [10, 20, 30, 40, 50]

/-- Five rows, read as criteria ask. A window with a number below zero is refused. -/
def readShelf (c : Criteria) : Logged (List Nat) :=
  Logged.ofExcept <|
    if c.take.any (· < 0) || c.skip.any (· < 0) then .error (.query "negative window")
    else .ok (c.window shelf)

theorem readShelf_of_properWindow (c : Criteria) (h : c.ProperWindow) :
    (readShelf c).outcome = .ok (c.window shelf) := by
  obtain ⟨htake, hskip⟩ := h
  have hbounds : (c.take.any (· < 0) || c.skip.any (· < 0)) = false := by
    simpa [Option.any_eq_false] using ⟨htake, hskip⟩
  rw [readShelf, hbounds]
  rfl

theorem pages_of_shelf : shelf.length < 2 ^ 63 - 1 ∧
    (∀ c, c.ProperWindow → (readShelf c).outcome = .ok (c.window shelf)) ∧
    Criteria.default.noPagination = false ∧ Criteria.default.take ≠ some 1 ∧ (1 : Int64) ≤ 2 ∧
    default.answer readShelf .default 2 3 = .ok ⟨[50], some ⟨3, 2, false⟩, .empty⟩ ∧
    default.answer readShelf .default 2 .maxValue =
      .ok ⟨[], some ⟨.maxValue, 2, false⟩, .empty⟩ ∧
    ∃ pages, Trail (default.answer readShelf .default 2) 1 pages ∧ pages.length = 3 ∧
      pages.flatMap Listing.items = shelf := by
  have hsmall : shelf.length < 2 ^ 63 - 1 := by decide
  have hmany : Criteria.default.take ≠ some 1 := nofun
  have hrows : (1 : Int64) ≤ 2 := by decide
  obtain ⟨hanswer, pages, htrail, hlength, hitems⟩ :=
    default.pages_partition hsmall readShelf_of_properWindow rfl hmany hrows
  exact ⟨hsmall, readShelf_of_properWindow, rfl, hmany, hrows, hanswer 3 (by decide), hanswer .maxValue (by decide),
    pages, (htrail pages).2 rfl, hlength, hitems⟩

end Pager
end NamedQuery
