import Mathlib.Data.List.Forall2

namespace NamedQuery

universe u v w

variable {ε : Type u} {α : Type v} {β : Type w}

theorem except_bind_eq_ok {γ : Type w} {m : Except ε β} {next : β → Except ε γ} {c : γ} :
    m >>= next = .ok c ↔ ∃ b, m = .ok b ∧ next b = .ok c := by
  cases m <;> simp [bind, Except.bind]

theorem except_bind_eq_error {γ : Type w} {m : Except ε β} {next : β → Except ε γ} {e : ε} :
    m >>= next = .error e ↔ m = .error e ∨ ∃ b, m = .ok b ∧ next b = .error e := by
  cases m <;> simp [bind, Except.bind]

theorem except_map_eq_ok {γ : Type w} {m : Except ε β} {f : β → γ} {c : γ} :
    m.map f = .ok c ↔ ∃ b, m = .ok b ∧ f b = c := by
  cases m <;> simp [Except.map]

theorem except_map_eq_error {γ : Type w} {m : Except ε β} {f : β → γ} {e : ε} :
    m.map f = .error e ↔ m = .error e := by
  cases m <;> simp [Except.map]

theorem except_ite_eq_ok {p : Prop} [Decidable p] {e : ε} {b c : β} :
    (if p then .ok b else .error e : Except ε β) = .ok c ↔ p ∧ b = c := by
  split <;> simp [*]

theorem mapM_eq_ok {f : α → Except ε β} {xs : List α} {ys : List β} :
    xs.mapM f = .ok ys ↔ List.Forall₂ (fun x y => f x = .ok y) xs ys := by
  induction xs generalizing ys with
  | nil =>
    rw [List.mapM_nil, List.forall₂_nil_left_iff]
    exact ⟨fun h => (Except.ok.inj h).symm, fun h => h ▸ rfl⟩
  | cons x rest ih =>
    rw [List.mapM_cons, except_bind_eq_ok, List.forall₂_cons_left_iff]
    constructor
    · rintro ⟨y, hy, h⟩
      obtain ⟨more, hmore, hys⟩ := except_bind_eq_ok.1 h
      exact ⟨y, more, hy, ih.1 hmore, (Except.ok.inj hys).symm⟩
    · rintro ⟨y, more, hy, hmore, rfl⟩
      exact ⟨y, hy, except_bind_eq_ok.2 ⟨more, ih.2 hmore, rfl⟩⟩

theorem mapM_eq_error {f : α → Except ε β} {xs : List α} {e : ε} :
    xs.mapM f = .error e ↔ ∃ before x rest, xs = before ++ x :: rest ∧
      (∀ b ∈ before, ∃ y, f b = .ok y) ∧ f x = .error e := by
  induction xs with
  | nil => simp [pure, Except.pure]
  | cons x rest ih =>
    rw [List.mapM_cons, except_bind_eq_error]
    constructor
    · rintro (hx | ⟨y, hy, h⟩)
      · exact ⟨[], x, rest, rfl, List.forall_mem_nil _, hx⟩
      · obtain hrest | ⟨more, -, h⟩ := except_bind_eq_error.1 h
        · obtain ⟨before, z, tail, rfl, hbefore, hz⟩ := ih.1 hrest
          exact ⟨x :: before, z, tail, rfl, List.forall_mem_cons.2 ⟨⟨y, hy⟩, hbefore⟩, hz⟩
        · cases h
    · rintro ⟨before, z, tail, hsplit, hbefore, hz⟩
      cases before with
      | nil =>
        cases hsplit
        exact .inl hz
      | cons b before =>
        cases hsplit
        obtain ⟨⟨y, hy⟩, hbefore⟩ := List.forall_mem_cons.1 hbefore
        exact .inr ⟨y, hy, except_bind_eq_error.2 (.inl (ih.2 ⟨before, z, tail, rfl, hbefore, hz⟩))⟩

theorem exists_mapM_eq_ok {f : α → Except ε β} {xs : List α} (h : ∀ x ∈ xs, ∃ y, f x = .ok y) :
    ∃ ys, xs.mapM f = .ok ys := by
  cases hmap : xs.mapM f with
  | ok ys => exact ⟨ys, rfl⟩
  | error e =>
    obtain ⟨before, x, rest, rfl, -, hx⟩ := mapM_eq_error.1 hmap
    obtain ⟨y, hy⟩ := h x (by simp)
    cases hx.symm.trans hy

end NamedQuery
