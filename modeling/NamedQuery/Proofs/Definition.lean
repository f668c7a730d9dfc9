import NamedQuery.Definition
import NamedQuery.Proofs.Dict

namespace NamedQuery

open Sql (Select Statement)

theorem FilterValue.isEmpty_iff (v : FilterValue) :
    v.isEmpty = true ↔ v = .null ∨ v = .text "" ∨ v = .list [] ∨ v = .map [] := by
  cases v <;> simp [isEmpty]

namespace Criteria

theorem ascending_active (c : Criteria) : Ascending c.active :=
  c.filters.ascending.filter _

theorem mem_active {c : Criteria} {key : String} {value : FilterValue} :
    (key, value) ∈ c.active ↔ c.filters.get? key = some value ∧ value.isEmpty = false := by
  rw [active, List.mem_filter, Dict.mem_entries]
  simp

/-- Criteria with filters put in one after the other. -/
def filterAll (c : Criteria) (entries : List (String × FilterValue)) : Criteria :=
  entries.foldl (fun c e => c.filter e.1 e.2) c

theorem filter_comm (c : Criteria) {key other : String} (h : key ≠ other)
    (value more : FilterValue) :
    (c.filter key value).filter other more = (c.filter other more).filter key value := by
  simp only [filter, Dict.insert_comm c.filters h]

/-- Filters of different keys are put in in any order. -/
theorem filterAll_perm (c : Criteria) {entries others : List (String × FilterValue)}
    (h : entries.Perm others) (hkeys : (entries.map (·.1)).Nodup) :
    c.filterAll entries = c.filterAll others := by
  apply h.foldl_eq'
  intro e he e' he' c
  by_cases hkey : e.1 = e'.1
  · rw [List.inj_on_of_nodup_map hkeys he he' hkey]
  · exact c.filter_comm hkey e.2 e'.2

end Criteria

namespace Definition

theorem hasRule_eq (d : Definition) (key : String) :
    d.hasRule key = (d.rules.get? key).isSome :=
  d.rules.contains_eq_isSome key

theorem hasRule_eq_decide (d : Definition) (key : String) :
    d.hasRule key = decide (key ∈ d.rules.keys) := by
  rw [hasRule, Bool.eq_iff_iff, Dict.contains_eq_true, decide_eq_true_iff]

/-- The filters that a definition has something to do for. -/
def applied (d : Definition) (c : Criteria) : List (String × FilterValue) :=
  c.active.filter fun e => d.hasRule e.1

theorem ascending_applied (d : Definition) (c : Criteria) : Ascending (d.applied c) :=
  c.ascending_active.filter _

theorem mem_applied {d : Definition} {c : Criteria} {key : String} {value : FilterValue} :
    (key, value) ∈ d.applied c ↔
      c.filters.get? key = some value ∧ value.isEmpty = false ∧ d.hasRule key = true := by
  rw [applied, List.mem_filter, Criteria.mem_active, and_assoc]

theorem mem_unknownFilters {d : Definition} {c : Criteria} {key : String} :
    key ∈ d.unknownFilters c ↔ key ∈ c.filters.keys ∧ d.hasRule key = false := by
  simp [unknownFilters]

theorem ascending_unknownFilters (d : Definition) (c : Criteria) :
    (d.unknownFilters c).Pairwise (· < ·) :=
  c.filters.ascending_keys.filter _

/-- Rules one by one, up to the first that fails. -/
def applyRules (d : Definition) (filters : List (String × FilterValue)) (s : Select) :
    Except Error Select :=
  filters.foldlM (fun s e => (d.applyRule e.1 e.2 s).toExcept) s

theorem outcome_applyFilters (d : Definition) (filters : List (String × FilterValue)) (s : Select) :
    (d.applyFilters filters s).outcome =
      d.applyRules (filters.filter fun e => d.hasRule e.1) s := by
  induction filters generalizing s with
  | nil => rfl
  | cons e rest ih =>
    obtain ⟨key, value⟩ := e
    cases hrule : d.rules.get? key with
    | none =>
      have hno : d.hasRule key = false := by simp [hasRule_eq, hrule]
      simp only [List.filter_cons, hno, applyFilters, hrule, Logged.outcome_bind, ih]
      rfl
    | some apply =>
      have hyes : d.hasRule key = true := by simp [hasRule_eq, hrule]
      have happly : d.applyRule key value s = apply value s := by rw [applyRule, hrule]
      simp only [List.filter_cons, hyes, applyFilters, hrule, Logged.outcome_bind,
        Logged.outcome_ofExcept, ih]
      rw [if_pos trivial, applyRules, List.foldlM_cons, happly]
      rfl

theorem check_of_refused {d : Definition} {c : Criteria} (h : d.unknown = .reject)
    (hunknown : d.unknownFilters c ≠ []) :
    d.check c = .error (.config (.unknownFilters d.name (d.unknownFilters c))) := by
  obtain ⟨key, more, hcons⟩ := List.exists_cons_of_ne_nil hunknown
  rw [check, h, hcons]

theorem check_of_admitted {d : Definition} {c : Criteria}
    (h : d.unknown = .ignore ∨ ∀ key ∈ c.filters.keys, d.hasRule key = true) :
    d.check c = .ok () := by
  obtain h | h := h
  · rw [check, h]
  · have hnil : d.unknownFilters c = [] := by
      simpa [unknownFilters, List.filter_eq_nil_iff] using h
    rw [check, hnil]
    cases d.unknown <;> rfl

theorem prepare_of_refused {d : Definition} {c : Criteria} (h : d.unknown = .reject)
    (hunknown : d.unknownFilters c ≠ []) :
    d.prepare c = .ofExcept (.error (.config (.unknownFilters d.name (d.unknownFilters c)))) := by
  rw [prepare, check_of_refused h hunknown]
  rfl

theorem outcome_prepare {d : Definition} {c : Criteria}
    (h : d.unknown = .ignore ∨ ∀ key ∈ c.filters.keys, d.hasRule key = true) :
    (d.prepare c).outcome = d.applyRules (d.applied c) (d.source .empty) := by
  rw [prepare, check_of_admitted h, Logged.outcome_bind, outcome_applyFilters]
  rfl

/-- Of the filters of criteria, preparing sees those without a rule and those with a value. -/
theorem prepare_congr {d : Definition} {c c' : Criteria} (hactive : c.active = c'.active)
    (hunknown : d.unknownFilters c = d.unknownFilters c') : d.prepare c = d.prepare c' := by
  rw [prepare, prepare, check, check, hactive, hunknown]

theorem outcome_compile (d : Definition) (c : Criteria) :
    (d.compile c).outcome = (d.prepare c).outcome >>= (·.compile c) :=
  Logged.outcome_bind _ _

theorem compile_eq_ok {d : Definition} {c : Criteria} {st : Statement} :
    (d.compile c).outcome = .ok st ↔
      ∃ s, (d.prepare c).outcome = .ok s ∧ s.compile c = .ok st := by
  rw [outcome_compile]
  cases (d.prepare c).outcome <;> simp [bind, Except.bind]

theorem compile_eq_error {d : Definition} {c : Criteria} {error : Error} :
    (d.compile c).outcome = .error error ↔ (d.prepare c).outcome = .error error ∨
      ∃ s, (d.prepare c).outcome = .ok s ∧ s.compile c = .error error := by
  rw [outcome_compile]
  cases (d.prepare c).outcome <;> simp [bind, Except.bind]

theorem prepare_of_sameRuled {d : Definition} (hd : d.unknown = .ignore) {c c' : Criteria}
    (h : ∀ key, d.hasRule key = true → c.filters.get? key = c'.filters.get? key) :
    (d.prepare c).outcome = (d.prepare c').outcome := by
  have happlied : d.applied c = d.applied c' := by
    apply (d.ascending_applied c).eq_of_mem_iff (d.ascending_applied c')
    rintro ⟨key, value⟩
    simp only [mem_applied]
    by_cases hrule : d.hasRule key = true
    · rw [h key hrule]
    · simp [hrule]
  rw [outcome_prepare (.inl hd), outcome_prepare (.inl hd), happlied]

/-- No value under a key, or one that is empty. -/
def Idle (filters : Dict FilterValue) (key : String) : Prop :=
  ∀ value ∈ filters.get? key, value.isEmpty = true

theorem prepare_of_idle {d : Definition} {c c' : Criteria}
    (h : ∀ key, c.filters.get? key = c'.filters.get? key ∨
      d.hasRule key = true ∧ Idle c.filters key ∧ Idle c'.filters key) :
    d.prepare c = d.prepare c' := by
  apply prepare_congr
  · apply c.ascending_active.eq_of_mem_iff c'.ascending_active
    rintro ⟨key, value⟩
    rw [Criteria.mem_active, Criteria.mem_active]
    obtain heq | ⟨-, hidle, hidle'⟩ := h key
    · rw [heq]
    · constructor
      · rintro ⟨hvalue, hfull⟩
        simp [hidle value hvalue] at hfull
      · rintro ⟨hvalue, hfull⟩
        simp [hidle' value hvalue] at hfull
  · apply List.Pairwise.eq_of_mem_iff (d.ascending_unknownFilters c)
      (d.ascending_unknownFilters c')
    intro key
    rw [mem_unknownFilters, mem_unknownFilters, Dict.mem_keys, Dict.mem_keys]
    obtain heq | ⟨hrule, -, -⟩ := h key
    · rw [heq]
    · simp [hrule]

/-- Criteria with a filter that a strict definition has no rule for are refused by the names of all
such filters, whatever its source and its rules would do. For any others the rules are applied one by
one, in the order of the keys and where there is a value, to what is prepared for no filters. So
filters that no rule looks at, those without a value, and the order in which filters were given make
no difference. -/
theorem prepare_follows_rules (d : Definition) (c : Criteria) :
    (d.unknown = .reject → (∃ key ∈ c.filters.keys, d.hasRule key = false) →
      ∃ unknown, unknown.Pairwise (· < ·) ∧
        (∀ key, key ∈ unknown ↔ key ∈ c.filters.keys ∧ d.hasRule key = false) ∧
        ∀ source rules, rules.keys = d.rules.keys →
          ({ d with source := source, rules := rules } : Definition).prepare c =
            .ofExcept (.error (.config (.unknownFilters d.name unknown)))) ∧
    ((d.unknown = .ignore ∨ ∀ key ∈ c.filters.keys, d.hasRule key = true) →
      ∃ applied, Ascending applied ∧
        (∀ key value, (key, value) ∈ applied ↔ c.filters.get? key = some value ∧
          d.hasRule key = true ∧ value ∉ [.null, .text "", .list [], .map []]) ∧
        (d.prepare .default).outcome = .ok (d.source .empty) ∧
        (d.prepare c).outcome =
          applied.foldlM (fun s e => (d.applyRule e.1 e.2 s).toExcept) (d.source .empty)) ∧
    (∀ filters : Dict FilterValue, d.unknown = .ignore →
      (∀ key, d.hasRule key = true → filters.get? key = c.filters.get? key) →
        (d.prepare { c with filters := filters }).outcome = (d.prepare c).outcome ∧
        (d.compile { c with filters := filters }).outcome = (d.compile c).outcome) ∧
    (∀ filters : Dict FilterValue,
      (∀ key, filters.get? key = c.filters.get? key ∨
        d.hasRule key = true ∧ Idle filters key ∧ Idle c.filters key) →
          d.prepare { c with filters := filters } = d.prepare c ∧
          d.compile { c with filters := filters } = d.compile c) ∧
    ∀ entries others : List (String × FilterValue), entries.Perm others →
      (entries.map (·.1)).Nodup → c.filterAll entries = c.filterAll others := by
  refine ⟨?_, ?_, ?_, ?_, fun _ _ => c.filterAll_perm⟩
  · rintro hreject ⟨key, hkey, hrule⟩
    have hne : d.unknownFilters c ≠ [] := List.ne_nil_of_mem (mem_unknownFilters.2 ⟨hkey, hrule⟩)
    refine ⟨d.unknownFilters c, d.ascending_unknownFilters c, fun _ => mem_unknownFilters, ?_⟩
    intro source rules hkeys
    have hsame : unknownFilters ⟨d.name, source, rules, d.unknown⟩ c = d.unknownFilters c := by
      apply List.filter_congr
      intro key _
      rw [hasRule_eq_decide, hasRule_eq_decide, hkeys]
    have hrefused := prepare_of_refused (d := ⟨d.name, source, rules, d.unknown⟩) hreject
      (hsame ▸ hne)
    rwa [hsame] at hrefused
  · intro h
    refine ⟨d.applied c, d.ascending_applied c, fun key value => ?_, ?_, outcome_prepare h⟩
    · rw [mem_applied, ← Bool.not_eq_true, FilterValue.isEmpty_iff]
      simp [and_comm]
    · exact outcome_prepare (.inr nofun)
  · intro filters hignore hsame
    have hprepare := prepare_of_sameRuled (c := { c with filters := filters }) hignore hsame
    exact ⟨hprepare, by rw [outcome_compile, outcome_compile, hprepare]; rfl⟩
  · intro filters hidle
    have hprepare := prepare_of_idle (c := { c with filters := filters }) hidle
    exact ⟨hprepare, by rw [compile, compile, hprepare]; rfl⟩

/-- Users by their age and their status. -/
def users (unknown : UnknownFilters) : Definition where
  name := "users"
  source s := s.addTable "users" "u"
  rules := Dict.ofList
    [("status", fun value s =>
      .done (s.restrict (.test (.qualified "u" "status") .eq (.filter value)))),
     ("min_age", fun value s => match value.asInt? with
      | some n => .done (s.restrict (.test (.qualified "u" "age") .ge (.int64 n)))
      | none => .stopped s (.validation (.custom "min_age must be a number")))]
  unknown := unknown

/-- Two filters with rules and two without, one of them with no value. -/
def searched : Criteria :=
  Criteria.default.filterAll [("zebra", .null), ("status", .text "active"), ("apple", .int 2),
    ("min_age", .int 18)]

def searchedSql : String :=
  "SELECT * FROM users u WHERE u.age >= $1 AND u.status = $2"

theorem users_searched :
    ((users .reject).unknown = .reject ∧
      (∃ key ∈ searched.filters.keys, (users .reject).hasRule key = false) ∧
      ∀ source rules, rules.keys = ["min_age", "status"] →
        prepare ⟨"users", source, rules, .reject⟩ searched =
          .ofExcept (.error (.config (.unknownFilters "users" ["apple", "zebra"])))) ∧
    (((users .ignore).compile searched).outcome =
        .ok ⟨searchedSql, #[.int64 18, .filter (.text "active")]⟩ ∧
      ∃ applied, Ascending applied ∧ ("min_age", .int 18) ∈ applied ∧
        ((users .ignore).prepare searched).outcome = applied.foldlM
          (fun s e => ((users .ignore).applyRule e.1 e.2 s).toExcept)
            (Select.empty.addTable "users" "u")) ∧
    ((users .ignore).compile (searched.filter "apple" (.int 3))).outcome =
      ((users .ignore).compile searched).outcome ∧
    (users .reject).compile (Criteria.default.filter "status" (.text "")) =
      (users .reject).compile .default ∧
    Criteria.default.filterAll [("b", .int 2), ("a", .int 1)] =
      Criteria.default.filterAll [("a", .int 1), ("b", .int 2)] := by
  have hunknown : ∃ key ∈ searched.filters.keys, (users .reject).hasRule key = false :=
    ⟨"zebra", by decide, by decide⟩
  have hrefused : (users .reject).prepare searched =
      .ofExcept (.error (.config (.unknownFilters "users" ["apple", "zebra"]))) := rfl
  obtain ⟨hreject, -⟩ := prepare_follows_rules (users .reject) searched
  obtain ⟨-, happly, hignore, -⟩ := prepare_follows_rules (users .ignore) searched
  obtain ⟨-, -, -, hblank, horder⟩ := prepare_follows_rules (users .reject) .default
  refine ⟨⟨rfl, hunknown, ?_⟩, ⟨rfl, ?_⟩, ?_, ?_, ?_⟩
  · obtain ⟨unknown, -, -, hall⟩ := hreject rfl hunknown
    have hnames := (hall _ _ rfl).symm.trans hrefused
    obtain rfl : unknown = ["apple", "zebra"] := by
      simpa [Logged.ofExcept, users] using hnames
    exact hall
  · obtain ⟨applied, hascending, hmem, -, hprepare⟩ := happly (.inl rfl)
    refine ⟨applied, hascending, ?_, hprepare⟩
    exact (hmem _ _).2 ⟨rfl, by decide, by simp⟩
  · refine (hignore (searched.filter "apple" (.int 3)).filters rfl ?_).2
    intro key hrule
    rw [Criteria.filter, Dict.get?_insert, if_neg]
    rintro rfl
    exact absurd hrule (by decide)
  · refine (hblank (Criteria.default.filter "status" (.text "")).filters ?_).2
    intro key
    rw [Criteria.filter, Dict.get?_insert]
    split
    next hkey =>
      subst hkey
      exact .inr ⟨by decide, by simp [Idle, Dict.get?_insert, FilterValue.isEmpty], nofun⟩
    next => exact .inl rfl
  · exact horder _ _ (.swap _ _ _) (by decide)

end Definition
end NamedQuery
