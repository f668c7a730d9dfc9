import NamedQuery.Proofs.Definition
import NamedQuery.Proofs.Sql.Secrecy
import NamedQuery.Proofs.Sql.WellFormed

namespace NamedQuery

open Sql (Select Statement)

/-- The call of a store that an entry is. -/
def Entry.call? : Entry → Option (String × Array Param)
  | storeCall sql params => some (sql, params)
  | _ => none

namespace Logged

variable {α β : Type}

def calls (m : Logged α) : List (String × Array Param) :=
  m.entries.filterMap Entry.call?

/-- The events that report a failure. -/
def failures (m : Logged α) : List Event :=
  (m.entries.flatMap Entry.events).filter (·.level == "ERROR")

@[simp] theorem entries_bind_ofExcept (m : Logged α) (next : α → Except Error β) :
    (m >>= fun a => ofExcept (next a)).entries = m.entries := by
  cases h : m.outcome with
  | error error => rw [bind_of_error h]
  | ok a => rw [bind_of_ok h, entries_ofExcept, List.append_nil]

end Logged

/-- A statement reads from a table somewhere, or it cannot be compiled. -/
theorem Sql.Select.compile_of_noTable {s : Select} (h : s.hasTable = false) (c : Criteria) :
    ∃ fault, s.compile c = .error (.compile fault) := by
  cases hcompile : s.compile c with
  | ok st =>
    obtain ⟨-, ⟨name, label, rest, hsources⟩, -⟩ := Select.wellFormed_of_compile hcompile
    have hsources : s.sources = .table name label :: rest := hsources
    simp [Select.hasTable, hsources] at h
  | error error =>
    obtain ⟨fault, rfl⟩ := Select.isCompile_of_compile hcompile
    exact ⟨fault, rfl⟩

namespace Definition

/-- Applying rules leaves a note for each filter that is passed over, and nothing else. -/
theorem ignored_of_mem_applyFilters {d : Definition} {filters : List (String × FilterValue)}
    {s : Select} {e : Entry} (h : e ∈ (d.applyFilters filters s).entries) :
    ∃ filter, e = .ignored d.name filter := by
  induction filters generalizing s with
  | nil => simp [applyFilters, pure] at h
  | cons f rest ih =>
    obtain ⟨key, value⟩ := f
    cases hrule : d.rules.get? key with
    | none =>
      simp only [applyFilters, hrule] at h
      obtain hnote | ⟨-, -, hrest⟩ := Logged.mem_entries_bind.1 h
      · exact ⟨key, List.mem_singleton.1 hnote⟩
      · exact ih hrest
    | some apply =>
      simp only [applyFilters, hrule] at h
      obtain hnone | ⟨s', -, hrest⟩ := Logged.mem_entries_bind.1 h
      · simp at hnone
      · exact ih hrest

theorem ignored_of_mem_compile {d : Definition} {c : Criteria} {e : Entry}
    (h : e ∈ (d.compile c).entries) : ∃ filter, e = .ignored d.name filter := by
  rw [compile, Logged.entries_bind_ofExcept, prepare] at h
  obtain hnone | ⟨-, -, happly⟩ := Logged.mem_entries_bind.1 h
  · simp at hnone
  · exact ignored_of_mem_applyFilters happly

end Definition

/-- A note on a filter is an event of a kind of its own. -/
theorem Entry.event_of_ignored {query : String} {notes : List Entry}
    (h : ∀ e ∈ notes, ∃ filter, e = .ignored query filter) {event : Event}
    (hevent : event ∈ notes.flatMap Entry.events) :
    event.target = "pgspec.query" ∧ event.level = "DEBUG" := by
  obtain ⟨e, he, hevent⟩ := List.mem_flatMap.1 hevent
  obtain ⟨filter, rfl⟩ := h e he
  obtain rfl := List.mem_singleton.1 hevent
  exact ⟨rfl, rfl⟩

/-- Notes on filters are no calls, no statements and no failures. -/
theorem Entry.unseen_of_ignored {query : String} {notes : List Entry}
    (h : ∀ e ∈ notes, ∃ filter, e = .ignored query filter) :
    notes.filterMap Entry.call? = [] ∧
      (notes.flatMap Entry.events).filter (·.target == "pgspec.sql") = [] ∧
      (notes.flatMap Entry.events).filter (·.level == "ERROR") = [] := by
  refine ⟨List.filterMap_eq_nil_iff.2 fun e he => ?_, List.filter_eq_nil_iff.2 fun event hevent => ?_,
    List.filter_eq_nil_iff.2 fun event hevent => ?_⟩
  · obtain ⟨filter, rfl⟩ := h e he
    rfl
  · simp [Entry.event_of_ignored h hevent]
  · simp [Entry.event_of_ignored h hevent]

namespace Database

/-- The event of a statement, with its values where the log shows them. -/
def sqlEvent (log : LogSettings) (query : String) (st : Statement) : Event :=
  ⟨log.level.word, "pgspec.sql",
    (statementEvent log query st.params.size st.sql).fields ++
      if log.showParams then [("params", describeParams st.params)] else []⟩

theorem events_logEntry (log : LogSettings) (query : String) (st : Statement) :
    (logEntry log query st).events = [sqlEvent log query st] := by
  cases h : log.showParams <;> simp [logEntry, Entry.events, sqlEvent, statementEvent, h]

theorem events_storeCall (sql : String) (params : Array Param) :
    (Entry.storeCall sql params).events = [] := rfl

theorem events_failed (query : String) (error : Error) : (Entry.failed query error).events =
    [⟨"ERROR", "pgspec.query",
      [("message", "query failed"), ("query", query), ("error", error.message)]⟩] := rfl

variable {ρ : Type} (db : Database ρ)

/-- What is seen of an execution that calls the store with a statement, after the notes that are made
when it is put together. -/
structure Sent (query : String) (notes : List Entry) (st : Statement) (found : Logged (List ρ)) :
    Prop where
  outcome : found.outcome = db.store st.sql st.params
  entries : found.entries = notes ++ ((if db.log.enabled then [logEntry db.log query st] else []) ++
    .storeCall st.sql st.params :: match db.store st.sql st.params with
      | .ok _ => []
      | .error error => [.failed query error])
  calls : found.calls = [(st.sql, st.params)]
  logged : found.eventsOn "pgspec.sql" =
    if db.log.enabled then [sqlEvent db.log query st] else []
  failures : found.failures = match db.store st.sql st.params with
    | .ok _ => []
    | .error error => [⟨"ERROR", "pgspec.query",
        [("message", "query failed"), ("query", query), ("error", error.message)]⟩]

/-- What is seen of an execution that ends before it comes to the store. -/
structure Unsent (notes : List Entry) (error : Error) (found : Logged (List ρ)) : Prop where
  outcome : found.outcome = .error error
  entries : found.entries = notes
  calls : found.calls = []
  logged : found.eventsOn "pgspec.sql" = []
  failures : found.failures = []

variable {query : String} {notes : List Entry}

theorem unsent_of_ignored {error : Error} (h : ∀ e ∈ notes, ∃ filter, e = .ignored query filter) :
    Unsent (ρ := ρ) notes error ⟨notes, .error error⟩ :=
  have ⟨hcalls, hlogged, hfailures⟩ := Entry.unseen_of_ignored h
  ⟨rfl, rfl, hcalls, hlogged, hfailures⟩

theorem sent_executeStatement (query : String) (st : Statement) :
    db.Sent query [] st (db.executeStatement query st) := by
  have hlevel : db.log.level.word ≠ "ERROR" := by cases db.log.level <;> decide
  unfold executeStatement
  constructor
  case calls => cases db.store st.sql st.params <;> cases db.log.enabled <;> rfl
  all_goals
    cases db.store st.sql st.params <;> cases db.log.enabled <;>
      simp [Logged.eventsOn, Logged.failures, events_logEntry, events_storeCall, events_failed,
        sqlEvent, hlevel]

theorem Sent.after_notes {st : Statement} {found : Logged (List ρ)} (hsent : db.Sent query [] st found)
    (h : ∀ e ∈ notes, ∃ filter, e = .ignored query filter) :
    db.Sent query notes st ⟨notes ++ found.entries, found.outcome⟩ := by
  obtain ⟨hcalls, hlogged, hfailures⟩ := Entry.unseen_of_ignored h
  refine ⟨hsent.outcome, ?_, ?_, ?_, ?_⟩
  · rw [hsent.entries, List.nil_append]
  · rw [Logged.calls, List.filterMap_append, hcalls]
    exact hsent.calls
  · rw [Logged.eventsOn, List.flatMap_append, List.filter_append, hlogged]
    exact hsent.logged
  · rw [Logged.failures, List.flatMap_append, List.filter_append, hfailures]
    exact hsent.failures

variable {d : Definition} {c : Criteria}

theorem sent_of_compile {st : Statement} (h : (d.compile c).outcome = .ok st) :
    db.Sent d.name (d.compile c).entries st (db.executeQuery d c) := by
  have hnotes := fun e => Definition.ignored_of_mem_compile (d := d) (c := c) (e := e)
  obtain ⟨s, hs, hcompile⟩ := Definition.compile_eq_ok.1 h
  -- what compiles has a table, so it is not turned away before it is compiled
  have htable : s.hasTable = true := by
    by_contra hno
    obtain ⟨fault, hfault⟩ := Select.compile_of_noTable (Bool.eq_false_iff.2 hno) c
    simp [hcompile] at hfault
  have hexecute : db.execute d.name s c = db.executeStatement d.name st := by
    rw [execute, htable, hcompile]
    rfl
  rw [Definition.compile, Logged.entries_bind_ofExcept] at hnotes ⊢
  rw [executeQuery, Logged.bind_of_ok hs, hexecute]
  exact (sent_executeStatement db d.name st).after_notes db hnotes

theorem unsent_of_compile {error : Error} (h : (d.compile c).outcome = .error error) :
    ((∀ s, (d.prepare c).outcome = .ok s → s.hasTable = true) ∧
        Unsent (d.compile c).entries error (db.executeQuery d c)) ∨
      ∃ s fault, (d.prepare c).outcome = .ok s ∧ s.hasTable = false ∧ error = .compile fault ∧
        Unsent (d.compile c).entries (.config (.noSourceAttached d.name)) (db.executeQuery d c) := by
  have hnotes := fun e => Definition.ignored_of_mem_compile (d := d) (c := c) (e := e)
  rw [Definition.compile, Logged.entries_bind_ofExcept] at hnotes ⊢
  obtain hs | ⟨s, hs, hcompile⟩ := Definition.compile_eq_error.1 h
  · refine .inl ⟨by simp [hs], ?_⟩
    rw [executeQuery, Logged.bind_of_error hs]
    exact unsent_of_ignored hnotes
  · rw [executeQuery, Logged.bind_of_ok hs, execute]
    cases htable : s.hasTable with
    | false =>
      obtain ⟨fault, hfault⟩ := Select.compile_of_noTable htable c
      obtain rfl := Except.error.inj (hcompile.symm.trans hfault)
      refine .inr ⟨s, fault, hs, htable, rfl, ?_⟩
      simpa using unsent_of_ignored hnotes
    | true =>
      refine .inl ⟨fun s' hs' => ?_, ?_⟩
      · rwa [← Except.ok.inj (hs.symm.trans hs')]
      · rw [hcompile]
        simpa [Logged.bind_of_error] using unsent_of_ignored hnotes

/-- An execution agrees with a compilation. Where that gives a statement, the store is called once, with
this statement, after it is logged, and its answer is the outcome; a failure of the store is reported.
Where it fails, nothing is sent and the error is the same, unless what was prepared has no table of its
own: then it is a fault of the definition, where compiling finds one in the statement. -/
theorem executeQuery_agrees (d : Definition) (c : Criteria) :
    match (d.compile c).outcome with
    | .ok st => db.Sent d.name (d.compile c).entries st (db.executeQuery d c)
    | .error error =>
      ((∀ s, (d.prepare c).outcome = .ok s → s.hasTable = true) ∧
        Unsent (d.compile c).entries error (db.executeQuery d c)) ∨
      ∃ s fault, (d.prepare c).outcome = .ok s ∧ s.hasTable = false ∧ error = .compile fault ∧
        Unsent (d.compile c).entries (.config (.noSourceAttached d.name)) (db.executeQuery d c) := by
  cases h : (d.compile c).outcome with
  | ok st => exact sent_of_compile db h
  | error error => exact unsent_of_compile db h

/-- Orders that are joined to nothing. -/
example :
    let d := { Definition.users .ignore with source := (·.addJoin .inner "orders" "" (.raw "TRUE")) }
    (d.compile .default).outcome = .error (.compile (.joinFirst "orders")) ∧
      (quietAccounts.executeQuery d .default).outcome =
        .error (.config (.noSourceAttached "users")) :=
  ⟨rfl, rfl⟩

end Database
end NamedQuery
