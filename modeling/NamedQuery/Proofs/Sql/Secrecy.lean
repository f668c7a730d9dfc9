import NamedQuery.Database
import NamedQuery.Event
import NamedQuery.Proofs.Sql.Replacement

namespace NamedQuery
namespace Sql
open Piece

/-- The statement with another value in the place of each. -/
def Select.rebind (f : Param → Param) (s : Select) : Select :=
  s.replace f id

/-- What is left of a statement when each of its values becomes the same hole. -/
def Select.shape (s : Select) : Select :=
  s.rebind fun _ => .absent

def Statement.rebind (f : Param → Param) (st : Statement) : Statement :=
  ⟨st.sql, st.params.map f⟩

namespace Piece

variable (f : Param → Param)

theorem chars_replace (bound : Nat) (p : Piece) : (p.replace f id).chars bound = p.chars bound := by
  cases p <;> rfl

/-- The text shows where the values stand, and how many of them stand before. -/
theorem charsAll_replace (bound : Nat) (ps : List Piece) :
    charsAll bound (ps.map (replace f id)) = charsAll bound ps := by
  induction ps generalizing bound with
  | nil => rfl
  | cons p rest ih =>
    have hcount : (values [p.replace f id]).length = (values [p]).length := by
      rw [← List.map_singleton, values_replace, List.length_map]
    rw [List.map_cons, charsAll, charsAll, chars_replace, hcount, ih]

end Piece

/-- Other values change the parameters of a statement, one by one, and nothing else. -/
theorem Select.compile_rebind (f : Param → Param) (s : Select) (c : Criteria) :
    (s.rebind f).compile c = (s.compile c).map (Statement.rebind f) := by
  rw [Select.compile_eq, Select.compile_eq, Select.rebind, Select.arrange_replace]
  cases s.arrange c with
  | error fault => rfl
  | ok arranged =>
    simp only [Except.map, Select.pieces_replace, findSome_fault_replace, charsAll_replace,
      values_replace]
    cases arranged.pieces.findSome? fault? with
    | some fault => rfl
    | none => simp [Statement.rebind]

variable {s s' : Select}

theorem Select.compile_of_shape (h : s.shape = s'.shape) (c : Criteria) :
    (∃ error, s.compile c = .error error ∧ s'.compile c = .error error) ∨
      ∃ st st', s.compile c = .ok st ∧ s'.compile c = .ok st' ∧ st.sql = st'.sql ∧
        st.params.size = st'.params.size := by
  have hshape : (s.compile c).map (Statement.rebind fun _ => .absent) =
      (s'.compile c).map (Statement.rebind fun _ => .absent) := by
    rw [← Select.compile_rebind, ← Select.compile_rebind]
    exact congrArg (Select.compile · c) h
  cases hs : s.compile c with
  | error error =>
    cases hs' : s'.compile c with
    | error error' =>
      rw [hs, hs'] at hshape
      obtain rfl := Except.error.inj hshape
      exact .inl ⟨error, rfl, rfl⟩
    | ok st' => simp [hs, hs', Except.map] at hshape
  | ok st =>
    cases hs' : s'.compile c with
    | error error' => simp [hs, hs', Except.map] at hshape
    | ok st' =>
      rw [hs, hs'] at hshape
      obtain ⟨hsql, hparams⟩ := Statement.mk.inj (Except.ok.inj hshape)
      exact .inr ⟨st, st', rfl, rfl, hsql, by simpa using congrArg Array.size hparams⟩

theorem Select.hasTable_of_shape (h : s.shape = s'.shape) : s.hasTable = s'.hasTable := by
  have hshape := congrArg Select.hasTable h
  rwa [Select.shape, Select.shape, Select.rebind, Select.rebind, Select.hasTable_replace,
    Select.hasTable_replace] at hshape

end Sql

open Sql (Select Statement)

/-- The events of a log that are about one thing. -/
def Logged.eventsOn {α : Type} (target : String) (m : Logged α) : List Event :=
  (m.entries.flatMap Entry.events).filter (·.target == target)

namespace Database

variable {ρ : Type}

/-- The event of a statement whose values are not shown. -/
def statementEvent (log : LogSettings) (query : String) (count : Nat) (sql : String) : Event :=
  ⟨log.level.word, "pgspec.sql",
    [("query", query), ("param_count", toString count), ("sql", Text.clip sql log.longest)]⟩

theorem executeStatement_eventsOn {db : Database ρ} (hhidden : db.log.showParams = false)
    (query : String) (st : Statement) :
    (db.executeStatement query st).eventsOn "pgspec.sql" =
      if db.log.enabled then [statementEvent db.log query st.params.size st.sql] else [] := by
  unfold executeStatement
  -- what the store answers is logged elsewhere
  cases db.store st.sql st.params <;>
    by_cases hon : db.log.enabled <;>
      simp [Logged.eventsOn, hon, hhidden, logEntry, Entry.events, statementEvent]

theorem execute_eventsOn {db : Database ρ} (hhidden : db.log.showParams = false) (query : String)
    (s : Select) (c : Criteria) : (db.execute query s c).eventsOn "pgspec.sql" =
      match s.hasTable, s.compile c with
      | true, .ok st =>
        if db.log.enabled then [statementEvent db.log query st.params.size st.sql] else []
      | _, _ => [] := by
  unfold execute
  cases s.hasTable with
  | false => rfl
  | true =>
    cases s.compile c with
    | error error => rfl
    | ok st => exact executeStatement_eventsOn hhidden query st

end Database

/-- Statements that differ in their values alone fail alike or have one text and as many parameters, and
a log that shows no values cannot tell them apart. -/
theorem Sql.Select.values_stay_unseen {s s' : Select} (h : s.shape = s'.shape) (c : Criteria) :
    ((∃ error, s.compile c = .error error ∧ s'.compile c = .error error) ∨
      ∃ st st', s.compile c = .ok st ∧ s'.compile c = .ok st' ∧ st.sql = st'.sql ∧
        st.params.size = st'.params.size) ∧
    ∀ {ρ : Type} (db : Database ρ) (query : String), db.log.showParams = false →
      (db.execute query s c).eventsOn "pgspec.sql" =
        (db.execute query s' c).eventsOn "pgspec.sql" := by
  have hcompile := Select.compile_of_shape h c
  refine ⟨hcompile, fun db query hhidden => ?_⟩
  rw [Database.execute_eventsOn hhidden, Database.execute_eventsOn hhidden,
    Select.hasTable_of_shape h]
  obtain ⟨error, hs, hs'⟩ | ⟨st, st', hs, hs', hsql, hsize⟩ := hcompile
  · rw [hs, hs']
  · rw [hs, hs']
    cases s'.hasTable with
    | false => rfl
    | true => simp only [hsql, hsize]

/-- Accounts by a secret, which stands in a column, in a subquery and where it is never written. -/
def accountsWith (secret tenant : Param) : Select where
  sources := [.table "accounts" (some "a")]
  columns := [⟨.case [⟨.test (.qualified "a" "token") .eq secret, .bound tenant⟩] none,
    some "owner"⟩]
  distinct := false
  conds := [.inList (.bound secret) [] true, .hasRow
    ⟨[.table "grants" none], [], false, [.test (.unqualified "token") .eq secret], [], [], none,
      none⟩ false]
  groupBy := []
  order := []
  limit := none
  offset := none

def accountsSql : String :=
  "SELECT CASE WHEN a.token = $1 THEN $2 END AS owner FROM accounts a WHERE TRUE AND " ++
    "EXISTS (SELECT * FROM grants WHERE token = $3) LIMIT 5"

/-- A store that tells the rows of one secret, with a log that shows no values. -/
def quietAccounts : Database Bool where
  store _ params :=
    if params[0]?.map (·.send (.scalar .text)) = some ((Param.text "s3cret").send (.scalar .text)) then
      .ok [true]
    else .error (.query "permission denied")
  log := .hidingParams .default

/-- One criteria for both, with a window. -/
def firstFive : Criteria :=
  { Criteria.default with take := some 5 }

theorem accounts_unseen :
    (accountsWith (.text "s3cret") (.int64 7)).shape =
        (accountsWith .absent (.bool true)).shape ∧
      quietAccounts.log.showParams = false ∧
      ((accountsWith (.text "s3cret") (.int64 7)).compile firstFive).toOption.map
          (fun st => (st.sql, st.params.size)) = some (accountsSql, 3) ∧
      ((accountsWith .absent (.bool true)).compile firstFive).toOption.map
          (fun st => (st.sql, st.params.size)) = some (accountsSql, 3) ∧
      (quietAccounts.execute "accounts" (accountsWith (.text "s3cret") (.int64 7))
          firstFive).eventsOn "pgspec.sql" =
        (quietAccounts.execute "accounts" (accountsWith .absent (.bool true))
          firstFive).eventsOn "pgspec.sql" := by
  have hshape : (accountsWith (.text "s3cret") (.int64 7)).shape =
      (accountsWith .absent (.bool true)).shape := rfl
  refine ⟨hshape, rfl, by decide +kernel, by decide +kernel, ?_⟩
  exact (Sql.Select.values_stay_unseen hshape firstFive).2 quietAccounts "accounts" rfl

end NamedQuery
