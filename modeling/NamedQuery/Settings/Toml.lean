import NamedQuery.Bounded
import NamedQuery.Settings
import NamedQuery.Toml.Parse

namespace NamedQuery

namespace Toml

/-- The fields of a record: by key from a table, by position from an array. Whatever else a table
holds must be readable; further items of an array are not looked at. A date has none of the fields. -/
def fields? (names : List String) : Toml → Option (List (Option Toml))
  | .table entries =>
    if entries.all fun e => names.contains e.1 || e.2.isReadable then
      some (names.map fun name => entries.lookup name)
    else none
  | .array items => some ((List.range names.length).map (items[·]?))
  | .moment => some (names.map fun _ => none)
  | _ => none

def withDefault {α : Type} (default : α) (read : Toml → Option α) : Option Toml → Option α
  | none => some default
  | some value => read value

def bool? : Toml → Option Bool
  | .bool b => some b
  | _ => none

def int64? : Toml → Option Int64
  | .int n => NamedQuery.int64? n
  | _ => none

/-- A length of up to 64 bits. -/
def length? : Toml → Option Nat
  | .int n => if 0 ≤ n ∧ n < Int.pow 2 64 then some n.toNat else none
  | _ => none

/-- An empty array or table. -/
def isEmpty : Toml → Bool
  | .array items => items.isEmpty
  | .table entries => entries.isEmpty
  | _ => false

end Toml

open Toml (fields? withDefault)

def LogLevel.ofName? : String → Option LogLevel
  | "debug" => some .debug
  | "trace" => some .trace
  | _ => none

/-- A level is given by its name, or by a table with the name as its only key and nothing in it. -/
def LogLevel.ofToml? : Toml → Option LogLevel
  | .text name => ofName? name
  | .table [(name, value)] => if value.isEmpty then ofName? name else none
  | _ => none

def LogSettings.ofToml? (value : Toml) : Option LogSettings := do
  let names := ["log_sql", "sql_log_level", "max_sql_length", "log_params"]
  let [enabled, level, longest, showParams] ← fields? names value | none
  pure
    { enabled := ← withDefault default.enabled Toml.bool? enabled
      level := ← withDefault default.level LogLevel.ofToml? level
      longest := ← withDefault default.longest Toml.length? longest
      showParams := ← withDefault default.showParams Toml.bool? showParams }

def PageSettings.ofToml? (value : Toml) : Option PageSettings := do
  let [defaultRows] ← fields? ["default_rows"] value | none
  pure ⟨← withDefault default.defaultRows Toml.int64? defaultRows⟩

namespace Settings

def ofToml? (value : Toml) : Option Settings := do
  let [log, pages] ← fields? ["driver", "pagination"] value | none
  pure
    { log := ← withDefault .default LogSettings.ofToml? log
      pages := ← withDefault .default PageSettings.ofToml? pages }

/-- Reads settings from a TOML text. What the text leaves out has its default. -/
def ofText (text : String) : Except Error Settings := do
  match Toml.parse text with
  | none => .error (.config (.badSettings "not a TOML document"))
  | some value =>
    match ofToml? value with
    | none => .error (.config (.badSettings "a setting has another type"))
    | some settings =>
      settings.pages.validate
      .ok settings

/-- Reads settings from what a file gave: its text, or the reason that it could not be read. -/
def load (path : String) (contents : Except String String) : Except Error Settings :=
  match contents with
  | .ok text => ofText text
  | .error reason => .error (.config (.unreadableSettings path reason))

end Settings
end NamedQuery
