/-
What a settings file says: a value for some of the settings. A file is a TOML
document; keys that mean nothing are skipped, and a value of the wrong kind
spoils the whole file.
-/
import WorkRouting.Settings.Basic
import WorkRouting.Toml.Value

namespace WorkRouting

-- ================================================== reading TOML values

namespace Toml

/-- The fields of a record with these names. Beside a table, an array may give
them in their order, and a date is a record without any of them. -/
def record (names : List String) : Toml → Option (List (Option Toml))
  | table _ entries => some (names.map fun name => entries.lookup name)
  | array _ items =>
      if names.length ≤ items.length then
        some ((items.take names.length).map some)
      else none
  | datetime _ => some (names.map fun _ => none)
  | _ => none

/-- A field that may be missing. -/
def optional (read : Toml → Option α) (field : Option Toml) :
    Option (Option α) :=
  match field with
  | none => some none
  | some v => (read v).map some

def string? : Toml → Option String
  | string s => some s
  | _ => none

/-- A number from zero up to a bound. -/
def natUpTo? (bound : Nat) : Toml → Option Nat
  | integer n => if 0 ≤ n ∧ n.toNat ≤ bound then some n.toNat else none
  | _ => none

def isEmptyCollection : Toml → Bool
  | table _ [] => true
  | array _ [] => true
  | _ => false

end Toml

/-- A log format by its name, or by a table with that name as its one key and
nothing under it. -/
def LogFormat.ofToml? : Toml → Option LogFormat
  | .string s => all.find? (·.name == s)
  | .table _ [(s, v)] =>
      if v.isEmptyCollection then all.find? (·.name == s) else none
  | _ => none

-- ================================================== patches

namespace Settings

/-- A value for some of the settings. -/
structure Patch where
  url : Option String := none
  maxConnections : Option Nat := none
  timeoutSecs : Option Nat := none
  level : Option String := none
  format : Option LogFormat := none
  deriving DecidableEq, Repr

namespace Patch

/-- The part about the database. -/
def database? (v : Toml) : Option Patch := do
  match ← Toml.record ["url", "max_connections", "timeout_secs"] v with
  | [url, maxConnections, timeoutSecs] =>
      return {
        url := ← Toml.optional Toml.string? url
        maxConnections :=
          ← Toml.optional (Toml.natUpTo? connectionsBound) maxConnections
        timeoutSecs :=
          ← Toml.optional (Toml.natUpTo? timeoutBound) timeoutSecs }
  | _ => none

/-- The part about logging. -/
def logging? (v : Toml) : Option Patch := do
  match ← Toml.record ["level", "format"] v with
  | [level, format] =>
      return {
        level := ← Toml.optional Toml.string? level
        format := ← Toml.optional LogFormat.ofToml? format }
  | _ => none

/-- What a document says. -/
def ofToml? (v : Toml) : Option Patch := do
  match ← Toml.record ["database", "logging"] v with
  | [database, logging] =>
      let d := (← Toml.optional database? database).getD {}
      let l := (← Toml.optional logging? logging).getD {}
      return { d with level := l.level, format := l.format }
  | _ => none

end Patch

/-- The settings with the values of a patch. -/
def patched (s : Settings) (p : Patch) : Settings where
  url := p.url.getD s.url
  maxConnections := p.maxConnections.getD s.maxConnections
  timeoutSecs := p.timeoutSecs.getD s.timeoutSecs
  level := p.level.getD s.level
  format := p.format.getD s.format

end Settings

end WorkRouting
