/-
The report on the settings in force: each with its value and the place that it
is attributed to. A variable counts as soon as it is set, even to blanks; a
file counts if its text, read without filling its placeholders, has the key.
-/
import WorkRouting.Settings.Load

namespace WorkRouting.Settings

/-- Where a value is said to come from. -/
inductive Source where
  | variable (name : String)
  | file (path : String)
  | builtin
  deriving DecidableEq, Repr

def Source.render : Source → String
  | .variable name => s!"env ({name})"
  | .file path => s!"file ({path})"
  | .builtin => "default"

/-- A file as a document, placeholders left as they stand. -/
def plainDocument (h : Surroundings) (path : String) : Option Toml :=
  match h.file path with
  | .text s => Toml.read s
  | _ => none

/-- The file to which the value of a setting is attributed. -/
def Field.fileSource? (h : Surroundings) (f : Field) : Option String := do
  let path ← filePath? h none
  let document ← plainDocument h path
  if (document.at? f.path).isSome then some path else none

/-- The place to which the value of a setting is attributed. -/
def Field.source (h : Surroundings) (f : Field) : Source :=
  match f.variableNames.find? h.env.isSet with
  | some name => .variable name
  | none =>
      match f.fileSource? h with
      | some path => .file path
      | none => .builtin

/-- The value of a setting, as the report shows it. -/
def Field.text (s : Settings) : Field → String
  | .url => s.url
  | .maxConnections => Text.ofInt s.maxConnections
  | .timeoutSecs => Text.ofInt s.timeoutSecs
  | .level => s.level
  | .format => s.format.title

/-- The line about a setting. -/
def Field.line (h : Surroundings) (s : Settings) (f : Field) : String :=
  let key := String.intercalate "." f.path
  s!"- {key} = {f.text s} (source: {(f.source h).render})"

/-- The report, or why there is nothing to report on. -/
def report (h : Surroundings) : String :=
  match load h {} with
  | .error e => s!"config validation failed: {e.message}"
  | .ok s =>
      Text.lines ("effective config (source precedence: env > file > default):"
        :: Field.all.map (Field.line h s))

end WorkRouting.Settings
