/-
Where settings come from. Four sources are laid over each other: the defaults,
a file, environment variables and what the caller insists on; a value of a
higher one hides what is below it, valid or not.
-/
import WorkRouting.Settings.Environment
import WorkRouting.Settings.Patch
import WorkRouting.Toml.Reader

namespace WorkRouting

/-- What stands at a path, as far as reading a text goes. -/
inductive FileContent where
  | absent
  | folder
  | text (s : String)
  | notText
  deriving DecidableEq, Repr

/-- What a command finds around it. -/
structure Surroundings where
  env : Environment
  file : String → FileContent

namespace Surroundings

def has (h : Surroundings) (path : String) : Bool := h.file path != .absent

end Surroundings

namespace Settings

-- ================================================== the settings one by one

/-- One of the settings. -/
inductive Field where
  | url | maxConnections | timeoutSecs | level | format
  deriving DecidableEq, Repr

namespace Field

def all : List Field := [url, maxConnections, timeoutSecs, level, format]

/-- The keys that lead to the setting in a file. -/
def path : Field → List String
  | url => ["database", "url"]
  | maxConnections => ["database", "max_connections"]
  | timeoutSecs => ["database", "timeout_secs"]
  | level => ["logging", "level"]
  | format => ["logging", "format"]

/-- The variables that set it, the first that serves deciding. -/
def variableNames : Field → List String
  | url => ["ORDERDESK_DATABASE_URL"]
  | maxConnections => ["ORDERDESK_DATABASE_MAX_CONNECTIONS"]
  | timeoutSecs => ["ORDERDESK_DATABASE_TIMEOUT_SECS"]
  | level => ["ORDERDESK_LOGGING_LEVEL", "ORDERDESK_LOG_LEVEL"]
  | format => ["ORDERDESK_LOGGING_FORMAT", "ORDERDESK_LOG_FORMAT"]

/-- The variable that a value is taken from, with the value. -/
def taken (f : Field) (env : Environment) : Option (String × String) :=
  f.variableNames.findSome? fun name => (env.filled? name).map (name, ·)

end Field

-- ================================================== files

/-- What the caller may insist on. -/
structure Overrides where
  url : Option String := none
  level : Option String := none
  format : Option LogFormat := none
  deriving DecidableEq, Repr

/-- What the caller asks for. -/
structure Request where
  path : Option String := none
  required : Bool := false
  overrides : Overrides := {}
  deriving DecidableEq, Repr

/-- The files that are looked for where the caller names none. -/
def standardPaths : List String := ["orderdesk.toml", "config/orderdesk.toml"]

/-- The file that is there, if one is. -/
def filePath? (h : Surroundings) (asked : Option String) : Option String :=
  match asked with
  | some path => if h.has path then some path else none
  | none => standardPaths.find? h.has

/-- The text of a file that is there. -/
def fileText (h : Surroundings) (path : String) :
    Except SettingsError String :=
  match h.file path with
  | .text s => .ok s
  | .folder => .error (.unreadableFile path .folder)
  | .notText | .absent => .error (.unreadableFile path .notText)

/-- What a file says. Placeholders are filled before the text is read, so a
value may bring in any part of the document. -/
def filePatch (h : Surroundings) (path : String) :
    Except SettingsError Patch := do
  let filled ← h.env.fill (← fileText h path)
  match (Toml.read filled).bind Patch.ofToml? with
  | some p => return p
  | none => throw (.malformedFile path)

/-- What the file says, or nothing where none is there and none is required. -/
def requestedPatch (h : Surroundings) (r : Request) :
    Except SettingsError Patch :=
  match filePath? h r.path with
  | some path => filePatch h path
  | none =>
      if r.required then .error (.missingFile (r.path.getD "orderdesk.toml"))
      else .ok {}

-- ================================================== variables

/-- The number in a variable. -/
def variableNumber (env : Environment) (f : Field) (bound : Nat) :
    Except SettingsError (Option Nat) :=
  match f.taken env with
  | none => .ok none
  | some (name, value) =>
      match Text.natUpTo? bound value.toList with
      | some n => .ok (some n)
      | none => .error (.invalidNumber name value)

/-- The log format in a variable. -/
def variableFormat (env : Environment) :
    Except SettingsError (Option LogFormat) :=
  match Field.format.taken env with
  | none => .ok none
  | some (_, value) => (LogFormat.parse value).map some

/-- What the variables say. -/
def variablePatch (env : Environment) : Except SettingsError Patch := do
  return {
    url := (Field.url.taken env).map (·.2)
    maxConnections := ← variableNumber env .maxConnections connectionsBound
    timeoutSecs := ← variableNumber env .timeoutSecs timeoutBound
    level := (Field.level.taken env).map (·.2)
    format := ← variableFormat env }

-- ================================================== loading

/-- The settings with what the caller insists on. -/
def overridden (s : Settings) (o : Overrides) : Settings :=
  { s with
    url := o.url.getD s.url
    level := o.level.getD s.level
    format := o.format.getD s.format }

/-- The settings in force, if they are valid. -/
def load (h : Surroundings) (r : Request) : Except SettingsError Settings := do
  let file ← requestedPatch h r
  let vars ← variablePatch h.env
  let s := ((patched {} file).patched vars).overridden r.overrides
  s.validate
  return s

end Settings

end WorkRouting
