/-
The settings of the program: what they are by default, when they are valid, and
what can be wrong with them.
-/
import WorkRouting.Text

namespace WorkRouting

-- ================================================== log formats

inductive LogFormat where
  | compact | pretty | json
  deriving DecidableEq, Repr

namespace LogFormat

def name : LogFormat → String
  | compact => "compact"
  | pretty => "pretty"
  | json => "json"

def all : List LogFormat := [compact, pretty, json]

/-- The name with a capital, as the settings report shows it. -/
def title : LogFormat → String
  | compact => "Compact"
  | pretty => "Pretty"
  | json => "Json"

end LogFormat

-- ================================================== faults

/-- A rule that a value breaks. -/
inductive Violation where
  | unknownFormat (name : String)
  | foreignUrl
  | noConnections
  | timeoutOutOfRange
  | unknownLevel
  deriving DecidableEq, Repr

def Violation.message : Violation → String
  | unknownFormat name =>
      s!"unsupported log format `{name}` (expected compact|pretty|json)"
  | foreignUrl =>
      "database.url must be a sqlite URL "
        ++ "(`sqlite://...`, `sqlite::...`, or `:memory:`)"
  | noConnections => "database.max_connections must be greater than zero"
  | timeoutOutOfRange => "database.timeout_secs must be in range 1..=300"
  | unknownLevel => "logging.level must be one of trace|debug|info|warn|error"

/-- Why a settings file could not be read as text. -/
inductive ReadFault where
  | folder
  | notText
  deriving DecidableEq, Repr

def ReadFault.message : ReadFault → String
  | folder => "Is a directory (os error 21)"
  | notText => "stream did not contain valid UTF-8"

/-- Why there are no settings. -/
inductive SettingsError where
  | unreadableFile (path : String) (fault : ReadFault)
  | malformedFile (path : String)
  | missingFile (path : String)
  | missingVariable (name : String)
  | unterminatedPlaceholder
  | invalidNumber (key value : String)
  | invalid (violation : Violation)
  deriving DecidableEq, Repr

/-- The message of a fault. What the reader of the file has to say about a
malformed one is not part of it. -/
def SettingsError.message : SettingsError → String
  | unreadableFile path fault =>
      s!"could not read config file `{path}`: {fault.message}"
  | malformedFile path =>
      s!"could not parse config file `{path}`: <toml error>"
  | missingFile path => s!"required config file was not found: `{path}`"
  | missingVariable name =>
      s!"environment variable interpolation failed for `{name}`"
  | unterminatedPlaceholder =>
      "unterminated environment interpolation expression"
  | invalidNumber key value =>
      s!"invalid environment override for `{key}`: `{value}`"
  | invalid violation =>
      s!"configuration validation failed: {violation.message}"

/-- Reads the name of a log format in any case and between blanks. -/
def LogFormat.parse (text : String) : Except SettingsError LogFormat :=
  let wanted := Text.lower (Text.trim text)
  match all.find? (·.name == wanted) with
  | some f => .ok f
  | none => .error (.invalid (.unknownFormat wanted))

-- ================================================== settings

structure Settings where
  url : String := "sqlite://orderdesk.db?mode=rwc"
  maxConnections : Nat := 5
  timeoutSecs : Nat := 30
  level : String := "info"
  format : LogFormat := .compact
  deriving DecidableEq, Repr

namespace Settings

/-- The upper bounds of the two numbers, 32 and 64 bits, wherever they are
read. -/
def connectionsBound : Nat := 4294967295

def timeoutBound : Nat := 18446744073709551615

def logLevels : List String := ["trace", "debug", "info", "warn", "error"]

/-- A URL that names a database, blanks around it allowed. -/
def isDatabaseUrl (url : String) : Bool :=
  let cs := (Text.trim url).toList
  (Text.after? "sqlite://".toList cs).isSome
    || (Text.after? "sqlite::".toList cs).isSome
    || cs == ":memory:".toList

/-- A level in any case and between blanks. -/
def isLogLevel (level : String) : Bool :=
  logLevels.contains (Text.lower (Text.trim level))

/-- The first rule that the settings break. -/
def violation? (s : Settings) : Option Violation :=
  if !isDatabaseUrl s.url then some .foreignUrl
  else if s.maxConnections = 0 then some .noConnections
  else if s.timeoutSecs = 0 ∨ 300 < s.timeoutSecs then some .timeoutOutOfRange
  else if !isLogLevel s.level then some .unknownLevel
  else none

def validate (s : Settings) : Except SettingsError Unit :=
  match s.violation? with
  | some v => .error (.invalid v)
  | none => .ok ()

end Settings

end WorkRouting
