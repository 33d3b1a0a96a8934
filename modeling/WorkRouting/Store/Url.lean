/-
Database URLs: behind the scheme stands the name of a file, escaped where it
needs to be, and behind a question mark how it is to be opened.
-/
import WorkRouting.Text.Percent
import WorkRouting.Text.Quoted
import WorkRouting.Text.Utf8

namespace WorkRouting

/-- Why a URL names no database. -/
inductive UrlError where
  | notText (fault : Text.Utf8.Fault)
  | unknownValue (parameter value : String)
  | unknownParameter (name : String)
  deriving DecidableEq, Repr

def UrlError.message : UrlError → String
  | notText fault => s!"error with configuration: {fault.message}"
  | unknownValue parameter value =>
      "error with configuration: unknown value "
        ++ s!"{Text.Quoted.render value} for `{parameter}`"
  | unknownParameter name =>
      s!"error with configuration: unknown query parameter `{name}` "
        ++ "while parsing connection URL"

/-- A database and how to open it. -/
structure DatabaseUrl where
  /-- The file; without a name, as in memory, the database is a fresh one. -/
  name : String := ""
  inMemory : Bool := false
  readOnly : Bool := false
  creates : Bool := false
  /-- Nobody writes to the file, so it is opened as it is. -/
  immutable : Bool := false
  driver : Option String := none
  deriving DecidableEq, Repr

namespace DatabaseUrl

/-- Drops a lead as often as it stands there. -/
def dropLeads (lead : List Char) : Nat → List Char → List Char
  | 0, cs => cs
  | fuel + 1, cs =>
      match Text.after? lead cs with
      | some rest => dropLeads lead fuel rest
      | none => cs

/-- The URL without its scheme. -/
def withoutScheme (cs : List Char) : List Char :=
  dropLeads "sqlite:".toList cs.length
    (dropLeads "sqlite://".toList cs.length cs)

/-- The name of a file for a database in memory. -/
def memoryName : String := ":memory:"

/-- The database with a name. -/
def ofName (cs : List Char) : Except UrlError DatabaseUrl :=
  if cs = memoryName.toList then .ok { inMemory := true }
  else
    let bytes := Text.Percent.decode (Text.Utf8.encode (String.ofList cs))
    match Text.Utf8.decode bytes with
    | .error fault => .error (.notText fault)
    | .ok name => .ok { name }

/-- A text with its escapes resolved; one that is no text leaves a mark. -/
def resolved (cs : List Char) : String :=
  Text.Utf8.decodeReplacing
    (Text.Percent.decode (Text.Utf8.encode (String.ofList cs)))

/-- One side of a parameter, in which a plus sign is a space. -/
def parameterText (cs : List Char) : String :=
  resolved (cs.map fun c => if c = '+' then ' ' else c)

/-- The parameters, name and value. -/
def parameters (cs : List Char) : List (String × String) :=
  ((Text.segments '&' cs).filter (· ≠ [])).map fun p =>
    let (name, value) := Text.cut '=' p
    (parameterText name, parameterText (value.getD []))

/-- The database as one more parameter has it. -/
def withParameter (u : DatabaseUrl) (name value : String) :
    Except UrlError DatabaseUrl :=
  let refused : Except UrlError DatabaseUrl :=
    .error (.unknownValue name value)
  if name = "mode" then
    if value = "ro" then .ok { u with readOnly := true }
    else if value = "rw" then .ok u
    else if value = "rwc" then .ok { u with creates := true }
    else if value = "memory" then .ok { u with inMemory := true }
    else refused
  else if name = "cache" then
    if value = "private" ∨ value = "shared" then .ok u else refused
  else if name = "immutable" then
    if value = "true" ∨ value = "1" then .ok { u with immutable := true }
    else if value = "false" ∨ value = "0" then
      .ok { u with immutable := false }
    else refused
  else if name = "vfs" then .ok { u with driver := some value }
  else .error (.unknownParameter name)

/-- The database that a URL names. -/
def parse (url : String) : Except UrlError DatabaseUrl := do
  let (name, query) := Text.cut '?' (withoutScheme url.toList)
  let u ← ofName name
  (parameters (query.getD [])).foldlM (fun u (n, v) => u.withParameter n v) u

/-- The file to open. A name may be a URL of its own, `file:` before a path
whose escapes are resolved once more; opened as it is or through a driver, a
name is taken as it stands. -/
def file (u : DatabaseUrl) : String :=
  match Text.after? "file:".toList u.name.toList with
  | some rest =>
      if u.immutable || u.driver.isSome then u.name
      else resolved (rest.takeWhile fun c => c != '?' && c != '#')
  | none => u.name

/-- Whether the database is a fresh one that no file holds. -/
def isFresh (u : DatabaseUrl) : Bool :=
  u.inMemory || u.file = "" || u.file = memoryName

end DatabaseUrl

end WorkRouting
