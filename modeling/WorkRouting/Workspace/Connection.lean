/-
How a database is opened by its URL. What stands at its place decides: nothing,
a folder, a file that is no database, an empty one, or a database.
-/
import WorkRouting.Command.Session
import WorkRouting.Store.Url
import WorkRouting.Workspace.Tree

namespace WorkRouting

/-- Why a database cannot be opened. -/
inductive ConnectionError where
  | url (error : UrlError)
  | nulInName
  | unknownDriver (name : String)
  /-- Nothing is there, or no file. -/
  | cannotOpen
  /-- A folder, opened for reading. -/
  | folder
  | notDatabase
  /-- An empty file, opened for reading: it would have to be set up first. -/
  | readOnly
  deriving DecidableEq, Repr

/-- A refusal in the words of the database, under its number. -/
def ConnectionError.refusal (code : Nat) (text : String) : String :=
  s!"error returned from database: (code: {code}) {text}"

def ConnectionError.message : ConnectionError → String
  | url error => error.message
  | nulInName =>
      "error communicating with database: "
        ++ "filename passed to SQLite must not contain nul bytes"
  | unknownDriver name => refusal 1 s!"no such vfs: {name}"
  | cannotOpen => refusal 14 "unable to open database file"
  | folder => refusal 266 "disk I/O error"
  | notDatabase => refusal 26 "file is not a database"
  | readOnly => StoreError.readOnly.reported

-- ================================================== opening

/-- The drivers that a database can be opened through. -/
def DatabaseUrl.drivers : List String :=
  ["unix", "unix-none", "unix-dotfile", "unix-excl", "memdb"]

/-- Whether nothing is written to the database. -/
def DatabaseUrl.protects (u : DatabaseUrl) : Bool := u.readOnly || u.immutable

/-- A database opened at a place, or a fresh one that has none. -/
structure Opened where
  session : Session
  place : Option Path := none

namespace Tree

/-- Opens the database file at a place. An empty file becomes a database by
being opened for writing. -/
def openAt (t : Tree) (p : Path) (u : DatabaseUrl) :
    Except ConnectionError Opened :=
  let fresh : Opened := ⟨⟨.blank, !u.protects⟩, some p⟩
  match t.node? p with
  | none => if u.creates && !u.readOnly then .ok fresh else .error .cannotOpen
  | some .folder => .error (if u.readOnly then .folder else .cannotOpen)
  | some (.file text) =>
      if text != some "" then .error .notDatabase
      else if u.readOnly then .error .readOnly
      else .ok fresh
  | some (.database db) => .ok ⟨⟨db, !u.protects⟩, some p⟩

/-- Opens the database that a URL names. -/
def connect (t : Tree) (url : String) : Except ConnectionError Opened :=
  match DatabaseUrl.parse url with
  | .error e => .error (.url e)
  | .ok u =>
      if u.name.toList.contains (Char.ofNat 0) then .error .nulInName
      else
        match u.driver.filter (!DatabaseUrl.drivers.contains ·) with
        | some name => .error (.unknownDriver name)
        | none =>
            if u.isFresh then .ok ⟨⟨.blank, !u.protects⟩, none⟩
            else
              match t.place? u.file with
              | none => .error .cannotOpen
              | some p => t.openAt p u

/-- The tree after work on an opened database. -/
def closed (t : Tree) (o : Opened) : Tree :=
  match o.place with
  | none => t
  | some p => t.put p (.database o.session.database)

end Tree

end WorkRouting
