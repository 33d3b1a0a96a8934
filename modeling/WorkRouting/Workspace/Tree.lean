/-
The files around the program: folders, texts and databases under their paths. A
path that is written down is walked part by part, and every part but the last
has to lead through a folder.
-/
import WorkRouting.Settings.Load
import WorkRouting.Store.Database

namespace WorkRouting

/-- The parts of a path from the working folder on. -/
abbrev Path := List String

/-- What stands at a path. -/
inductive Node where
  | folder
  /-- A file, with its text if it is one. -/
  | file (text : Option String)
  | database (db : Database)

/-- Everything below the working folder. -/
structure Tree where
  nodes : List (Path × Node) := []

namespace Tree

/-- What stands at a path; the working folder is always there. -/
def node? (t : Tree) (p : Path) : Option Node :=
  if p = [] then some .folder else t.nodes.lookup p

def isFolder (t : Tree) (p : Path) : Bool :=
  match t.node? p with
  | some .folder => true
  | _ => false

-- ================================================== paths as written

/-- The parts between slashes. -/
def parts (path : String) : List String :=
  (Text.segments '/' path.toList).map String.ofList

/-- Walks parts from a place on. The last part may lead to nothing, the others
have to lead to folders; nothing above the working folder is seen. -/
def walk (t : Tree) (place : Path) : List String → Option Path
  | [] => some place
  | part :: rest =>
      if !t.isFolder place then none
      else if part = "" ∨ part = "." then t.walk place rest
      else if part = ".." then
        if place = [] then none else t.walk place.dropLast rest
      else t.walk (place ++ [part]) rest

/-- The place of a written path, occupied or not. Without a name there is no
place, and a path from the root leads out of sight. -/
def place? (t : Tree) (path : String) : Option Path :=
  match path.toList with
  | [] | '/' :: _ => none
  | _ => t.walk [] (parts path)

/-- What stands at a written path. -/
def at? (t : Tree) (path : String) : Option Node :=
  (t.place? path).bind t.node?

def contains (t : Tree) (path : String) : Bool := (t.at? path).isSome

/-- What reading a text at a path finds. -/
def content (t : Tree) (path : String) : FileContent :=
  match t.at? path with
  | none => .absent
  | some .folder => .folder
  | some (.file (some s)) => .text s
  | some (.file none) | some (.database _) => .notText

-- ================================================== changes

/-- Puts a node at a place, whatever was there before. -/
def put (t : Tree) (p : Path) (n : Node) : Tree :=
  ⟨(p, n) :: t.nodes.filter (·.1 != p)⟩

/-- Makes the folders on the way along some parts. -/
def makeFolders (t : Tree) (place : Path) : List String → Tree
  | [] => t
  | part :: rest =>
      let next := place ++ [part]
      let made := if (t.node? next).isSome then t else t.put next .folder
      made.makeFolders next rest

/-- The parts of a path that name something. -/
def namedParts (path : String) : Path :=
  (parts path).filter fun p => p != "" && p != "."

/-- Writes a file, and makes the folders that it needs. -/
def write (t : Tree) (path : String) (text : Option String) : Tree :=
  let p := namedParts path
  (t.makeFolders [] p.dropLast).put p (.file text)

/-- Makes a folder and those that it needs. -/
def makeFolder (t : Tree) (path : String) : Tree :=
  t.makeFolders [] (namedParts path)

/-- Takes away what stands at a path, with all below it. -/
def remove (t : Tree) (path : String) : Tree :=
  let p := namedParts path
  ⟨t.nodes.filter fun (q, _) => !p.isPrefixOf q⟩

end Tree

end WorkRouting
