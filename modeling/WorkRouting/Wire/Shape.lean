/-
The shapes in which domain values are written as JSON, each with its reader.
A record is an object whose unknown keys are skipped and whose known keys may
come in any order but not twice; it may also be an array of all its fields in
their order. An optional field may be null or, in an object, missing.
-/
import WorkRouting.Json.Basic
import WorkRouting.Org

namespace WorkRouting.Wire

open Json (int string array object null)

-- ================================================== scalars

def ofId (n : Int64) : Json := int n.toInt

def ofOptionalId (n : Option Int64) : Json := n.elim null ofId

def id? : Json → Option Int64
  | int n => id64? n
  | _ => none

def bool? : Json → Option Bool
  | .bool b => some b
  | _ => none

def string? : Json → Option String
  | string s => some s
  | _ => none

/-- Null is read as nothing. -/
def nullable? (read : Json → Option α) : Json → Option (Option α)
  | null => some none
  | v => (read v).map some

/-- A value of an enumeration: its name, or an object with its name as the one
key and null under it. -/
def named? (all : List α) (name : α → String) : Json → Option α
  | string s => all.find? (name · == s)
  | object [(s, null)] => all.find? (name · == s)
  | _ => none

-- ================================================== records

/-- The value under a key that may occur once at most: the outer nothing is a
repetition, the inner one an absence. -/
def once (members : List (String × Json)) (key : String) :
    Option (Option Json) :=
  match members.filter (·.1 == key) with
  | [] => some none
  | [(_, v)] => some (some v)
  | _ => none

/-- The fields of a record in their order, with nothing for a missing one. -/
def record (names : List String) : Json → Option (List (Option Json))
  | object members => names.mapM (once members)
  | array items =>
      if items.length = names.length then some (items.map some) else none
  | _ => none

/-- A field that has to be there. -/
def required (read : Json → Option α) (field : Option Json) : Option α :=
  field.bind read

/-- A field that may be null or missing. -/
def optional (read : Json → Option α) (field : Option Json) :
    Option (Option α) :=
  match field with
  | none => some none
  | some v => nullable? read v

/-- All items of an array. -/
def list? (read : Json → Option α) : Json → Option (List α)
  | array items => items.mapM read
  | _ => none

-- ================================================== tagged records

/-- How deep a value may be that is read as a whole before its tag is known. -/
def depthLimit : Nat := 127

/-- A record with its tag among its members, or as the first item of an array,
and what is left of it. The tag may stand anywhere, so all of the value has to
be readable. -/
def tagged (tag : String) (v : Json) : Option (String × Json) :=
  if v.readable && v.depth ≤ depthLimit then
    match v with
    | object members =>
        match once members tag with
        | some (some (string kind)) =>
            some (kind, object (members.filter (·.1 != tag)))
        | _ => none
    | array (string kind :: rest) => some (kind, array rest)
    | _ => none
  else none

end WorkRouting.Wire
