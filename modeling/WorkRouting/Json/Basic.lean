/-
JSON values. Numbers keep the two forms that differ for a reader of
identifiers: whole numbers, and everything written with a fraction or an
exponent. An object keeps its members in the order of the text, repetitions
included, because whether a repetition matters depends on who reads it.
-/
import WorkRouting.Binary64

namespace WorkRouting

inductive Json where
  | null
  | bool (b : Bool)
  | int (n : Int)
  /-- The number `mantissa · 10 ^ exponent`, not written as a whole number. -/
  | decimal (mantissa exponent : Int)
  | string (s : String)
  | array (items : List Json)
  | object (members : List (String × Json))
  /-- A string, or an object with a key, in which an escape names half a
  surrogate pair. Its syntax is right, so it can be skipped, but not read. -/
  | unreadable
  deriving Repr, Inhabited

namespace Json

/-- The value of the first member with a key. -/
def member? (key : String) (members : List (String × Json)) : Option Json :=
  members.lookup key

/-- The value under a key of an object; nothing for any other value. -/
def get? (v : Json) (key : String) : Option Json :=
  match v with
  | object members => member? key members
  | _ => none

-- ================================================== what can be read

mutual

/-- Whether every part of a value can be read. -/
def readable : Json → Bool
  | null | bool _ | string _ => true
  | int n => Binary64.reaches n.natAbs 0
  | decimal m e => Binary64.reaches m.natAbs e
  | array items => readableItems items
  | object members => readableMembers members
  | unreadable => false

def readableItems : List Json → Bool
  | [] => true
  | v :: rest => readable v && readableItems rest

def readableMembers : List (String × Json) → Bool
  | [] => true
  | (_, v) :: rest => readable v && readableMembers rest

end

mutual

/-- How many arrays and objects lie inside each other, at most. -/
def depth : Json → Nat
  | array items => depthItems items + 1
  | object members => depthMembers members + 1
  | _ => 0

def depthItems : List Json → Nat
  | [] => 0
  | v :: rest => max (depth v) (depthItems rest)

def depthMembers : List (String × Json) → Nat
  | [] => 0
  | (_, v) :: rest => max (depth v) (depthMembers rest)

end

-- ================================================== key order

/-- Puts a member in the place of its key; the value of an earlier member with
that key goes. -/
def insertMember (key : String) (v : Json) :
    List (String × Json) → List (String × Json)
  | [] => [(key, v)]
  | (k, w) :: rest =>
      if key < k then (key, v) :: (k, w) :: rest
      else if key = k then (key, v) :: rest
      else (k, w) :: insertMember key v rest

mutual

/-- The value with the keys of every object in byte order, each once with its
last value. -/
def sorted : Json → Json
  | array items => array (sortedItems items)
  | object members => object (sortedMembers [] members)
  | v => v

def sortedItems : List Json → List Json
  | [] => []
  | v :: rest => sorted v :: sortedItems rest

/-- The members so far with further ones put in their places. -/
def sortedMembers (acc : List (String × Json)) :
    List (String × Json) → List (String × Json)
  | [] => acc
  | (k, v) :: rest => sortedMembers (insertMember k (sorted v) acc) rest

end

end Json

end WorkRouting
