/-
The reader of TOML documents. A document is a sequence of lines, each empty, a
header or a key with its value; what a line adds goes into the table that the
last header opened. A document that breaks a rule anywhere is refused as a
whole.
-/
import WorkRouting.Toml.Scalar

namespace WorkRouting.Toml

/-- The text after blanks, comments and line ends, as they may stand between
the items of an array. -/
def skipBetween : Nat → List Char → List Char
  | 0, cs => cs
  | fuel + 1, cs =>
      let cs := skipBlanks cs
      match lineEnd? cs with
      | some rest => skipBetween fuel rest
      | none =>
          match cs with
          | '#' :: _ =>
              let rest := skipComment cs
              match lineEnd? rest with
              | some rest => skipBetween fuel rest
              | none => rest
          | _ => cs

def skipAll (cs : List Char) : List Char := skipBetween (cs.length + 1) cs

/-- A value that is a letter word. -/
def word (cs : List Char) : Scan Toml :=
  match Text.after? "true".toList cs with
  | some rest => some (boolean true, rest)
  | none =>
      match Text.after? "false".toList cs with
      | some rest => some (boolean false, rest)
      | none => floatScan cs

mutual

/-- A value at the head of a text, inside `depth` arrays and inline tables. -/
def value : Nat → Nat → List Char → Scan Toml
  | 0, _, _ => none
  | fuel + 1, depth, cs =>
      match cs with
      | [] => none
      | '"' :: _ | '\'' :: _ =>
          (stringScan cs).map fun (s, rest) => (string s, rest)
      | '[' :: rest =>
          if depth + 1 < depthLimit then
            (items fuel (depth + 1) rest).map fun (vs, after) =>
              (array false vs, after)
          else none
      | '\x7b' :: rest =>
          if depth + 1 < depthLimit then
            match skipBlanks rest with
            | '\x7d' :: after => some (table .inline [], after)
            | _ => (pairs fuel (depth + 1) [] rest).map fun (es, after) =>
                (table .inline es, after)
          else none
      | c :: _ =>
          if Text.isDigit c || c = '+' || c = '-' then numberScan cs
          else if c = 't' || c = 'f' || c = 'i' || c = 'n' then word cs
          else none

/-- The items of an array up to its closing bracket; a comma may stand behind
the last one. -/
def items : Nat → Nat → List Char → Scan (List Toml)
  | 0, _, _ => none
  | fuel + 1, depth, cs =>
      match skipAll cs with
      | ']' :: after => some ([], after)
      | cs =>
          match value fuel depth cs with
          | none => none
          | some (v, rest) =>
              match skipAll rest with
              | ',' :: more =>
                  (items fuel depth more).map fun (vs, after) =>
                    (v :: vs, after)
              | ']' :: after => some ([v], after)
              | _ => none

/-- The pairs of an inline table up to its closing brace, added to those before
them; no comma behind the last one. -/
def pairs : Nat → Nat → Entries → List Char → Scan Entries
  | 0, _, _, _ => none
  | fuel + 1, depth, entries, cs =>
      match keyScan cs with
      | none => none
      | some (names, rest) =>
          match rest with
          | '=' :: rest =>
              match value fuel depth (skipBlanks rest) with
              | none => none
              | some (v, rest) =>
                  let key := names.getLastD ""
                  match put names.dropLast key v .inline entries with
                  | none => none
                  | some entries =>
                      match skipBlanks rest with
                      | ',' :: more => pairs fuel depth entries more
                      | '\x7d' :: after => some (entries, after)
                      | _ => none
          | _ => none

end

-- ================================================== documents

/-- What has been read: all tables, and the path of the one that a line adds
to. -/
structure Document where
  entries : Entries := []
  path : List String := []

/-- The text behind a line that is finished, comment and line end included. -/
def finishLine (cs : List Char) : Option (List Char) :=
  match skipComment (skipBlanks cs) with
  | [] => some []
  | rest => lineEnd? rest

namespace Document

/-- Opens the table, or the next table of the array, that a header names. -/
def openAt (d : Document) (item : Bool) (names : List String) :
    Option Document := do
  let key := names.getLastD ""
  let entries ← changeAt
    (fun _ es => if item then openItem key es else openTable key es)
    false names.dropLast .header d.entries
  return ⟨entries, names⟩

/-- Adds a pair to the open table. -/
def add (d : Document) (names : List String) (v : Toml) : Option Document := do
  let entries ← changeAt
    (fun origin es => put names.dropLast (names.getLastD "") v origin es)
    false d.path .header d.entries
  return { d with entries }

/-- A header behind its first bracket. -/
def header (d : Document) (cs : List Char) : Option (Document × List Char) :=
  match cs with
  | '[' :: rest => do
      let (names, rest) ← keyScan rest
      let rest ← Text.after? [']', ']'] rest
      return (← d.openAt true names, ← finishLine rest)
  | _ => do
      let (names, rest) ← keyScan cs
      let rest ← expect ']' rest
      return (← d.openAt false names, ← finishLine rest)

/-- A key with its value. -/
def pair (d : Document) (cs : List Char) : Option (Document × List Char) := do
  let (names, rest) ← keyScan cs
  let rest ← expect '=' rest
  let (v, rest) ← value (2 * rest.length + 2) 0 (skipBlanks rest)
  return (← d.add names v, ← finishLine rest)

/-- Reads the lines of a text into a document. -/
def lines : Nat → Document → List Char → Option Document
  | 0, _, _ => none
  | fuel + 1, d, cs =>
      match skipBlanks cs with
      | [] => some d
      | '[' :: rest =>
          match d.header rest with
          | some (d, rest) => lines fuel d rest
          | none => none
      | c :: rest =>
          if c = '#' || c = '\n' || c = '\r' then
            match finishLine (c :: rest) with
            | some after => lines fuel d after
            | none => none
          else
            match d.pair (c :: rest) with
            | some (d, rest) => lines fuel d rest
            | none => none

end Document

/-- The text without a byte order mark at its head. -/
def withoutMark : List Char → List Char
  | c :: rest => if c.toNat = 0xFEFF then rest else c :: rest
  | [] => []

/-- The document that a text is. -/
def read (text : String) : Option Toml :=
  let cs := withoutMark text.toList
  (Document.lines (cs.length + 1) {} cs).map fun d => table .header d.entries

end WorkRouting.Toml
