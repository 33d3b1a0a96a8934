/-
TOML values, and how tables grow while a document is read. A table remembers
how it came to be, because that decides who may still add to it: a header may
only open a table that other headers have implied, a dotted key may only extend
what dotted keys have made, and an inline table is closed as soon as it is
read.
-/
namespace WorkRouting

/-- How a table came to be. -/
inductive Toml.Origin where
  /-- Named by a header of its own, or the document itself. -/
  | header
  /-- On the way to a table that a header names. -/
  | implied
  /-- On the way to a value that a dotted key names. -/
  | dotted
  /-- Written between braces. -/
  | inline
  deriving DecidableEq, Repr

inductive Toml where
  | string (s : String)
  | integer (n : Int)
  | float (literal : String)
  | boolean (b : Bool)
  | datetime (literal : String)
  /-- An array; one made by headers holds tables and grows by further
  headers. -/
  | array (byHeaders : Bool) (items : List Toml)
  | table (origin : Toml.Origin) (entries : List (String × Toml))
  deriving Repr, Inhabited

namespace Toml

abbrev Entries := List (String × Toml)

/-- The value under a key of a table. -/
def get? (v : Toml) (key : String) : Option Toml :=
  match v with
  | table _ entries => entries.lookup key
  | _ => none

/-- The value at the end of a path of keys. -/
def at? (v : Toml) : List String → Option Toml
  | [] => some v
  | key :: path => (v.get? key).bind (·.at? path)

-- ================================================== growing tables

/-- The entries with another value under a key that is there. -/
def replace (key : String) (v : Toml) (entries : Entries) : Entries :=
  entries.map fun (k, w) => if k = key then (k, v) else (k, w)

/-- The origin of tables made on the way along a path. -/
def passing (dotted : Bool) : Origin := if dotted then .dotted else .implied

/-- Changes the table at the end of a path, making the tables on the way that
are missing. The way leads through the last table of an array made by headers;
it leads into no other value, into no inline table, and for a dotted key into
no table with a header. -/
def changeAt (act : Origin → Entries → Option Entries) (dotted : Bool) :
    List String → Origin → Entries → Option Entries
  | [], origin, entries => act origin entries
  | key :: path, _, entries =>
      match entries.lookup key with
      | none =>
          (changeAt act dotted path (passing dotted) []).map fun sub =>
            entries ++ [(key, table (passing dotted) sub)]
      | some (table origin sub) =>
          if origin = .inline || (dotted && origin = .header) then none
          else
            (changeAt act dotted path origin sub).map fun sub =>
              replace key (table origin sub) entries
      | some (array true items) =>
          match items.getLast? with
          | some (table origin sub) =>
              (changeAt act dotted path origin sub).map fun sub =>
                let items := items.dropLast ++ [table origin sub]
                replace key (array true items) entries
          | _ => none
      | some _ => none

/-- Puts a value under a new key. A path that is not empty has to end in a
table that dotted keys have made. -/
def put (path : List String) (key : String) (v : Toml) (origin : Origin)
    (entries : Entries) : Option Entries :=
  changeAt
    (fun origin entries =>
      if (origin = .dotted) = (path = []) then none
      else if (entries.lookup key).isSome then none
      else some (entries ++ [(key, v)]))
    true path origin entries

/-- Opens the table that a header names. -/
def openTable (key : String) (entries : Entries) : Option Entries :=
  match entries.lookup key with
  | none => some (entries ++ [(key, table .header [])])
  | some (table .implied sub) => some (replace key (table .header sub) entries)
  | some _ => none

/-- Opens the next table of the array that a header names. -/
def openItem (key : String) (entries : Entries) : Option Entries :=
  match entries.lookup key with
  | none => some (entries ++ [(key, array true [table .header []])])
  | some (array true items) =>
      some (replace key (array true (items ++ [table .header []])) entries)
  | some _ => none

end Toml

end WorkRouting
