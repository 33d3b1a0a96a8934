/-
A database: blank until its tables are made, then a store. Statements name
tables and columns by text; a name that means nothing is refused before
anything is written.
-/
import WorkRouting.Store.Write

namespace WorkRouting

/-- A statement that writes. A condition asks every named column to be the
value given for it, null included. -/
inductive Statement where
  | insert (table : String) (row : List (String × Value))
  | update (table : String) (changes condition : List (String × Value))
  | delete (table : String) (condition : List (String × Value))
  deriving DecidableEq, Repr

def Statement.table : Statement → String
  | insert table _ | update table .. | delete table _ => table

inductive Database where
  /-- No tables yet. -/
  | blank
  | ready (store : Store)

namespace Database

/-- Makes the tables; a database that has them stays as it is. -/
def migrate : Database → Database
  | blank => ready .empty
  | ready s => ready s

def isMigrated : Database → Bool
  | blank => false
  | ready _ => true

/-- The store behind a table, for a statement that needs it. -/
def storeFor (db : Database) (table : String) : Except StoreError Store :=
  match db with
  | blank => .error (.noTable table)
  | ready s => .ok s

/-- The column of a table with a name. -/
def column (t : Table) (inserting : Bool) (name : String) :
    Except StoreError Column :=
  match t.columns.find? (·.title == name) with
  | some c => .ok c
  | none => .error (.noColumn t name inserting)

/-- Named values as values of columns. -/
def columns (t : Table) (inserting : Bool) (named : List (String × Value)) :
    Except StoreError (List (Column × Value)) :=
  named.mapM fun (name, v) => return (← column t inserting name, v)

/-- Whether a row has the values asked for. An id is looked up as it stands,
any other value is compared. -/
def meets (condition : List (Column × Value)) (r : Row) : Bool :=
  condition.all fun (c, v) =>
    let wanted := c.affinity.apply v
    if c = .id then r c == wanted else (r c).same wanted

/-- Executes a statement; beside the new database, the number of rows that it
wrote itself. -/
def execute (db : Database) (st : Statement) :
    Except StoreError (Database × Nat) := do
  let s ← db.storeFor st.table
  match Table.all.find? (·.name == st.table) with
  | none => throw (.noTable st.table)
  | some t =>
      match st with
      | .insert _ row =>
          return (ready (← s.insert t (← columns t true row)), 1)
      | .update _ changes condition =>
          let changes ← columns t false changes
          let selects := meets (← columns t false condition)
          return (ready (← s.update t changes selects), s.count t selects)
      | .delete _ condition =>
          let selects := meets (← columns t false condition)
          return (ready (← s.delete t selects), s.count t selects)

/-- The states that a migrated database can come to. -/
inductive Reachable : Database → Prop
  | migrated : Reachable (ready .empty)
  | wrote {db db' : Database} {st : Statement} {n : Nat} :
      Reachable db → db.execute st = .ok (db', n) → Reachable db'

/-- The database after a transaction: what its steps left, or, taken back, what
it was before them. -/
def closed (before after : Database) (commit : Bool) : Database :=
  if commit then after else before

end Database

end WorkRouting
