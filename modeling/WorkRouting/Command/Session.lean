/-
An open database, and the three things that are done with one: making its
tables, loading the demo organization, and asking it. A database that is only
read refuses the first two as far as they would change it.
-/
import WorkRouting.Failure
import WorkRouting.Store.Demo
import WorkRouting.Store.Permissions

namespace WorkRouting

/-- An open database. -/
structure Session where
  database : Database
  writable : Bool := true

/-- Why work on an open database stopped. -/
inductive WorkError where
  | migration (error : StoreError)
  | seeding (error : StoreError)
  | application (error : ApplicationError)
  deriving DecidableEq, Repr

namespace Session

/-- Makes the tables that are missing; where none is, nothing is written. -/
def migrate (s : Session) : Session × Except WorkError Unit :=
  if s.database.isMigrated then (s, .ok ())
  else if s.writable then ({ s with database := s.database.migrate }, .ok ())
  else (s, .error (.migration .readOnly))

/-- Loads the demo organization into an open database that has its tables. -/
def loadDemo (s : Session) : Session × Except WorkError DemoSummary :=
  if !s.writable then (s, .error (.seeding .readOnly))
  else
    match s.database.seedDemo.answer with
    | .error e => (s, .error (.seeding e))
    | .ok (db, summary) => ({ s with database := db }, .ok summary)

/-- Makes the tables and loads the demo organization. -/
def seed (s : Session) : Session × Except WorkError DemoSummary :=
  match s.migrate with
  | (s, .error e) => (s, .error e)
  | (s, .ok ()) => s.loadDemo

/-- Asks the database something that changes nothing. -/
def ask (s : Session) (question : Database → Except ApplicationError α) :
    Session × Except WorkError α :=
  (s, (question s.database).mapError .application)

end Session

end WorkRouting
