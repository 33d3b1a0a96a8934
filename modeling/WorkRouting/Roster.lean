/-
An organization held in memory: employees in the order of their registration,
each with the kind of their position and whether they are active, and the
routing rules in the order in which they were added. Inactive employees stay
registered and are never returned.
-/
import WorkRouting.Access.PermissionSet
import WorkRouting.Routing.Directory

namespace WorkRouting

/-- A registered employee. -/
structure Roster.Entry where
  actor : Actor
  kind : Option PositionType := none
  active : Bool := true
  deriving DecidableEq, Repr

structure Roster where
  entries : List Roster.Entry := []
  rules : List Rule := []
  deriving DecidableEq, Repr

namespace Roster

/-- Registers an employee as active. The same id may be registered again. -/
def withUser (r : Roster) (actor : Actor) (kind : Option PositionType) :
    Roster :=
  { r with entries := r.entries ++ [{ actor, kind }] }

def withRule (r : Roster) (rule : Rule) : Roster :=
  { r with rules := r.rules ++ [rule] }

/-- Retires every registration of an id up to now. -/
def deactivate (r : Roster) (user : UserId) : Roster :=
  { r with
    entries := r.entries.map fun e =>
      if e.actor.id = user then { e with active := false } else e }

def active (r : Roster) : List Entry := r.entries.filter (·.active)

/-- The active employees that pass a test, in order of registration. -/
def activeWhere (r : Roster) (test : Entry → Bool) : List Actor :=
  (r.active.filter test).map (·.actor)

/-- Whether a search is for this registration; one without a position never. -/
def Entry.soughtBy (q : HierarchyQuery) (e : Entry) : Bool :=
  match e.kind with
  | none => false
  | some kind => q.accepts e.actor kind

/-- The lookups over a roster. They always succeed. -/
def directory (r : Roster) : Directory where
  findActiveUser user := .ok (r.activeWhere (·.actor.id == user)).head?
  matchingRules ctx := .ok (r.rules.filter (·.fits ctx))
  rulesForOrderType t := .ok (r.rules.filter (·.orderType == some t))
  positionHolders p :=
    .ok ((r.activeWhere (·.actor.position == some p)).mergeSort fun a b =>
      a.id ≤ b.id)
  findByHierarchy q :=
    .ok (least (fun a => [a.id.toInt]) (r.activeWhere (·.soughtBy q)))

end Roster

/-- Permission sets held in memory, by user. -/
structure GrantBook where
  sets : List (UserId × PermissionSet) := []

namespace GrantBook

/-- Puts a set in place of the one the user had. -/
def insert (b : GrantBook) (user : UserId) (set : PermissionSet) : GrantBook :=
  ⟨(user, set) :: b.sets.filter (·.1 != user)⟩

/-- The set of a user; the empty one where none was put. -/
def get (b : GrantBook) (user : UserId) : PermissionSet :=
  ((b.sets.find? (·.1 == user)).map (·.2)).getD .empty

end GrantBook

end WorkRouting
