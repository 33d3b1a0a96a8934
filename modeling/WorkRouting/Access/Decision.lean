/-
The access decision. A permission is held or not; where it is held, the scopes
of the set say on which rows it may be used. A check without a target asks
about the collection, a check with one about that row.
-/
import WorkRouting.Access.PermissionSet

namespace WorkRouting

-- ================================================== targets

/-- The ownership of an order. -/
structure OrderTarget where
  department : DepartmentId
  otdel : Option OtdelId := none
  branch : Option BranchId := none
  office : Option OfficeId := none
  creator : UserId
  executor : UserId
  deriving DecidableEq, Repr

/-- Another employee as the object of an action. -/
structure UserTarget where
  id : UserId
  department : DepartmentId
  branch : Option BranchId := none
  otdel : Option OtdelId := none
  office : Option OfficeId := none
  deriving DecidableEq, Repr

/-- The row an action is aimed at. -/
inductive Target where
  /-- A reference row, which nobody owns. -/
  | simple
  | order (o : OrderTarget)
  | user (u : UserTarget)
  deriving DecidableEq, Repr

/-- An employee as a target. -/
def Actor.toTarget (a : Actor) : UserTarget :=
  { id := a.id, department := a.department, branch := a.branch,
    otdel := a.otdel, office := a.office }

-- ================================================== reach of a scope

/-- The same unit on both sides; an absent unit is not the same as anything. -/
def sameUnit (mine theirs : Option Int64) : Bool :=
  match mine, theirs with
  | some a, some b => a == b
  | _, _ => false

/-- Whether a narrow scope of the actor reaches the target. -/
def Scope.reaches (actor : Actor) (target : Target) (s : Scope) : Bool :=
  match target with
  | .simple => false
  | .order o =>
      match s with
      | department => actor.department == o.department
      | otdel => sameUnit actor.otdel o.otdel
      | branch => sameUnit actor.branch o.branch
      | office => sameUnit actor.office o.office
      | own => actor.id == o.creator || actor.id == o.executor
      | all => false
  | .user u =>
      match s with
      | department => actor.department == u.department
      | otdel => sameUnit actor.otdel u.otdel
      | branch => sameUnit actor.branch u.branch
      | office => sameUnit actor.office u.office
      | own => actor.id == u.id
      | all => false

-- ================================================== the decision

/-- Whether the actor may use the permission. A creation has no row to compare
yet, a reference row is read by whoever holds the permission and written under
the scope of everything, and an owned row needs a scope that reaches it. -/
def canDo (p : Permission) (actor : Actor) (held : PermissionSet)
    (target : Option Target) : Bool :=
  if held.isSuperuser then true
  else if !held.contains p then false
  else if p.action = .create then true
  else if p.resource.isSimple then p.action = .view || held.hasScope .all
  else if held.hasScope .all then true
  else match target with
    | none => held.hasAnyScope Scope.narrow
    | some t => Scope.narrow.any fun s => held.hasScope s && s.reaches actor t

/-- A denial, as it leaves the access check. -/
structure AccessDenied where
  actor : UserId
  permission : String
  deriving DecidableEq, Repr

def AccessDenied.message (d : AccessDenied) : String :=
  s!"actor {idText d.actor} is not allowed to `{d.permission}`"

/-- The decision for callers that pass a denial on; only a denial is
reported. -/
def authorize (p : Permission) (actor : Actor) (held : PermissionSet)
    (target : Option Target) : Reported (Except AccessDenied Unit) :=
  if canDo p actor held target then ⟨.ok (), []⟩
  else ⟨.error ⟨actor.id, p.render⟩, [.accessDenied actor.id p target.isSome]⟩

end WorkRouting
