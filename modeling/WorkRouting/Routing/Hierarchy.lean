/-
The search up the hierarchy, for orders that no rule matches. The first unit on
the order — department, otdel, branch, office — says whose head is responsible,
and the order's units narrow the search down to that unit.
-/
import WorkRouting.Routing.Rule

namespace WorkRouting

/-- A condition on the unit an employee belongs to. -/
inductive UnitPredicate where
  | department (id : DepartmentId)
  | otdel (id : OtdelId)
  | branch (id : BranchId)
  | office (id : OfficeId)
  deriving DecidableEq, Repr

namespace UnitPredicate

def level : UnitPredicate → OrgLevel
  | department _ => .department
  | otdel _ => .otdel
  | branch _ => .branch
  | office _ => .office

def id : UnitPredicate → Int64
  | department n | otdel n | branch n | office n => n

def holdsFor (p : UnitPredicate) (a : Actor) : Bool :=
  match p with
  | department n => a.department == n
  | otdel n => a.otdel == some n
  | branch n => a.branch == some n
  | office n => a.office == some n

end UnitPredicate

/-- A search for the holder of a kind of position. -/
structure HierarchyQuery where
  kind : PositionType
  predicates : List UnitPredicate
  deriving DecidableEq, Repr

/-- The kind of position responsible for an order: the head at the level of its
first unit. -/
def Context.responsible (ctx : Context) : Option PositionType :=
  if ctx.department.isSome then some .headOfDepartment
  else if ctx.otdel.isSome then some .managerOfOtdel
  else if ctx.branch.isSome then some .branchDirector
  else if ctx.office.isSome then some .headOfOffice
  else none

namespace HierarchyQuery

/-- The search for the head responsible for an order. A head of department is
found by the department alone; at the other levels a branch on the order
narrows the search as well. -/
def ofContext (ctx : Context) : Option HierarchyQuery :=
  ctx.responsible.map fun kind =>
    let level := kind.orgLevel
    let atLevel (l : OrgLevel) (id : Option Int64)
        (make : Int64 → UnitPredicate) :=
      if level = some l then (id.map make).toList else []
    { kind
      predicates :=
        atLevel .department ctx.department .department
          ++ atLevel .otdel ctx.otdel .otdel
          ++ (if level = some .department then []
              else (ctx.branch.map .branch).toList)
          ++ atLevel .office ctx.office .office }

/-- Whether an employee with this kind of position is one the search is for. -/
def accepts (q : HierarchyQuery) (a : Actor) (kind : PositionType) : Bool :=
  kind == q.kind && q.predicates.all (·.holdsFor a)

end HierarchyQuery

end WorkRouting
