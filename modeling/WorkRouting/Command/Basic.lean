/-
The commands and what each of them is given.
-/
import WorkRouting.Access.Decision
import WorkRouting.Routing.Rule

namespace WorkRouting

/-- A question about a permission. The target is another employee, an order, a
reference row or nothing; what is given for an order may be incomplete. -/
structure AccessQuestion where
  user : UserId
  permission : String
  isSimple : Bool := false
  targetUser : Option UserId := none
  orderDepartment : Option DepartmentId := none
  orderOtdel : Option OtdelId := none
  orderBranch : Option BranchId := none
  orderOffice : Option OfficeId := none
  orderCreator : Option UserId := none
  orderExecutor : Option UserId := none
  deriving DecidableEq, Repr

namespace AccessQuestion

/-- Whether anything about an order is given. -/
def mentionsOrder (q : AccessQuestion) : Bool :=
  q.orderDepartment.isSome || q.orderOtdel.isSome || q.orderBranch.isSome
    || q.orderOffice.isSome || q.orderCreator.isSome
    || q.orderExecutor.isSome

/-- The order, if its department, creator and executor are given. -/
def order? (q : AccessQuestion) : Option OrderTarget := do
  return {
    department := ← q.orderDepartment
    otdel := q.orderOtdel
    branch := q.orderBranch
    office := q.orderOffice
    creator := ← q.orderCreator
    executor := ← q.orderExecutor }

end AccessQuestion

inductive Command where
  /-- Make the tables. -/
  | migrate
  /-- Make the tables and load the demo organization. -/
  | seed
  /-- Report on the settings. -/
  | config
  /-- Find the executor of an order. -/
  | route (order : Context) (executor : Option UserId)
  /-- Find the units that are fixed for an order type. -/
  | predefinedRoute (orderType : OrderTypeId)
  /-- Evaluate a permission. -/
  | can (question : AccessQuestion)
  deriving DecidableEq, Repr

end WorkRouting
