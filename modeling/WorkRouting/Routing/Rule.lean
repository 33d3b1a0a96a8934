/-
Routing rules. A rule pins some columns of an order and leaves the others open;
it matches an order that has every pinned value. Of the matching rules the one
with the least precedence key is chosen: order type, otdel, office, department
and branch decide in this order, a pinned column before an open one, and the
rule id decides last. How many columns a rule leaves open over all is no
criterion.
-/
import WorkRouting.Least
import WorkRouting.Org

namespace WorkRouting

/-- What an order says about where it belongs. -/
structure Context where
  orderType : OrderTypeId
  department : Option DepartmentId := none
  otdel : Option OtdelId := none
  branch : Option BranchId := none
  office : Option OfficeId := none
  deriving DecidableEq, Repr

/-- Where orders of one shape go. A column without a value is open. -/
structure Rule where
  id : RuleId
  orderType : Option OrderTypeId := none
  department : Option DepartmentId := none
  otdel : Option OtdelId := none
  branch : Option BranchId := none
  office : Option OfficeId := none
  position : PositionId
  status : StatusId
  deriving DecidableEq, Repr

namespace Rule

/-- Whether a column admits the value of an order; a pinned column never admits
an order without a value. -/
def columnAdmits (pinned value : Option Int64) : Bool :=
  match pinned with
  | none => true
  | some p => value == some p

def fits (r : Rule) (ctx : Context) : Bool :=
  columnAdmits r.orderType (some ctx.orderType)
    && columnAdmits r.department ctx.department
    && columnAdmits r.otdel ctx.otdel
    && columnAdmits r.branch ctx.branch
    && columnAdmits r.office ctx.office

/-- The precedence key; the least key wins. -/
def precedence (r : Rule) : Key :=
  [Key.preferring r.orderType.isSome, Key.preferring r.otdel.isSome,
    Key.preferring r.office.isSome, Key.preferring r.department.isSome,
    Key.preferring r.branch.isSome, r.id.toInt]

/-- The matching rule with the least key; of equal keys the first. -/
def select (rules : List Rule) (ctx : Context) : Option Rule :=
  least precedence (rules.filter (·.fits ctx))

/-- Whether a rule fixes a department or an otdel for its order type. -/
def pinsUnit (r : Rule) : Bool :=
  r.orderType.isSome && (r.department.isSome || r.otdel.isSome)

/-- The rule that fixes the unit among rules of one order type. -/
def selectPinning (rules : List Rule) : Option Rule :=
  least precedence (rules.filter pinsUnit)

end Rule

end WorkRouting
