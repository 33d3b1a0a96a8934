/-
Who executes an order. The decision has three steps and never falls from one to
the next for want of a person: an explicit executor is taken or refused; else
the best matching rule is followed to a holder or to a failure; else, only when
no rule matches, the hierarchy is searched.
-/
import WorkRouting.Event
import WorkRouting.Routing.Directory
import WorkRouting.Routing.Holder

namespace WorkRouting

/-- Why an order has no executor. -/
inductive RoutingError where
  | executorNotFound (user : UserId)
  | noOrganizationalUnit
  | noHolderForPositionType (kind : PositionType)
  | noHolderForPosition (rule : RuleId) (position : PositionId)
  | directory (error : DirectoryError)
  deriving DecidableEq, Repr

def RoutingError.message : RoutingError → String
  | executorNotFound user =>
      s!"executor {idText user} does not exist or is inactive"
  | noOrganizationalUnit => "no organizational unit selected"
  | noHolderForPositionType kind =>
      s!"no employee holds position {kind.name} in the requested unit"
  | noHolderForPosition rule position =>
      "position found but no matching active employee "
        ++ s!"(rule {idText rule}, position {idText position})"
  | directory error => error.message

/-- The executor of an order. Only a rule sets a status; without one the caller
keeps its own initial status. -/
structure Resolution where
  executor : Actor
  status : Option StatusId := none
  ruleFound : Bool := false
  deriving DecidableEq, Repr

/-- The units that a rule fixes for an order type. -/
structure PredefinedRoute where
  department : Option DepartmentId
  otdel : Option OtdelId
  deriving DecidableEq, Repr

namespace Directory

/-- The outcome of a decision, with what it reported. -/
abbrev Decided := Reported (Except RoutingError Resolution)

/-- The explicit executor, if active. -/
def resolveExplicit (d : Directory) (ctx : Context) (user : UserId) :
    Decided :=
  match d.findActiveUser user with
  | .error e => ⟨.error (.directory e), []⟩
  | .ok none => ⟨.error (.executorNotFound user), []⟩
  | .ok (some a) =>
      ⟨.ok { executor := a }, [.resolvedExplicitly ctx.orderType a.id]⟩

/-- The holder that a chosen rule leads to. -/
def resolveByRule (d : Directory) (ctx : Context) (r : Rule) : Decided :=
  match d.positionHolders r.position with
  | .error e => ⟨.error (.directory e), []⟩
  | .ok holders =>
      match r.selectHolder ctx holders with
      | none => ⟨.error (.noHolderForPosition r.id r.position), []⟩
      | some a =>
          ⟨.ok { executor := a, status := some r.status, ruleFound := true },
            [.resolvedByRule ctx.orderType r.id r.position a.id]⟩

/-- The head responsible for the order. The search is reported before it runs,
the executor after it succeeds. -/
def resolveByHierarchy (d : Directory) (ctx : Context) : Decided :=
  match HierarchyQuery.ofContext ctx with
  | none => ⟨.error .noOrganizationalUnit, []⟩
  | some q =>
      let asked := Event.hierarchyQueried q.kind q.predicates.length
      match d.findByHierarchy q with
      | .error e => ⟨.error (.directory e), [asked]⟩
      | .ok none => ⟨.error (.noHolderForPositionType q.kind), [asked]⟩
      | .ok (some a) =>
          ⟨.ok { executor := a },
            [asked, .resolvedByHierarchy ctx.orderType a.id]⟩

/-- The executor of an order. -/
def resolve (d : Directory) (ctx : Context) (explicit : Option UserId) :
    Decided :=
  match explicit with
  | some user => d.resolveExplicit ctx user
  | none =>
      match d.matchingRules ctx with
      | .error e => ⟨.error (.directory e), []⟩
      | .ok candidates =>
          match Rule.select candidates ctx with
          | some r => d.resolveByRule ctx r
          | none => d.resolveByHierarchy ctx

/-- The units that the best pinning rule of exactly this order type fixes. -/
def predefinedRoute (d : Directory) (orderType : OrderTypeId) :
    Except RoutingError (Option PredefinedRoute) :=
  match d.rulesForOrderType orderType with
  | .error e => .error (.directory e)
  | .ok rules =>
      let keyed := rules.filter (·.orderType == some orderType)
      .ok ((Rule.selectPinning keyed).map fun r => ⟨r.department, r.otdel⟩)

end Directory

end WorkRouting
