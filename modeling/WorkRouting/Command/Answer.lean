/-
What the commands ask a database, and what they say about the answers.
-/
import WorkRouting.Command.Basic
import WorkRouting.Command.Outcome
import WorkRouting.Command.Session
import WorkRouting.Wire.Domain

namespace WorkRouting

-- ================================================== questions

namespace Database

/-- The executor of an order. -/
def executorOf (db : Database) (order : Context) (explicit : Option UserId) :
    Except ApplicationError Resolution :=
  (db.directory.resolve order explicit).answer.mapError
    RoutingError.toApplication

/-- The units fixed for an order type. -/
def unitsOf (db : Database) (orderType : OrderTypeId) :
    Except ApplicationError (Option PredefinedRoute) :=
  (db.directory.predefinedRoute orderType).mapError RoutingError.toApplication

/-- An employee who is asked for by id. -/
def presentUser (db : Database) (user : UserId) :
    Except ApplicationError Actor :=
  match db.activeUser user with
  | .error e => .error (.persistence e.message)
  | .ok none =>
      .error (.domain
        (.notFound s!"user {idText user} does not exist or is inactive"))
  | .ok (some a) => .ok a

/-- The target of a question: an employee before an order, and an order before
a reference row. -/
def targetOf (db : Database) (q : AccessQuestion) :
    Except ApplicationError (Option Target) :=
  match q.targetUser with
  | some user => (db.presentUser user).map fun a => some (.user a.toTarget)
  | none =>
      match q.order? with
      | some o => .ok (some (.order o))
      | none => .ok (if q.isSimple then some .simple else none)

/-- Whether a user may use a permission on the target of a question. -/
def evaluate (db : Database) (q : AccessQuestion) (p : Permission) :
    Except ApplicationError Bool := do
  let actor ← db.presentUser q.user
  let target ← db.targetOf q
  match (db.permissionSet q.user).answer with
  | .error e => throw (.persistence e.message)
  | .ok held => return canDo p actor held target

end Database

/-- The permission that a question is about. A permission that cannot be read
and half an order are refused without looking at any database. -/
def AccessQuestion.permission? (q : AccessQuestion) :
    Except ApplicationError Permission :=
  match Permission.parse q.permission with
  | .error e => .error (.domain (.badRequest e.message))
  | .ok p =>
      if q.mentionsOrder && q.order?.isNone then
        .error (.domain (.badRequest
          ("an order target needs --order-department, --order-creator "
            ++ "and --order-executor")))
      else .ok p

-- ================================================== answers

namespace Outcome

def ofMigration : Outcome := success "migrate" "applied pending migrations"

def ofSummary (n : DemoSummary) : Outcome :=
  success "seed"
    (s!"demo org loaded: {n.departments} departments, {n.users} users "
      ++ s!"({n.activeUsers} active), {n.routingRules} routing rules")

def ofResolution (r : Resolution) : Outcome :=
  let how :=
    if r.ruleFound then "by routing rule" else "without a routing rule"
  successWithData "route" s!"executor {idText r.executor.id} assigned {how}"
    (some r.toJson)

def ofPredefinedRoute (orderType : OrderTypeId) :
    Option PredefinedRoute → Outcome
  | some r =>
      successWithData "predefined-route"
        s!"order type {idText orderType} has a predefined route"
        (some r.toJson)
  | none =>
      success "predefined-route"
        s!"order type {idText orderType} has no predefined route"

def ofDecision (user : UserId) (p : Permission) (allowed : Bool) : Outcome :=
  successWithData "can" (if allowed then "allowed" else "denied")
    (some (.object [("user_id", Wire.ofId user),
      ("permission", .string p.render), ("allowed", .bool allowed)]))

end Outcome

end WorkRouting
