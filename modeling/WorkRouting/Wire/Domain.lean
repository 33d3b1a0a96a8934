/-
The JSON form of every domain value: how it is written, with all fields in
their fixed order and null for an absent one, and how it is read back.
-/
import WorkRouting.Access.Decision
import WorkRouting.Routing.Resolution
import WorkRouting.Wire.Shape

namespace WorkRouting

open Json (int string array object null)
open Wire

-- ================================================== names

def Resource.toJson (r : Resource) : Json := string r.name

def Resource.ofJson? : Json → Option Resource := named? all name

def Action.toJson (a : Action) : Json := string a.name

def Action.ofJson? : Json → Option Action := named? all name

def Scope.toJson (s : Scope) : Json := string s.name

def Scope.ofJson? : Json → Option Scope := named? every name

def OrgLevel.toJson (l : OrgLevel) : Json := string l.name

def OrgLevel.ofJson? : Json → Option OrgLevel := named? all name

def PositionType.toJson (t : PositionType) : Json := string t.name

def PositionType.ofJson? : Json → Option PositionType := named? all name

-- ================================================== access

def Permission.toJson (p : Permission) : Json :=
  object [("resource", p.resource.toJson), ("action", p.action.toJson),
    ("field", p.field.elim null string)]

def Permission.ofJson? (v : Json) : Option Permission := do
  match ← record ["resource", "action", "field"] v with
  | [resource, action, field] =>
      return {
        resource := ← required Resource.ofJson? resource
        action := ← required Action.ofJson? action
        field := ← optional string? field }
  | _ => none

def OrderTarget.members (o : OrderTarget) : List (String × Json) :=
  [("department_id", ofId o.department), ("otdel_id", ofOptionalId o.otdel),
    ("branch_id", ofOptionalId o.branch), ("office_id", ofOptionalId o.office),
    ("creator_id", ofId o.creator), ("executor_id", ofId o.executor)]

def OrderTarget.toJson (o : OrderTarget) : Json := object o.members

def OrderTarget.ofJson? (v : Json) : Option OrderTarget := do
  match ← record ["department_id", "otdel_id", "branch_id", "office_id",
      "creator_id", "executor_id"] v with
  | [department, otdel, branch, office, creator, executor] =>
      return {
        department := ← required id? department
        otdel := ← optional id? otdel
        branch := ← optional id? branch
        office := ← optional id? office
        creator := ← required id? creator
        executor := ← required id? executor }
  | _ => none

def UserTarget.members (u : UserTarget) : List (String × Json) :=
  [("id", ofId u.id), ("department_id", ofId u.department),
    ("branch_id", ofOptionalId u.branch), ("otdel_id", ofOptionalId u.otdel),
    ("office_id", ofOptionalId u.office)]

def UserTarget.toJson (u : UserTarget) : Json := object u.members

def UserTarget.ofJson? (v : Json) : Option UserTarget := do
  match ← record ["id", "department_id", "branch_id", "otdel_id",
      "office_id"] v with
  | [id, department, branch, otdel, office] =>
      return {
        id := ← required id? id
        department := ← required id? department
        branch := ← optional id? branch
        otdel := ← optional id? otdel
        office := ← optional id? office }
  | _ => none

/-- The kind of a target stands before its own fields. -/
def Target.toJson : Target → Json
  | simple => object [("kind", string "simple")]
  | order o => object (("kind", string "order") :: o.members)
  | user u => object (("kind", string "user") :: u.members)

def Target.ofJson? (v : Json) : Option Target := do
  let (kind, rest) ← tagged "kind" v
  if kind = "simple" then
    match rest with
    | array (_ :: _) => none
    | _ => some simple
  else if kind = "order" then (OrderTarget.ofJson? rest).map order
  else if kind = "user" then (UserTarget.ofJson? rest).map user
  else none

-- ================================================== organization

def Actor.toJson (a : Actor) : Json :=
  object [("id", ofId a.id), ("department_id", ofId a.department),
    ("branch_id", ofOptionalId a.branch), ("otdel_id", ofOptionalId a.otdel),
    ("office_id", ofOptionalId a.office),
    ("position_id", ofOptionalId a.position),
    ("is_head", .bool a.isHead)]

def Actor.ofJson? (v : Json) : Option Actor := do
  match ← record ["id", "department_id", "branch_id", "otdel_id",
      "office_id", "position_id", "is_head"] v with
  | [id, department, branch, otdel, office, position, isHead] =>
      return {
        id := ← required id? id
        department := ← required id? department
        branch := ← optional id? branch
        otdel := ← optional id? otdel
        office := ← optional id? office
        position := ← optional id? position
        isHead := ← required bool? isHead }
  | _ => none

def Position.toJson (p : Position) : Json :=
  object [("id", ofId p.id), ("position_type", p.kind.toJson),
    ("department_id", ofOptionalId p.department),
    ("otdel_id", ofOptionalId p.otdel), ("branch_id", ofOptionalId p.branch),
    ("office_id", ofOptionalId p.office)]

def Position.ofJson? (v : Json) : Option Position := do
  match ← record ["id", "position_type", "department_id", "otdel_id",
      "branch_id", "office_id"] v with
  | [id, kind, department, otdel, branch, office] =>
      return {
        id := ← required id? id
        kind := ← required PositionType.ofJson? kind
        department := ← optional id? department
        otdel := ← optional id? otdel
        branch := ← optional id? branch
        office := ← optional id? office }
  | _ => none

-- ================================================== routing

def Context.toJson (c : Context) : Json :=
  object [("order_type_id", ofId c.orderType),
    ("department_id", ofOptionalId c.department),
    ("otdel_id", ofOptionalId c.otdel), ("branch_id", ofOptionalId c.branch),
    ("office_id", ofOptionalId c.office)]

def Context.ofJson? (v : Json) : Option Context := do
  match ← record ["order_type_id", "department_id", "otdel_id",
      "branch_id", "office_id"] v with
  | [orderType, department, otdel, branch, office] =>
      return {
        orderType := ← required id? orderType
        department := ← optional id? department
        otdel := ← optional id? otdel
        branch := ← optional id? branch
        office := ← optional id? office }
  | _ => none

def Rule.toJson (r : Rule) : Json :=
  object [("id", ofId r.id), ("order_type_id", ofOptionalId r.orderType),
    ("department_id", ofOptionalId r.department),
    ("otdel_id", ofOptionalId r.otdel),
    ("branch_id", ofOptionalId r.branch), ("office_id", ofOptionalId r.office),
    ("assign_to_position_id", ofId r.position), ("status_id", ofId r.status)]

def Rule.ofJson? (v : Json) : Option Rule := do
  match ← record ["id", "order_type_id", "department_id", "otdel_id",
      "branch_id", "office_id", "assign_to_position_id",
      "status_id"] v with
  | [id, orderType, department, otdel, branch, office, position, status] =>
      return {
        id := ← required id? id
        orderType := ← optional id? orderType
        department := ← optional id? department
        otdel := ← optional id? otdel
        branch := ← optional id? branch
        office := ← optional id? office
        position := ← required id? position
        status := ← required id? status }
  | _ => none

namespace UnitPredicate

/-- The condition that a level and an identifier make. -/
def atLevel (l : OrgLevel) (n : Int64) : UnitPredicate :=
  match l with
  | .department => department n
  | .otdel => otdel n
  | .branch => branch n
  | .office => office n

def toJson (p : UnitPredicate) : Json :=
  object [("unit", p.level.toJson), ("id", ofId p.id)]

def ofJson? (v : Json) : Option UnitPredicate := do
  match ← record ["unit", "id"] v with
  | [level, n] =>
      return atLevel (← required OrgLevel.ofJson? level) (← required id? n)
  | _ => none

end UnitPredicate

def HierarchyQuery.toJson (q : HierarchyQuery) : Json :=
  object [("position_type", q.kind.toJson),
    ("predicates", array (q.predicates.map UnitPredicate.toJson))]

def HierarchyQuery.ofJson? (v : Json) : Option HierarchyQuery := do
  match ← record ["position_type", "predicates"] v with
  | [kind, predicates] =>
      return {
        kind := ← required PositionType.ofJson? kind
        predicates := ← required (list? UnitPredicate.ofJson?) predicates }
  | _ => none

def Resolution.toJson (r : Resolution) : Json :=
  object [("executor", r.executor.toJson),
    ("status_id", ofOptionalId r.status), ("rule_found", .bool r.ruleFound)]

def Resolution.ofJson? (v : Json) : Option Resolution := do
  match ← record ["executor", "status_id", "rule_found"] v with
  | [executor, status, ruleFound] =>
      return {
        executor := ← required Actor.ofJson? executor
        status := ← optional id? status
        ruleFound := ← required bool? ruleFound }
  | _ => none

def PredefinedRoute.toJson (r : PredefinedRoute) : Json :=
  object [("department_id", ofOptionalId r.department),
    ("otdel_id", ofOptionalId r.otdel)]

def PredefinedRoute.ofJson? (v : Json) : Option PredefinedRoute := do
  match ← record ["department_id", "otdel_id"] v with
  | [department, otdel] =>
      return {
        department := ← optional id? department
        otdel := ← optional id? otdel }
  | _ => none

-- ================================================== events

def Event.Field.toJson : Event.Field → Json
  | number n => int n
  | flag b => .bool b
  | text s => string s

def Event.toJson (e : Event) : Json :=
  object ([("level", string e.level.name), ("event_name", string e.name),
    ("message", string e.message)] ++ e.fields.map fun (k, f) => (k, f.toJson))

end WorkRouting
