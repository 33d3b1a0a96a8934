/-
The eleven tables: their columns, what must be present, what must be unique,
which rows a row refers to, and what goes with a deleted row. The rules are
data, so that one account of a write serves every table.
-/
import WorkRouting.Store.Value

namespace WorkRouting

inductive Table where
  | departments | otdels | branches | offices | positions | users
  | orderRoutingRules | roles | rolePermissions | userRoles | userPermissions
  deriving DecidableEq, Repr

inductive Column where
  | id | name | fio | departmentId | otdelId | branchId | officeId
  | positionId | positionType | createdAt | deletedAt | orderTypeId
  | assignToPositionId | statusId | userId | roleId | permission | granted
  deriving DecidableEq, Repr

namespace Column

def title : Column → String
  | id => "id"
  | name => "name"
  | fio => "fio"
  | departmentId => "department_id"
  | otdelId => "otdel_id"
  | branchId => "branch_id"
  | officeId => "office_id"
  | positionId => "position_id"
  | positionType => "position_type"
  | createdAt => "created_at"
  | deletedAt => "deleted_at"
  | orderTypeId => "order_type_id"
  | assignToPositionId => "assign_to_position_id"
  | statusId => "status_id"
  | userId => "user_id"
  | roleId => "role_id"
  | permission => "permission"
  | granted => "granted"

def all : List Column :=
  [id, name, fio, departmentId, otdelId, branchId, officeId, positionId,
    positionType, createdAt, deletedAt, orderTypeId, assignToPositionId,
    statusId, userId, roleId, permission, granted]

def affinity : Column → Affinity
  | name | fio | positionType | createdAt | deletedAt | permission => .text
  | _ => .integer

end Column

/-- A row gives every column its value, null where its table lacks the
column. -/
abbrev Row := Column → Value

/-- A column that refers to the id of a row in another table. -/
structure Reference where
  column : Column
  parent : Table
  /-- Whether the row goes with the row it refers to, instead of keeping it. -/
  cascades : Bool := false
  deriving DecidableEq, Repr

namespace Table

def name : Table → String
  | departments => "departments"
  | otdels => "otdels"
  | branches => "branches"
  | offices => "offices"
  | positions => "positions"
  | users => "users"
  | orderRoutingRules => "order_routing_rules"
  | roles => "roles"
  | rolePermissions => "role_permissions"
  | userRoles => "user_roles"
  | userPermissions => "user_permissions"

def all : List Table :=
  [departments, otdels, branches, offices, positions, users, orderRoutingRules,
    roles, rolePermissions, userRoles, userPermissions]

/-- Every table before the tables that its rows refer to. -/
def childrenFirst : List Table :=
  [userPermissions, userRoles, rolePermissions, roles, orderRoutingRules,
    users, positions, offices, branches, otdels, departments]

def columns : Table → List Column
  | departments => [.id, .name, .createdAt]
  | otdels => [.id, .name, .departmentId, .createdAt]
  | branches => [.id, .name, .createdAt]
  | offices => [.id, .name, .branchId, .createdAt]
  | positions =>
      [.id, .name, .positionType, .departmentId, .otdelId, .branchId,
        .officeId, .createdAt]
  | users =>
      [.id, .fio, .departmentId, .otdelId, .branchId, .officeId, .positionId,
        .createdAt, .deletedAt]
  | orderRoutingRules =>
      [.id, .orderTypeId, .departmentId, .otdelId, .branchId, .officeId,
        .assignToPositionId, .statusId, .createdAt]
  | roles => [.id, .name]
  | rolePermissions => [.roleId, .permission]
  | userRoles => [.userId, .roleId]
  | userPermissions => [.userId, .permission, .granted]

/-- Whether rows have an id of their own. -/
def hasId (t : Table) : Bool := t.columns.contains .id

/-- The columns that may not be null. -/
def mandatory : Table → List Column
  | departments | branches => [.name, .createdAt]
  | otdels => [.name, .departmentId, .createdAt]
  | offices => [.name, .branchId, .createdAt]
  | positions => [.name, .positionType, .createdAt]
  | users => [.fio, .departmentId, .createdAt]
  | orderRoutingRules => [.assignToPositionId, .statusId, .createdAt]
  | roles => [.name]
  | rolePermissions => [.roleId, .permission]
  | userRoles => [.userId, .roleId]
  | userPermissions => [.userId, .permission, .granted]

/-- The column groups whose values together occur once. -/
def keys : Table → List (List Column)
  | roles => [[.id], [.name]]
  | rolePermissions => [[.roleId, .permission]]
  | userRoles => [[.userId, .roleId]]
  | userPermissions => [[.userId, .permission]]
  | _ => [[.id]]

def references : Table → List Reference
  | otdels => [⟨.departmentId, departments, false⟩]
  | offices => [⟨.branchId, branches, false⟩]
  | positions =>
      [⟨.departmentId, departments, false⟩, ⟨.otdelId, otdels, false⟩,
        ⟨.branchId, branches, false⟩, ⟨.officeId, offices, false⟩]
  | users =>
      [⟨.departmentId, departments, false⟩, ⟨.otdelId, otdels, false⟩,
        ⟨.branchId, branches, false⟩, ⟨.officeId, offices, false⟩,
        ⟨.positionId, positions, false⟩]
  | orderRoutingRules =>
      [⟨.departmentId, departments, false⟩, ⟨.otdelId, otdels, false⟩,
        ⟨.branchId, branches, false⟩, ⟨.officeId, offices, false⟩,
        ⟨.assignToPositionId, positions, false⟩]
  | rolePermissions => [⟨.roleId, roles, true⟩]
  | userRoles => [⟨.userId, users, true⟩, ⟨.roleId, roles, true⟩]
  | userPermissions => [⟨.userId, users, true⟩]
  | departments | branches | roles => []

/-- What a column holds where a new row gives no value. The moment of a write
is not observable, so every row is stamped alike. -/
def stamp : Value := .text "1970-01-01 00:00:00"

def absent : Column → Value
  | .createdAt => stamp
  | _ => .null

/-- Whether the values of a row are in the sets allowed for their columns. -/
def permits (t : Table) (r : Row) : Bool :=
  match t with
  | positions => PositionType.all.any fun k => r .positionType == .text k.name
  | userPermissions => r .granted == .integer 0 || r .granted == .integer 1
  | _ => true

end Table

end WorkRouting
