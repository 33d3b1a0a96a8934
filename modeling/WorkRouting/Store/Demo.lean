/-
The demo organization: four departments of which Logistics has no head, one
otdel each in IT and Finance, one branch with one office, and specialists in
IT, one of them retired. Loading it clears every table first, so what the
tables held before leaves no trace.
-/
import WorkRouting.Event
import WorkRouting.Store.Database

namespace WorkRouting

/-- What a loaded organization amounts to. -/
structure DemoSummary where
  departments : Nat
  users : Nat
  activeUsers : Nat
  routingRules : Nat
  deriving DecidableEq, Repr

namespace Demo

/-- A row to be inserted. -/
structure Entry where
  table : Table
  row : List (Column × Value)

/-- A column with a number, and one that stays open for nothing. -/
def num (c : Column) (n : Int64) : Column × Value := (c, .integer n)

def opt (c : Column) (n : Option Int64) : Column × Value :=
  (c, .ofOptionalId n)

def txt (c : Column) (s : String) : Column × Value := (c, .text s)

def department (id : Int64) (name : String) : Entry :=
  ⟨.departments, [num .id id, txt .name name]⟩

def otdel (id : Int64) (name : String) (department : Int64) : Entry :=
  ⟨.otdels, [num .id id, txt .name name, num .departmentId department]⟩

def position (id : Int64) (name : String) (kind : PositionType)
    (department : Int64) (otdel branch office : Option Int64) : Entry :=
  ⟨.positions, [num .id id, txt .name name, txt .positionType kind.name,
    num .departmentId department, opt .otdelId otdel, opt .branchId branch,
    opt .officeId office]⟩

def user (id : Int64) (fio : String) (department : Int64)
    (otdel branch office : Option Int64) (position : Int64) : Entry :=
  ⟨.users,
    [num .id id, txt .fio fio, num .departmentId department,
      opt .otdelId otdel, opt .branchId branch, opt .officeId office,
      num .positionId position]⟩

def rule (id orderType : Int64) (department otdel : Option Int64)
    (position status : Int64) : Entry :=
  ⟨.orderRoutingRules,
    [num .id id, num .orderTypeId orderType, opt .departmentId department,
      opt .otdelId otdel, num .assignToPositionId position,
      num .statusId status]⟩

def rolePermission (role : Int64) (token : String) : Entry :=
  ⟨.rolePermissions, [num .roleId role, txt .permission token]⟩

def userPermission (user : Int64) (token : String) (granted : Int64) : Entry :=
  ⟨.userPermissions,
    [num .userId user, txt .permission token, num .granted granted]⟩

/-- The rows, each after the rows that it refers to. -/
def entries : List Entry :=
  [department 10 "IT", department 20 "Finance", department 30 "Logistics",
    department 40 "Regions",
    otdel 100 "Service Desk" 10, otdel 200 "Accounting" 20,
    ⟨.branches, [num .id 5, txt .name "North Branch"]⟩,
    ⟨.offices, [num .id 7, txt .name "Harbor Office", num .branchId 5]⟩,
    position 1 "Head of IT" .headOfDepartment 10 none none none,
    position 2 "Head of Finance" .headOfDepartment 20 none none none,
    position 3 "Service Desk Manager" .managerOfOtdel 10 (some 100) none none,
    position 4 "North Branch Director" .branchDirector 40 none (some 5) none,
    position 5 "Harbor Office Head" .headOfOffice 40 none (some 5) (some 7),
    position 11 "IT Specialist" .specialist 10 none none none,
    position 22 "Service Desk Specialist" .specialist 10 (some 100) none none,
    user 101 "Irina Head" 10 none none none 1,
    user 102 "Fedor Head" 20 none none none 2,
    user 103 "Sergei Manager" 10 (some 100) none none 3,
    user 104 "Nadia Director" 40 none (some 5) none 4,
    user 105 "Oleg Office" 40 none (some 5) (some 7) 5,
    user 111 "Ivan Specialist" 10 none none none 11,
    user 112 "Daria Specialist" 10 (some 100) none none 22,
    user 113 "Pavel Specialist" 10 (some 100) none none 22,
    rule 1 3 none none 11 1, rule 2 3 (some 10) none 22 2,
    rule 3 4 none (some 100) 22 2,
    ⟨.roles, [num .id 1, txt .name "operator"]⟩,
    rolePermission 1 "orders:view", rolePermission 1 "orders:create",
    rolePermission 1 "scope:own", rolePermission 1 "statuses:view",
    ⟨.userRoles, [num .userId 111, num .roleId 1]⟩,
    userPermission 111 "orders:update" 1, userPermission 111 "statuses:view" 0]

/-- The specialist who is retired as soon as the rows are there. -/
def retired : UserId := 113

end Demo

namespace Store

/-- Deletes every row, the referring ones first. -/
def clear (s : Store) : Except StoreError Store :=
  Table.childrenFirst.foldlM (fun s t => s.delete t fun _ => true) s

def insertAll (s : Store) (entries : List Demo.Entry) :
    Except StoreError Store :=
  entries.foldlM (fun s e => s.insert e.table e.row) s

/-- Loads the demo organization in place of whatever is there. -/
def seedDemo (s : Store) : Except StoreError Store := do
  let s ← s.clear
  let s ← s.insertAll Demo.entries
  s.update .users [(.deletedAt, Table.stamp)] (· .id == .integer Demo.retired)

def summary (s : Store) : DemoSummary where
  departments := (s.rows .departments).length
  users := (s.rows .users).length
  activeUsers := (s.rows .users).countP isActive
  routingRules := (s.rows .orderRoutingRules).length

end Store

namespace Database

/-- Loads the demo organization; the first table to be cleared is the first to
be missed. -/
def seedDemo (db : Database) :
    Reported (Except StoreError (Database × DemoSummary)) :=
  match db with
  | blank => ⟨.error (.noTable Table.userPermissions.name), []⟩
  | ready s =>
      match s.seedDemo with
      | .error e => ⟨.error e, []⟩
      | .ok s =>
          let n := s.summary
          ⟨.ok (ready s, n),
            [.demoOrgSeeded n.departments n.users n.routingRules]⟩

end Database

end WorkRouting
