/-
Routing reads over a store. An employee is read together with the position row,
if there is one; rules come in precedence order and holders by id. A value that
is no identifier where one is needed makes the read fail, whatever else it
found.
-/
import WorkRouting.Routing.Directory
import WorkRouting.Store.Database

namespace WorkRouting

/-- Why a read gave no answer. -/
inductive ReadError where
  | refused (error : StoreError)
  /-- A stored value that is not what its column should hold. -/
  | undecodable (cause : String)
  /-- A stored value that is no text where a text is fetched. -/
  | noText (column : Column)
  deriving DecidableEq, Repr

/-- The text of a store error as a database reports it. -/
def StoreError.reported (e : StoreError) : String :=
  s!"error returned from database: (code: {Text.ofInt e.code}) {e.message}"

def ReadError.message : ReadError → String
  | refused e => s!"database error: {e.reported}"
  | undecodable cause => s!"decode error: {cause}"
  | noText c =>
      s!"database error: error occurred while decoding column \"{c.title}\""

/-- A failed read as routing sees it. -/
def ReadError.toDirectory (e : ReadError) : DirectoryError :=
  .unavailable e.message

-- ================================================== columns as identifiers

/-- The identifier in a column. -/
def Row.idAt (r : Row) (c : Column) : Except ReadError Int64 :=
  match r c with
  | .integer n => .ok n
  | _ => .error (.undecodable s!"column {c.title} holds no identifier")

/-- The identifier in a column that may be null. -/
def Row.optionalIdAt (r : Row) (c : Column) :
    Except ReadError (Option Int64) :=
  match r c with
  | .null => .ok none
  | _ => (Row.idAt r c).map some

/-- A column open or equal to a value; an absent value equals nothing. -/
def Row.openOrEqual (r : Row) (c : Column) (value : Option Int64) : Bool :=
  r c == .null || value.any fun n => (r c).same (.integer n)

/-- The order by identifier. -/
def Row.idKey (r : Row) : Key :=
  match r .id with
  | .integer n => [n.toInt]
  | _ => []

namespace Store

/-- Rows in the order of a key; equal keys keep their order. -/
def sortedBy (key : Row → Key) (rows : List Row) : List Row :=
  rows.mergeSort fun a b => !(key b < key a)

-- ================================================== employees

/-- The text in the position row of an employee: the kind of the position. -/
def positionKind (s : Store) (u : Row) : Value :=
  match u .positionId with
  | .null => .null
  | p =>
      let position := (s.rows .positions).find? (· .id == p)
      (position.map (· .positionType)).getD .null

/-- The kind of the position, read. -/
def kindOf (s : Store) (u : Row) : Except ReadError (Option PositionType) :=
  match s.positionKind u with
  | .null => .ok none
  | .text t =>
      match PositionType.parse t with
      | .ok k => .ok (some k)
      | .error e => .error (.undecodable e.message)
  | _ => .error (.undecodable "column position_type holds no text")

/-- An employee from a row. Being a head follows from the position. -/
def actorOf (s : Store) (u : Row) : Except ReadError Actor := do
  let kind ← s.kindOf u
  return {
    id := ← Row.idAt u .id
    department := ← Row.idAt u .departmentId
    otdel := ← Row.optionalIdAt u .otdelId
    branch := ← Row.optionalIdAt u .branchId
    office := ← Row.optionalIdAt u .officeId
    position := ← Row.optionalIdAt u .positionId
    isHead := kind.elim false PositionType.isHead }

/-- The active employees that pass a test, by id. -/
def activeUsers (s : Store) (test : Row → Bool) : List Row :=
  sortedBy Row.idKey ((s.rows .users).filter fun u => isActive u && test u)

/-- The first of some employees, read. -/
def firstActor (s : Store) (rows : List Row) :
    Except ReadError (Option Actor) :=
  match rows with
  | [] => .ok none
  | u :: _ => (s.actorOf u).map some

def activeUser (s : Store) (user : UserId) : Except ReadError (Option Actor) :=
  s.firstActor (s.activeUsers (· .id == .integer user))

def positionHolders (s : Store) (position : PositionId) :
    Except ReadError (List Actor) :=
  (s.activeUsers (· .positionId == .integer position)).mapM s.actorOf

/-- A unit condition on a stored employee. -/
def predicateHolds (p : UnitPredicate) (u : Row) : Bool :=
  match p with
  | .department n => u .departmentId == .integer n
  | .otdel n => u .otdelId == .integer n
  | .branch n => u .branchId == .integer n
  | .office n => u .officeId == .integer n

def searchHierarchy (s : Store) (q : HierarchyQuery) :
    Except ReadError (Option Actor) :=
  s.firstActor (s.activeUsers fun u =>
    s.positionKind u == .text q.kind.name
      && q.predicates.all (predicateHolds · u))

-- ================================================== rules

/-- A rule from a row. -/
def ruleOf (r : Row) : Except ReadError Rule := do
  return {
    id := ← Row.idAt r .id
    orderType := ← Row.optionalIdAt r .orderTypeId
    department := ← Row.optionalIdAt r .departmentId
    otdel := ← Row.optionalIdAt r .otdelId
    branch := ← Row.optionalIdAt r .branchId
    office := ← Row.optionalIdAt r .officeId
    position := ← Row.idAt r .assignToPositionId
    status := ← Row.idAt r .statusId }

/-- The precedence of a stored rule. -/
def rulePrecedence (r : Row) : Key :=
  let pinned (c : Column) := Key.preferring (r c != .null)
  [pinned .orderTypeId, pinned .otdelId, pinned .officeId,
      pinned .departmentId, pinned .branchId]
    ++ Row.idKey r

/-- The rules that pass a test, in precedence order, read. -/
def rulesWhere (s : Store) (test : Row → Bool) :
    Except ReadError (List Rule) :=
  (sortedBy rulePrecedence ((s.rows .orderRoutingRules).filter test)).mapM
    ruleOf

def matchingRules (s : Store) (ctx : Context) : Except ReadError (List Rule) :=
  s.rulesWhere fun r =>
    Row.openOrEqual r .orderTypeId (some ctx.orderType)
      && Row.openOrEqual r .departmentId ctx.department
      && Row.openOrEqual r .otdelId ctx.otdel
      && Row.openOrEqual r .branchId ctx.branch
      && Row.openOrEqual r .officeId ctx.office

def rulesForOrderType (s : Store) (t : OrderTypeId) :
    Except ReadError (List Rule) :=
  s.rulesWhere fun r => (r .orderTypeId).same (.integer t)

end Store

namespace Database

/-- A read that needs a table. -/
def reading (db : Database) (table : Table)
    (read : Store → Except ReadError α) : Except ReadError α :=
  match db with
  | blank => .error (.refused (.noTable table.name))
  | ready s => read s

def activeUser (db : Database) (user : UserId) :
    Except ReadError (Option Actor) :=
  db.reading .users (·.activeUser user)

def matchingRules (db : Database) (ctx : Context) :
    Except ReadError (List Rule) :=
  db.reading .orderRoutingRules (·.matchingRules ctx)

/-- The lookups over a database. -/
def directory (db : Database) : Directory where
  findActiveUser user := (db.activeUser user).mapError ReadError.toDirectory
  matchingRules ctx := (db.matchingRules ctx).mapError ReadError.toDirectory
  rulesForOrderType t :=
    (db.reading .orderRoutingRules (·.rulesForOrderType t)).mapError
      ReadError.toDirectory
  positionHolders p :=
    (db.reading .users (·.positionHolders p)).mapError ReadError.toDirectory
  findByHierarchy q :=
    (db.reading .users (·.searchHierarchy q)).mapError ReadError.toDirectory

end Database

end WorkRouting
