/-
The reads that routing needs, as one record of five lookups. Any organization
that can answer them can be routed over: a roster in memory, a database, or one
of those behind a lens that widens or breaks some of its answers.
-/
import WorkRouting.Routing.Hierarchy

namespace WorkRouting

/-- Why a lookup gave no answer. -/
inductive DirectoryError where
  | unavailable (cause : String)
  deriving DecidableEq, Repr

def DirectoryError.message : DirectoryError → String
  | unavailable cause => s!"directory lookup failed: {cause}"

/-- The answer of a lookup. -/
abbrev Lookup (α : Type) := Except DirectoryError α

/-- Read access to employees and routing rules. -/
structure Directory where
  /-- The active employee with this id. -/
  findActiveUser : UserId → Lookup (Option Actor)
  /-- Rules that may match the order; more than those that do are allowed. -/
  matchingRules : Context → Lookup (List Rule)
  /-- Rules for an order type; more than those are allowed. -/
  rulesForOrderType : OrderTypeId → Lookup (List Rule)
  /-- The active employees in a position. -/
  positionHolders : PositionId → Lookup (List Actor)
  /-- The active employee with the lowest id that the search is for. -/
  findByHierarchy : HierarchyQuery → Lookup (Option Actor)

namespace Directory

/-- The name of a lookup. -/
inductive Method where
  | findActiveUser | matchingRules | rulesForOrderType | positionHolders
  | findByHierarchy
  deriving DecidableEq, Repr

def Method.name : Method → String
  | findActiveUser => "find_active_user"
  | matchingRules => "matching_rules"
  | rulesForOrderType => "rules_for_order_type"
  | positionHolders => "position_holders"
  | findByHierarchy => "find_by_hierarchy"

def Method.all : List Method :=
  [findActiveUser, matchingRules, rulesForOrderType, positionHolders,
    findByHierarchy]

/-- The directory that answers both rule lookups with the same list, whatever
the question. -/
def offering (d : Directory) (rules : List Rule) : Directory :=
  { d with
    matchingRules := fun _ => .ok rules
    rulesForOrderType := fun _ => .ok rules }

/-- The answer of a lookup, or the cause of its outage. -/
def orOutage (cause : Option String) (answer : Lookup α) : Lookup α :=
  match cause with
  | some text => .error (.unavailable text)
  | none => answer

/-- The directory in which some lookups fail, each for its own cause. -/
def failing (d : Directory) (outage : Method → Option String) : Directory where
  findActiveUser user :=
    orOutage (outage .findActiveUser) (d.findActiveUser user)
  matchingRules ctx := orOutage (outage .matchingRules) (d.matchingRules ctx)
  rulesForOrderType t :=
    orOutage (outage .rulesForOrderType) (d.rulesForOrderType t)
  positionHolders p := orOutage (outage .positionHolders) (d.positionHolders p)
  findByHierarchy q := orOutage (outage .findByHierarchy) (d.findByHierarchy q)

end Directory

end WorkRouting
