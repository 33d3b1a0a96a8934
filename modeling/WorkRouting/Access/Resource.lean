/-
What a permission is about: the resource, the action, and the reach of a scope.
The three vocabularies share one error type, because a token can fail in any of
them and its reader reports which.
-/
import WorkRouting.Text

namespace WorkRouting

/-- Why a text is not a token. -/
inductive TokenError where
  | malformed (text : String)
  | unknownResource (name : String)
  | unknownAction (name : String)
  | unknownScope (name : String)
  deriving DecidableEq, Repr

def TokenError.message : TokenError → String
  | malformed text =>
      s!"permission token `{text}` must look like "
        ++ "`<resource>:<action>[:<field>]`"
  | unknownResource name => s!"unknown permission resource `{name}`"
  | unknownAction name => s!"unknown permission action `{name}`"
  | unknownScope name => s!"unknown scope `{name}`"

-- ================================================== resources

inductive Resource where
  | orders | users | roles | permissions | statuses | priorities
  | departments | otdels | branches | offices | equipments | equipmentTypes
  | positions | catalogs | orgStructure
  deriving DecidableEq, Repr

namespace Resource

def name : Resource → String
  | orders => "orders"
  | users => "users"
  | roles => "roles"
  | permissions => "permissions"
  | statuses => "statuses"
  | priorities => "priorities"
  | departments => "departments"
  | otdels => "otdels"
  | branches => "branches"
  | offices => "offices"
  | equipments => "equipments"
  | equipmentTypes => "equipment_types"
  | positions => "positions"
  | catalogs => "catalogs"
  | orgStructure => "structure"

def all : List Resource :=
  [orders, users, roles, permissions, statuses, priorities, departments,
    otdels, branches, offices, equipments, equipmentTypes, positions, catalogs,
    orgStructure]

/-- Reference rows have neither a creator nor an executor; only orders and
users are owned. -/
def isSimple : Resource → Bool
  | orders | users => false
  | _ => true

/-- The name of a resource, exactly as written. -/
def parse (text : String) : Except TokenError Resource :=
  match all.find? (·.name == text) with
  | some r => .ok r
  | none => .error (.unknownResource text)

theorem mem_all (r : Resource) : r ∈ all := by cases r <;> decide

end Resource

-- ================================================== actions

inductive Action where
  | view | create | update | delete
  deriving DecidableEq, Repr

namespace Action

def name : Action → String
  | view => "view"
  | create => "create"
  | update => "update"
  | delete => "delete"

def all : List Action := [view, create, update, delete]

/-- The name of an action, exactly as written. -/
def parse (text : String) : Except TokenError Action :=
  match all.find? (·.name == text) with
  | some a => .ok a
  | none => .error (.unknownAction text)

theorem mem_all (a : Action) : a ∈ all := by cases a <;> decide

end Action

-- ================================================== scopes

/-- How far from the actor a permission reaches. -/
inductive Scope where
  | own | department | otdel | branch | office | all
  deriving DecidableEq, Repr

namespace Scope

def name : Scope → String
  | own => "own"
  | department => "department"
  | otdel => "otdel"
  | branch => "branch"
  | office => "office"
  | all => "all"

def every : List Scope := [own, department, otdel, branch, office, all]

/-- The scopes short of everything. Any one of them admits the reading of a
collection. -/
def narrow : List Scope := [own, department, otdel, branch, office]

/-- The lead of every scope token. -/
def lead : String := "scope:"

def token (s : Scope) : String := lead ++ s.name

/-- Reads a scope token. A refusal names what follows the lead, or the whole
text where the lead is missing. -/
def parse (text : String) : Except TokenError Scope :=
  match Text.after? lead.toList text.toList with
  | none => .error (.unknownScope text)
  | some rest =>
      let wanted := String.ofList rest
      match every.find? (·.name == wanted) with
      | some s => .ok s
      | none => .error (.unknownScope wanted)

theorem mem_every (s : Scope) : s ∈ every := by cases s <;> decide

end Scope

end WorkRouting
