/-
The organization: identifiers, the four levels of unit, the kinds of position,
and employees as routing and access control see them. Every identifier is a
signed 64-bit number, so a statement about "any id" needs no range side
condition.
-/
import WorkRouting.Text

namespace WorkRouting

-- ================================================== identifiers

abbrev UserId := Int64
abbrev DepartmentId := Int64
abbrev OtdelId := Int64
abbrev BranchId := Int64
abbrev OfficeId := Int64
abbrev PositionId := Int64
abbrev OrderTypeId := Int64
abbrev StatusId := Int64
abbrev RuleId := Int64

/-- The whole number as a 64-bit identifier, if it is one. -/
def id64? (n : Int) : Option Int64 :=
  if -9223372036854775808 ≤ n ∧ n ≤ 9223372036854775807 then
    some (Int64.ofInt n)
  else none

theorem id64?_eq_some_iff {k : Int} {n : Int64} :
    id64? k = some n ↔ k = n.toInt := by
  have hlow := n.le_toInt
  have hhigh := n.toInt_lt
  unfold id64?
  split
  · next hk =>
      rw [Option.some.injEq]
      constructor
      · rintro rfl
        rw [Int64.toInt_ofInt_of_le] <;> omega
      · rintro rfl
        exact Int64.ofInt_toInt n
  · next hk =>
      refine ⟨nofun, ?_⟩
      rintro rfl
      omega

theorem id64?_toInt (n : Int64) : id64? n.toInt = some n :=
  id64?_eq_some_iff.2 rfl

/-- An identifier in decimal. -/
def idText (n : Int64) : String := Text.ofInt n.toInt

-- ================================================== levels and positions

/-- The tier of the organization that a position answers for. -/
inductive OrgLevel where
  | department | otdel | branch | office
  deriving DecidableEq, Repr

namespace OrgLevel

def name : OrgLevel → String
  | department => "department"
  | otdel => "otdel"
  | branch => "branch"
  | office => "office"

def all : List OrgLevel := [department, otdel, branch, office]

end OrgLevel

/-- What an employee is appointed as. -/
inductive PositionType where
  | headOfDepartment
  | deputyHeadOfDepartment
  | managerOfOtdel
  | branchDirector
  | deputyBranchDirector
  | headOfOffice
  | deputyHeadOfOffice
  | specialist
  deriving DecidableEq, Repr

namespace PositionType

def name : PositionType → String
  | headOfDepartment => "HEAD_OF_DEPARTMENT"
  | deputyHeadOfDepartment => "DEPUTY_HEAD_OF_DEPARTMENT"
  | managerOfOtdel => "MANAGER_OF_OTDEL"
  | branchDirector => "BRANCH_DIRECTOR"
  | deputyBranchDirector => "DEPUTY_BRANCH_DIRECTOR"
  | headOfOffice => "HEAD_OF_OFFICE"
  | deputyHeadOfOffice => "DEPUTY_HEAD_OF_OFFICE"
  | specialist => "SPECIALIST"

def all : List PositionType :=
  [headOfDepartment, deputyHeadOfDepartment, managerOfOtdel, branchDirector,
    deputyBranchDirector, headOfOffice, deputyHeadOfOffice, specialist]

/-- The level a position answers for; a specialist answers for no unit. -/
def orgLevel : PositionType → Option OrgLevel
  | headOfDepartment | deputyHeadOfDepartment => some .department
  | managerOfOtdel => some .otdel
  | branchDirector | deputyBranchDirector => some .branch
  | headOfOffice | deputyHeadOfOffice => some .office
  | specialist => none

/-- A head position admits one active holder; a deputy is not a head. -/
def isHead : PositionType → Bool
  | headOfDepartment | managerOfOtdel | branchDirector | headOfOffice => true
  | _ => false

/-- Why a text names no kind of position. -/
structure Unknown where
  text : String
  deriving DecidableEq, Repr

def Unknown.message (e : Unknown) : String :=
  s!"unknown position type `{e.text}`"

/-- Reads a kind of position in any case and between blanks. A refusal carries
the text as it was given. -/
def parse (text : String) : Except Unknown PositionType :=
  let wanted := Text.upper (Text.trim text)
  match all.find? (·.name == wanted) with
  | some t => .ok t
  | none => .error ⟨text⟩

theorem mem_all (t : PositionType) : t ∈ all := by cases t <;> decide

theorem name_injective (k l : PositionType) (h : k.name = l.name) : k = l := by
  revert h
  cases k <;> cases l <;> decide

end PositionType

/-- A position and the units it is filed under. -/
structure Position where
  id : PositionId
  kind : PositionType
  department : Option DepartmentId
  otdel : Option OtdelId
  branch : Option BranchId
  office : Option OfficeId
  deriving DecidableEq, Repr

/-- An employee as scope comparisons and routing see one. -/
structure Actor where
  id : UserId
  department : DepartmentId
  branch : Option BranchId := none
  otdel : Option OtdelId := none
  office : Option OfficeId := none
  position : Option PositionId := none
  isHead : Bool := false
  deriving DecidableEq, Repr

end WorkRouting
