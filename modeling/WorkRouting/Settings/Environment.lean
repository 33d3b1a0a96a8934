/-
Environment variables, and texts with placeholders for them. A variable may be
set to something that is no text; it is set then, but has no value to put
anywhere.
-/
import WorkRouting.Settings.Basic

namespace WorkRouting

/-- The variables that are set, each with its text if it is one. -/
structure Environment where
  vars : List (String × Option String) := []
  deriving DecidableEq, Repr

namespace Environment

def isSet (env : Environment) (name : String) : Bool :=
  (env.vars.lookup name).isSome

/-- The text of a variable. -/
def text? (env : Environment) (name : String) : Option String :=
  (env.vars.lookup name).join

/-- The text of a variable, if it is more than blanks. -/
def filled? (env : Environment) (name : String) : Option String :=
  (env.text? name).filter (!Text.isBlankText ·)

def unset (env : Environment) (name : String) : Environment :=
  ⟨env.vars.filter (·.1 != name)⟩

def set (env : Environment) (name : String) (value : Option String) :
    Environment :=
  ⟨(name, value) :: (env.unset name).vars⟩

-- ================================================== placeholders

/-- The name in a placeholder after its opening, and the text behind it. -/
def placeholder? (cs : List Char) : Option (String × List Char) :=
  match Text.cut '\x7d' cs with
  | (_, none) => none
  | (name, some rest) => some (String.ofList name, rest)

theorem length_of_placeholder {cs rest : List Char} {name : String}
    (h : placeholder? cs = some (name, rest)) : rest.length < cs.length := by
  simp only [placeholder?] at h
  split at h
  · exact absurd h (by simp)
  · next heq =>
    cases h
    exact Text.length_of_cut heq

/-- Puts values in the places of their placeholders, from left to right. A
value is not searched for further placeholders. -/
def interpolate (value : String → Option String) (cs : List Char) :
    Except SettingsError (List Char) :=
  match cs with
  | [] => .ok []
  | '$' :: '\x7b' :: rest =>
      match _h : placeholder? rest with
      | none => .error .unterminatedPlaceholder
      | some (name, after) =>
          match value name with
          | none => .error (.missingVariable name)
          | some v => (interpolate value after).map (v.toList ++ ·)
  | c :: rest => (interpolate value rest).map (c :: ·)
termination_by cs.length
decreasing_by
  · have := length_of_placeholder _h
    simp only [List.length_cons]
    omega
  · simp

/-- The text with its placeholders filled. -/
def fill (env : Environment) (text : String) : Except SettingsError String :=
  (interpolate env.text? text.toList).map String.ofList

end Environment

end WorkRouting
