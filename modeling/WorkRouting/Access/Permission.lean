/-
A permission, its written form `resource:action` or `resource:action:field`,
and the reader of that form. The reader drops blanks at both ends first, so a
written field that ends in a blank does not come back.
-/
import WorkRouting.Access.Resource

namespace WorkRouting

/-- The right to one action on a resource, or on one field of it. -/
structure Permission where
  resource : Resource
  action : Action
  field : Option String := none
  deriving DecidableEq, Repr

namespace Permission

/-- The written form. -/
def render (p : Permission) : String :=
  p.resource.name ++ ":" ++ p.action.name ++
    match p.field with
    | none => ""
    | some f => ":" ++ f

/-- A permission from its segments. The resource is read before the action, so
its fault is the one reported where both are unknown. -/
def ofSegments (resource action : List Char) (field : Option (List Char)) :
    Except TokenError Permission := do
  let r ← Resource.parse (String.ofList resource)
  let a ← Action.parse (String.ofList action)
  return ⟨r, a, field.map String.ofList⟩

/-- Reads the written form between blanks. Fewer than two segments, more than
three, or an empty third one are refused with the text as it was given. -/
def parse (text : String) : Except TokenError Permission :=
  match Text.segments ':' (Text.trimmed text.toList) with
  | [r, a] => ofSegments r a none
  | [r, a, f] =>
      if f = [] then .error (.malformed text) else ofSegments r a (some f)
  | _ => .error (.malformed text)

end Permission

end WorkRouting
