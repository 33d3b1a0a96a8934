/-
The first element with the least key. Rule choice, holder choice and the
search for a head are all this one choice under different keys; keys are lists
of whole numbers under the lexicographic order, so that "this column decides
before that one" is the order of the list.
-/
namespace WorkRouting

/-- A sort key, compared position by position. -/
abbrev Key := List Int

/-- A test as one position of a key: a passed test sorts first. -/
def Key.preferring (passed : Bool) : Int := if passed then 0 else 1

/-- The first of the elements whose key is least; nothing for no elements. -/
def least (key : α → Key) : List α → Option α
  | [] => none
  | a :: rest =>
      match least key rest with
      | none => some a
      | some b => if key b < key a then some b else some a

theorem least_eq_none {key : α → Key} {l : List α} :
    least key l = none ↔ l = [] := by
  cases l with
  | nil => simp [least]
  | cons a rest =>
      simp only [least, reduceCtorEq, iff_false]
      split
      · simp
      · split <;> simp

end WorkRouting
