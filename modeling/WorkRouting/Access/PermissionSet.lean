/-
Permission sets. A set holds grants — the superuser flag, scopes and
permissions alike — sorted by their canonical tokens without repetition, so
that two sets with the same grants are the same value and the canonical token
list is read straight off.
-/
import WorkRouting.Event

namespace WorkRouting

/-- One thing a token can give. -/
inductive Grant where
  | superuser
  | scope (s : Scope)
  | permission (p : Permission)
  deriving DecidableEq, Repr

namespace Grant

/-- The token of the superuser flag. -/
def superuserToken : String := "superuser"

/-- The canonical token. No two grants share one. -/
def token : Grant → String
  | superuser => superuserToken
  | scope s => s.token
  | permission p => p.render

/-- What a token gives. The superuser token and the scope lead are compared as
they stand; only a permission is read between blanks. -/
def parse (text : String) : Except TokenError Grant :=
  if text = superuserToken then .ok superuser
  else if (Text.after? Scope.lead.toList text.toList).isSome then
    (Scope.parse text).map scope
  else (Permission.parse text).map permission

end Grant

/-- Grants in the byte order of their tokens. Code points and their UTF-8 bytes
sort alike, so the order of strings serves. -/
def Grant.Before (g h : Grant) : Prop := g.token < h.token

instance (g h : Grant) : Decidable (g.Before h) :=
  inferInstanceAs (Decidable (_ < _))

/-- Puts a grant in its place, unless one with its token is there. -/
def Grant.insertInto (g : Grant) : List Grant → List Grant
  | [] => [g]
  | h :: rest =>
      if g.Before h then g :: h :: rest
      else if g.token = h.token then h :: rest
      else h :: g.insertInto rest

theorem Grant.of_mem_insertInto {g x : Grant} {l : List Grant}
    (h : x ∈ g.insertInto l) : x = g ∨ x ∈ l := by
  induction l with
  | nil => simpa [insertInto] using h
  | cons y rest ih =>
      simp only [insertInto] at h
      split at h
      · simpa using h
      · split at h
        · exact Or.inr h
        · rcases List.mem_cons.1 h with rfl | h
          · exact Or.inr List.mem_cons_self
          · exact (ih h).imp_right (List.mem_cons_of_mem _)

theorem Grant.ordered_insertInto (g : Grant) {l : List Grant}
    (h : l.Pairwise Grant.Before) :
    (g.insertInto l).Pairwise Grant.Before := by
  induction l with
  | nil => simp [insertInto]
  | cons y rest ih =>
      obtain ⟨hy, hrest⟩ := List.pairwise_cons.1 h
      simp only [insertInto]
      split
      · next hgy =>
        refine List.pairwise_cons.2 ⟨fun x hx => ?_, h⟩
        rcases List.mem_cons.1 hx with rfl | hx
        · exact hgy
        · exact String.lt_trans hgy (hy x hx)
      · next hgy =>
        split
        · exact h
        · next hne =>
          refine List.pairwise_cons.2 ⟨fun x hx => ?_, ih hrest⟩
          rcases of_mem_insertInto hx with rfl | hx
          · refine Decidable.byContradiction fun hyx => hne ?_
            exact String.le_antisymm (String.not_lt.1 hyx)
              (String.not_lt.1 hgy)
          · exact hy x hx

/-- The grants of one actor, each once, in token order. -/
structure PermissionSet where
  grants : List Grant := []
  ordered : grants.Pairwise Grant.Before := by simp
  deriving DecidableEq, Repr

namespace PermissionSet

/-- The set of nothing. -/
def empty : PermissionSet := {}

/-- The set that only has the superuser flag. -/
def superuser : PermissionSet := { grants := [.superuser] }

def insert (set : PermissionSet) (g : Grant) : PermissionSet :=
  ⟨g.insertInto set.grants, g.ordered_insertInto set.ordered⟩

def grant (set : PermissionSet) (p : Permission) : PermissionSet :=
  set.insert (.permission p)

def withScope (set : PermissionSet) (s : Scope) : PermissionSet :=
  set.insert (.scope s)

/-- Adds what a token gives. A token that gives nothing leaves the set as it
is, since there is then no set to return. -/
def insertToken (set : PermissionSet) (token : String) :
    Except TokenError PermissionSet :=
  (Grant.parse token).map set.insert

def isSuperuser (set : PermissionSet) : Bool := set.grants.contains .superuser

def contains (set : PermissionSet) (p : Permission) : Bool :=
  set.grants.contains (.permission p)

def hasScope (set : PermissionSet) (s : Scope) : Bool :=
  set.grants.contains (.scope s)

def hasAnyScope (set : PermissionSet) (scopes : List Scope) : Bool :=
  scopes.any set.hasScope

/-- The canonical tokens, in byte order. -/
def tokens (set : PermissionSet) : List String := set.grants.map Grant.token

-- ================================================== from raw tokens

/-- Adds a raw token, read between blanks; one that gives nothing is skipped
and reported. -/
def addToken (set : PermissionSet) (raw : String) : Reported PermissionSet :=
  let token := Text.trim raw
  match set.insertToken token with
  | .ok set' => ⟨set', []⟩
  | .error e => ⟨set, [.tokenSkipped token e]⟩

/-- Adds raw tokens from left to right. -/
def addTokens (set : PermissionSet) : List String → Reported PermissionSet
  | [] => ⟨set, []⟩
  | raw :: rest =>
      let first := set.addToken raw
      let after := first.answer.addTokens rest
      ⟨after.answer, first.events ++ after.events⟩

/-- The set that raw tokens give. -/
def ofTokens (raw : List String) : Reported PermissionSet :=
  empty.addTokens raw

end PermissionSet

end WorkRouting
