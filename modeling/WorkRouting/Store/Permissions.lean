/-
The tokens of a user: what the user's roles and direct grants give, less what
is denied to the user directly. Tokens are subtracted as they are stored; what
they mean is read afterwards. A stored token that is no text makes the read
fail, also one that is denied.
-/
import WorkRouting.Access.PermissionSet
import WorkRouting.Store.Directory

namespace WorkRouting

/-- Puts a string in its place in byte order, unless it is there. -/
def insertSorted (s : String) : List String → List String
  | [] => [s]
  | t :: rest =>
      if s < t then s :: t :: rest
      else if s = t then t :: rest
      else t :: insertSorted s rest

/-- The strings in byte order, each once. -/
def sortedStrings (l : List String) : List String := l.foldr insertSorted []

namespace Store

/-- The token in a row. -/
def tokenOf (r : Row) : Except ReadError String :=
  match r .permission with
  | .text t => .ok t
  | _ => .error (.noText .permission)

/-- The roles of a user. -/
def rolesOf (s : Store) (user : UserId) : List Value :=
  ((s.rows .userRoles).filter (· .userId == .integer user)).map (· .roleId)

/-- What the roles of a user give. -/
def roleTokens (s : Store) (user : UserId) : Except ReadError (List String) :=
  ((s.rows .rolePermissions).filter fun r =>
    (s.rolesOf user).contains (r .roleId)).mapM tokenOf

/-- The direct grants of a user, or the direct denials. -/
def directTokens (s : Store) (user : UserId) (granted : Bool) :
    Except ReadError (List String) :=
  ((s.rows .userPermissions).filter fun r =>
    r .userId == .integer user
      && (r .granted == .integer 1) == granted).mapM tokenOf

/-- The raw tokens of a user, in byte order. -/
def tokensOf (s : Store) (user : UserId) : Except ReadError (List String) := do
  let given := (← s.roleTokens user) ++ (← s.directTokens user true)
  let denied ← s.directTokens user false
  return sortedStrings (given.filter (!denied.contains ·))

end Store

namespace Database

def tokensOf (db : Database) (user : UserId) :
    Except ReadError (List String) :=
  db.reading .userRoles (·.tokensOf user)

/-- The permission set of a user. The number of raw tokens is reported before
they are read one by one. -/
def permissionSet (db : Database) (user : UserId) :
    Reported (Except DirectoryError PermissionSet) :=
  match db.tokensOf user with
  | .error e => ⟨.error e.toDirectory, []⟩
  | .ok tokens =>
      let set := PermissionSet.ofTokens tokens
      ⟨.ok set.answer, .permissionsLoaded user tokens.length :: set.events⟩

end Database

end WorkRouting
