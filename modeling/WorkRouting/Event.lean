/-
The audit trail: what the program reports while it decides. An operation that
reports returns its events beside its answer, in the order in which they arise,
so that a statement about the trail is a statement about a value.
-/
import WorkRouting.Access.Permission
import WorkRouting.Org

namespace WorkRouting

inductive Event where
  /-- A stored token was not understood and gives nothing. -/
  | tokenSkipped (token : String) (error : TokenError)
  | accessDenied (actor : UserId) (permission : Permission) (hasTarget : Bool)
  | permissionsLoaded (user : UserId) (tokens : Nat)
  | hierarchyQueried (kind : PositionType) (predicates : Nat)
  | resolvedExplicitly (orderType : OrderTypeId) (executor : UserId)
  | resolvedByRule (orderType : OrderTypeId) (rule : RuleId)
      (position : PositionId) (executor : UserId)
  | resolvedByHierarchy (orderType : OrderTypeId) (executor : UserId)
  | poolOpened (maxConnections timeoutSecs : Nat)
  | demoOrgSeeded (departments users routingRules : Nat)
  deriving DecidableEq, Repr

namespace Event

inductive Level where
  | error | warn | info | debug | trace
  deriving DecidableEq, Repr

def Level.name : Level → String
  | error => "ERROR"
  | warn => "WARN"
  | info => "INFO"
  | debug => "DEBUG"
  | trace => "TRACE"

def level : Event → Level
  | tokenSkipped .. => .warn
  | accessDenied .. | permissionsLoaded .. | hierarchyQueried ..
  | poolOpened .. => .debug
  | resolvedExplicitly .. | resolvedByRule .. | resolvedByHierarchy ..
  | demoOrgSeeded .. => .info

def name : Event → String
  | tokenSkipped .. => "access.permission_set.token_skipped"
  | accessDenied .. => "access.denied"
  | permissionsLoaded .. => "access.permission_set.loaded"
  | hierarchyQueried .. => "routing.hierarchy.query"
  | resolvedExplicitly .. => "routing.resolve.explicit"
  | resolvedByRule .. => "routing.resolve.rule_matched"
  | resolvedByHierarchy .. => "routing.resolve.hierarchy"
  | poolOpened .. => "db.pool.opened"
  | demoOrgSeeded .. => "db.seed.demo_org"

def message : Event → String
  | tokenSkipped .. => "skipping unrecognised permission token"
  | accessDenied .. => "permission check denied"
  | permissionsLoaded .. => "permission set aggregated"
  | hierarchyQueried .. => "searching position holder by hierarchy"
  | resolvedExplicitly .. => "executor supplied explicitly"
  | resolvedByRule .. => "executor resolved by routing rule"
  | resolvedByHierarchy .. => "executor resolved by org hierarchy"
  | poolOpened .. => "sqlite pool opened"
  | demoOrgSeeded .. => "demo org seeded"

/-- The value of one reported field. -/
inductive Field where
  | number (n : Int)
  | flag (b : Bool)
  | text (s : String)
  deriving DecidableEq, Repr

/-- The fields an event carries beside its name, level and message. -/
def fields : Event → List (String × Field)
  | tokenSkipped token error =>
      [("token", .text token), ("error", .text error.message)]
  | accessDenied actor permission hasTarget =>
      [("actor_id", .number actor.toInt),
        ("permission", .text permission.render),
        ("has_target", .flag hasTarget)]
  | permissionsLoaded user tokens =>
      [("user_id", .number user.toInt), ("tokens", .number tokens)]
  | hierarchyQueried kind predicates =>
      [("position_type", .text kind.name), ("predicates", .number predicates)]
  | resolvedExplicitly orderType executor =>
      [("order_type_id", .number orderType.toInt),
        ("executor_id", .number executor.toInt)]
  | resolvedByRule orderType rule position executor =>
      [("order_type_id", .number orderType.toInt),
        ("rule_id", .number rule.toInt),
        ("position_id", .number position.toInt),
        ("executor_id", .number executor.toInt)]
  | resolvedByHierarchy orderType executor =>
      [("order_type_id", .number orderType.toInt),
        ("executor_id", .number executor.toInt)]
  | poolOpened maxConnections timeoutSecs =>
      [("max_connections", .number maxConnections),
        ("timeout_secs", .number timeoutSecs)]
  | demoOrgSeeded departments users routingRules =>
      [("departments", .number departments), ("users", .number users),
        ("routing_rules", .number routingRules)]

end Event

/-- An answer together with what was reported on the way to it. -/
structure Reported (α : Type) where
  answer : α
  events : List Event := []

end WorkRouting
