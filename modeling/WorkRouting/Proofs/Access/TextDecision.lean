/-
The access decision on texts. The rules of access are written about a set of
strings: the superuser string, the text of a permission, the scope strings and
the segments of the text that is asked about. `TextDecision.allows` is that
procedure, with no grant, resource or action in it.

The two agree: reading the raw tokens into a typed set first and deciding there
gives, for every permission that its own text denotes, what the procedure gives
on the trims. Each question the typed decision asks of a set is a question
about one text (`contains_ofTokens` and its neighbors), and each question the
procedure asks of a text is one about a part of the permission
(`segment_resource`, `segment_action`); the rest is the table of relations,
scope by scope (`narrow_any_reaches`).
-/
import WorkRouting.Access.Decision
import WorkRouting.Proofs.Access.PermissionSet

namespace WorkRouting

-- ============================================================ the procedure

namespace TextDecision

/-- The `n`-th piece of a text between colons, counted from zero. -/
def segment (text : String) (n : Nat) : Option String :=
  (Text.segments ':' text.toList)[n]?.map String.ofList

/-- A unit that both sides have, and have in common. -/
def common (mine theirs : Option Int64) : Bool :=
  mine.isSome && theirs.isSome && mine == theirs

/-- The scope strings short of everything, each with what it asks of an actor
and a target. A reference row answers to none of them. -/
def relations (actor : Actor) : Target → List (String × Bool)
  | .simple => []
  | .order o =>
      [("scope:department", actor.department == o.department),
        ("scope:otdel", common actor.otdel o.otdel),
        ("scope:branch", common actor.branch o.branch),
        ("scope:office", common actor.office o.office),
        ("scope:own", actor.id == o.creator || actor.id == o.executor)]
  | .user u =>
      [("scope:department", actor.department == u.department),
        ("scope:otdel", common actor.otdel u.otdel),
        ("scope:branch", common actor.branch u.branch),
        ("scope:office", common actor.office u.office),
        ("scope:own", actor.id == u.id)]

/-- The scope strings that admit the reading of a collection. -/
def collective : List String :=
  ["scope:own", "scope:department", "scope:otdel", "scope:branch",
    "scope:office"]

/-- Whether the strings allow the use of the permission with the given text. -/
def allows (strings : List String) (text : String) (actor : Actor)
    (target : Option Target) : Bool :=
  if "superuser" ∈ strings then true
  else if text ∉ strings then false
  else if segment text 1 = some "create" then true
  else if segment text 0 ≠ some "orders" ∧ segment text 0 ≠ some "users" then
    segment text 1 = some "view" || "scope:all" ∈ strings
  else if "scope:all" ∈ strings then true
  else match target with
    | none => collective.any (· ∈ strings)
    | some t =>
        (relations actor t).any fun (token, holds) => token ∈ strings && holds

end TextDecision

-- ======================================================= questions to a set

namespace PermissionSet

variable {p : Permission} {s : Scope} {tokens : List String}

theorem contains_ofTokens (hp : p.Legible) :
    (ofTokens tokens).answer.contains p
      = decide (p.render ∈ tokens.map Text.trim) := by
  rw [contains, List.contains_eq_mem]
  exact decide_eq_decide.2 (mem_ofTokens_iff_token (x := .permission p) hp)

theorem hasScope_ofTokens :
    (ofTokens tokens).answer.hasScope s
      = decide (s.token ∈ tokens.map Text.trim) := by
  rw [hasScope, List.contains_eq_mem]
  exact decide_eq_decide.2 (mem_ofTokens_iff_token (x := .scope s) trivial)

theorem isSuperuser_ofTokens :
    (ofTokens tokens).answer.isSuperuser
      = decide ("superuser" ∈ tokens.map Text.trim) := by
  rw [isSuperuser, List.contains_eq_mem]
  exact decide_eq_decide.2 (mem_ofTokens_iff_token (x := .superuser) trivial)

/-- Some narrow scope is held exactly when its string is among the trims. -/
theorem hasAnyScope_ofTokens :
    (ofTokens tokens).answer.hasAnyScope Scope.narrow
      = TextDecision.collective.any (· ∈ tokens.map Text.trim) := by
  have htokens : TextDecision.collective = Scope.narrow.map Scope.token := by
    decide
  have hheld : (ofTokens tokens).answer.hasScope
      = fun s => decide (s.token ∈ tokens.map Text.trim) :=
    funext fun _ => hasScope_ofTokens
  rw [htokens, List.any_map, hasAnyScope, hheld]
  rfl

end PermissionSet

-- ====================================================== questions to a text

namespace TextDecision

variable {p : Permission}

theorem segment_resource (hp : p.Legible) :
    segment p.render 0 = some p.resource.name := by
  rw [segment, Permission.segments_render hp]
  simp

theorem segment_action (hp : p.Legible) :
    segment p.render 1 = some p.action.name := by
  rw [segment, Permission.segments_render hp]
  simp

/-- Only orders and users are owned. -/
theorem isSimple_iff (r : Resource) :
    r.isSimple = true
      ↔ some r.name ≠ some "orders" ∧ some r.name ≠ some "users" := by
  cases r <;> decide

/-- An action is asked for by its name. -/
theorem action_eq_iff (a b : Action) : a = b ↔ some a.name = some b.name := by
  rw [Option.some.injEq]
  exact ⟨congrArg Action.name, Action.name_injective a b⟩

theorem sameUnit_eq_common (mine theirs : Option Int64) :
    sameUnit mine theirs = common mine theirs := by
  cases mine with
  | none => rfl
  | some a =>
      cases theirs with
      | none => rfl
      | some b => simp [sameUnit, common]

-- ================================================================ agreement

/-- An owned row has the relation of each narrow scope, and no other. -/
theorem relations_eq_map (actor : Actor) {t : Target} (ht : t ≠ .simple) :
    relations actor t
      = [Scope.department, .otdel, .branch, .office, .own].map
          fun s => (s.token, s.reaches actor t) := by
  cases t with
  | simple => exact absurd rfl ht
  | order o =>
      simp only [relations, ← sameUnit_eq_common]
      rfl
  | user u =>
      simp only [relations, ← sameUnit_eq_common]
      rfl

/-- A narrow scope held reaches a target exactly when its string is held and
its relation holds. -/
theorem narrow_any_reaches (strings : List String) (actor : Actor)
    (t : Target) :
    (Scope.narrow.any fun s => decide (s.token ∈ strings) && s.reaches actor t)
      = (relations actor t).any
          fun (token, holds) => token ∈ strings && holds := by
  by_cases ht : t = .simple
  · subst ht
    simp [Scope.reaches, relations]
  · have hperm : Scope.narrow.Perm
        [.department, .otdel, .branch, .office, .own] := by
      decide
    rw [relations_eq_map actor ht, List.any_map]
    exact hperm.any_eq

/-- The typed decision over the set that raw tokens give is the procedure on
their trims, for every permission that its own text denotes. -/
theorem canDo_ofTokens_eq_allows {p : Permission} (hp : p.Legible)
    (tokens : List String) (actor : Actor) (target : Option Target) :
    canDo p actor (PermissionSet.ofTokens tokens).answer target
      = allows (tokens.map Text.trim) p.render actor target := by
  have hall : Scope.all.token = "scope:all" := by
    decide
  have haction : p.action = .create ↔ some p.action.name = some "create" :=
    action_eq_iff p.action .create
  have hview : decide (p.action = .view)
      = decide (some p.action.name = some "view") :=
    decide_eq_decide.2 (action_eq_iff p.action .view)
  unfold canDo allows
  -- every question to the set and to the permission becomes one to a text
  rw [PermissionSet.isSuperuser_ofTokens, PermissionSet.contains_ofTokens hp,
    PermissionSet.hasAnyScope_ofTokens, PermissionSet.hasScope_ofTokens, hall,
    segment_resource hp, segment_action hp, hview]
  -- both sides then ask in one order, and a settled question drops out
  by_cases hsuper : "superuser" ∈ tokens.map Text.trim
  · rw [if_pos (decide_eq_true hsuper), if_pos hsuper]
  · rw [if_neg (mt of_decide_eq_true hsuper), if_neg hsuper]
    by_cases hheld : p.render ∈ tokens.map Text.trim
    · rw [decide_eq_true hheld, Bool.not_true, if_neg Bool.false_ne_true,
        if_neg (not_not_intro hheld)]
      by_cases hcreate : p.action = .create
      · rw [if_pos hcreate, if_pos (haction.1 hcreate)]
      · rw [if_neg hcreate, if_neg (mt haction.2 hcreate)]
        by_cases hsimple : p.resource.isSimple = true
        · rw [if_pos hsimple, if_pos ((isSimple_iff p.resource).1 hsimple)]
        · rw [if_neg hsimple, if_neg (mt (isSimple_iff p.resource).2 hsimple)]
          by_cases heverything : "scope:all" ∈ tokens.map Text.trim
          · rw [if_pos (decide_eq_true heverything), if_pos heverything]
          · rw [if_neg (mt of_decide_eq_true heverything), if_neg heverything]
            cases target with
            | none => rfl
            | some t =>
                have hscopes : (PermissionSet.ofTokens tokens).answer.hasScope
                    = fun s => decide (s.token ∈ tokens.map Text.trim) :=
                  funext fun _ => PermissionSet.hasScope_ofTokens
                dsimp only
                rw [hscopes]
                exact narrow_any_reaches (tokens.map Text.trim) actor t
    · rw [decide_eq_false hheld, Bool.not_false, if_pos rfl, if_pos hheld]

/-- Padded and repeated tokens among some that only look like tokens. -/
def sampleTokens : List String :=
  ["\torders:update:executor ", "orders:update:", "Scope:all",
    "scope:everything", " scope:branch", "scope: own", "superuser?",
    "scope:branch\n"]

/-- An employee of one department and its branch. -/
def sampleActor : Actor := { id := 7, department := 5, branch := some 30 }

/-- An order of another department in the same branch, of two other people. -/
def sampleTarget : Target :=
  .order { department := 6, branch := some 30, creator := 1, executor := 2 }

/-- The right to change the executor of an order. -/
def samplePermission : Permission := ⟨.orders, .update, some "executor"⟩

/-- The branch alone lets the executor be changed, and both ways find it. -/
theorem sample_allows :
    samplePermission.Legible
      ∧ canDo samplePermission sampleActor
          (PermissionSet.ofTokens sampleTokens).answer (some sampleTarget)
        = allows (sampleTokens.map Text.trim) "orders:update:executor"
            sampleActor (some sampleTarget)
      ∧ allows (sampleTokens.map Text.trim) "orders:update:executor"
          sampleActor (some sampleTarget) = true := by
  have hlegible : samplePermission.Legible := by
    intro f hf
    cases hf
    exact ⟨by decide, by decide, Text.not_blank_of_all (by decide)⟩
  refine ⟨hlegible, canDo_ofTokens_eq_allows hlegible _ _ _, ?_⟩
  decide

end TextDecision

end WorkRouting
