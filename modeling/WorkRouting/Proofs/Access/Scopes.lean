/-
How the grants of a set work together in a decision.

A decision looks at the superuser flag, at the permission asked for, and at
each scope by itself: `canDo_iff` puts it as an alternative over the scopes,
in which `Scope.opens` says what one scope is good for. The rest is read off
that form.

- Nothing in it is negated, so what is added to a set only adds to what the
  set allows (`canDo_of_subset`).
- No other permission occurs in it, whatever its field, so those may come and
  go (`canDo_congr`).
- It asks for one scope at a time, so the scopes of a set may be asked one by
  one (`canDo_iff_alone`), and scopes allow together what some of them allows
  alone (`canDo_foldl_withScope_iff`).
-/
import WorkRouting.Access.Decision
import WorkRouting.Proofs.Access.Canonical
import WorkRouting.Proofs.Access.TextDecision

namespace WorkRouting

-- ============================================================ one scope

/-- The permission is used without any scope: there is no row yet to compare,
or the row is nobody's and only read. -/
def Permission.unscoped (p : Permission) : Bool :=
  p.action = .create || (p.resource.isSimple && p.action = .view)

/-- Whether a scope, by itself, lets the permission be used. Only the scope of
everything does where nobody owns the rows. -/
def Scope.opens (p : Permission) (actor : Actor) (target : Option Target) :
    Scope → Bool
  | all => true
  | s => !p.resource.isSimple && target.all (s.reaches actor)

theorem Scope.mem_narrow_iff {s : Scope} : s ∈ narrow ↔ s ≠ all := by
  cases s <;> decide

/-- Whether a grant has a say when the permission is asked for: the superuser
flag and the scopes do, and of the permissions only that one. -/
def Grant.HasSay (p : Permission) : Grant → Prop
  | superuser => True
  | scope _ => True
  | permission q => q = p

section Decision

variable {p : Permission} {actor : Actor} {set set' : PermissionSet}
  {target : Option Target}

theorem Scope.opens_of_ne_all {s : Scope} (h : s ≠ all) :
    s.opens p actor target
      = (!p.resource.isSimple && target.all (s.reaches actor)) := by
  cases s <;> first | rfl | exact absurd rfl h

/-- Some scope held opens: the scope of everything, or, for an owned row, a
narrow one that reaches it. -/
theorem exists_opens_iff :
    (∃ s, set.hasScope s = true ∧ s.opens p actor target = true)
      ↔ set.hasScope .all = true ∨ p.resource.isSimple = false
          ∧ ∃ s ∈ Scope.narrow, set.hasScope s = true
              ∧ target.all (s.reaches actor) = true := by
  constructor
  · rintro ⟨s, hheld, hopens⟩
    by_cases hs : s = .all
    · subst hs
      exact .inl hheld
    · rw [Scope.opens_of_ne_all hs, Bool.and_eq_true, Bool.not_eq_true']
        at hopens
      exact .inr ⟨hopens.1, s, Scope.mem_narrow_iff.2 hs, hheld, hopens.2⟩
  · rintro (hall | ⟨howned, s, hs, hheld, hreach⟩)
    · exact ⟨.all, hall, rfl⟩
    · refine ⟨s, hheld, ?_⟩
      rw [Scope.opens_of_ne_all (Scope.mem_narrow_iff.1 hs), howned, hreach]
      rfl

-- ========================================================== the decision

/-- The decision, as an alternative over the scopes. -/
theorem canDo_iff :
    canDo p actor set target = true
      ↔ .superuser ∈ set.grants ∨ .permission p ∈ set.grants
          ∧ (p.unscoped = true
            ∨ ∃ s, .scope s ∈ set.grants ∧ s.opens p actor target = true) := by
  simp only [← PermissionSet.isSuperuser_iff_mem,
    ← PermissionSet.contains_iff_mem, ← PermissionSet.hasScope_iff_mem]
  rw [exists_opens_iff, Permission.unscoped]
  unfold canDo
  -- the questions are settled in the order in which the decision asks them
  by_cases hsuper : set.isSuperuser = true
  · simp [hsuper]
  by_cases hheld : set.contains p = true
  swap
  · simp [hsuper, hheld]
  by_cases hcreate : p.action = .create
  · simp [hheld, hcreate]
  by_cases hsimple : p.resource.isSimple = true
  · simp [hsuper, hheld, hcreate, hsimple]
  by_cases hall : set.hasScope .all = true
  · simp [hsuper, hheld, hall]
  cases target <;>
    simp [hsuper, hheld, hcreate, hsimple, hall, PermissionSet.hasAnyScope]

/-- A set allows no less than another if it holds no less of what has a say
about the permission. -/
theorem canDo_of_subset
    (h : ∀ x ∈ set.grants, x.HasSay p → x ∈ set'.grants)
    (hallowed : canDo p actor set target = true) :
    canDo p actor set' target = true := by
  rw [canDo_iff] at hallowed ⊢
  rcases hallowed with hsuper | ⟨hheld, hopen⟩
  · exact .inl (h _ hsuper trivial)
  · refine .inr ⟨h _ hheld rfl, hopen.imp_right ?_⟩
    rintro ⟨s, hs, hopens⟩
    exact ⟨s, h _ hs trivial, hopens⟩

/-- Permissions other than the one asked for make no difference. -/
theorem canDo_congr
    (h : ∀ x, x.HasSay p → (x ∈ set.grants ↔ x ∈ set'.grants)) :
    canDo p actor set target = canDo p actor set' target := by
  rw [Bool.eq_iff_iff]
  exact ⟨canDo_of_subset fun x hx hsay => (h x hsay).1 hx,
    canDo_of_subset fun x hx hsay => (h x hsay).2 hx⟩

-- ======================================================== one at a time

namespace PermissionSet

/-- The set of one permission and no scope. -/
def only (p : Permission) : PermissionSet := empty.grant p

theorem mem_only {x : Grant} : x ∈ (only p).grants ↔ x = .permission p := by
  simp [only, grant, mem_insert, empty]

theorem mem_foldl_withScope {scopes : List Scope} {x : Grant} :
    x ∈ (scopes.foldl withScope set).grants
      ↔ x ∈ set.grants ∨ ∃ s ∈ scopes, x = .scope s := by
  have hrun : scopes.foldl withScope set
      = (scopes.map Step.scope).foldl Step.after set := by
    rw [List.foldl_map]
    rfl
  rw [hrun, mem_foldl_after (by simp [Step.startsOver])]
  simp [Step.Gives]

end PermissionSet

open PermissionSet

theorem canDo_only_iff :
    canDo p actor (only p) target = true ↔ p.unscoped = true := by
  simp [canDo_iff, mem_only]

theorem canDo_only_withScope_iff {s : Scope} :
    canDo p actor ((only p).withScope s) target = true
      ↔ p.unscoped = true ∨ s.opens p actor target = true := by
  simp [canDo_iff, withScope, mem_insert, mem_only]

/-- The scopes held may be asked one by one, each with the permission alone. -/
theorem canDo_iff_alone :
    canDo p actor set target = true
      ↔ set.isSuperuser = true ∨ set.contains p = true
          ∧ (canDo p actor (only p) target = true
            ∨ ∃ s, set.hasScope s = true
                ∧ canDo p actor ((only p).withScope s) target = true) := by
  rw [canDo_iff]
  refine or_congr isSuperuser_iff_mem.symm
    (and_congr contains_iff_mem.symm ?_)
  simp only [canDo_only_iff, canDo_only_withScope_iff, hasScope_iff_mem]
  by_cases hunscoped : p.unscoped = true <;> simp [hunscoped]

/-- Scopes allow together what one of them allows alone, or what is allowed
without any. -/
theorem canDo_foldl_withScope_iff {scopes : List Scope} :
    canDo p actor (scopes.foldl withScope set) target = true
      ↔ canDo p actor set target = true
        ∨ ∃ s ∈ scopes, canDo p actor (set.withScope s) target = true := by
  constructor
  · -- only the case of a scope that opens and is new needs one of the scopes
    intro h
    rcases canDo_iff.1 h with hsuper | ⟨hheld, hopen⟩
    · have hmem : .superuser ∈ set.grants := by
        simpa [mem_foldl_withScope] using hsuper
      exact .inl (canDo_iff.2 (.inl hmem))
    · have hmem : .permission p ∈ set.grants := by
        simpa [mem_foldl_withScope] using hheld
      rcases hopen with hunscoped | ⟨s, hs, hopens⟩
      · exact .inl (canDo_iff.2 (.inr ⟨hmem, .inl hunscoped⟩))
      · rcases mem_foldl_withScope.1 hs with hs | ⟨t, ht, heq⟩
        · exact .inl (canDo_iff.2 (.inr ⟨hmem, .inr ⟨s, hs, hopens⟩⟩))
        · cases heq
          refine .inr ⟨s, ht, canDo_iff.2 (.inr ⟨?_, .inr ⟨s, ?_, hopens⟩⟩)⟩
          · exact mem_insert.2 (.inr hmem)
          · exact mem_insert.2 (.inl rfl)
  · rintro (h | ⟨s, hs, h⟩)
    · exact canDo_of_subset (fun x hx _ => mem_foldl_withScope.2 (.inl hx)) h
    · refine canDo_of_subset (fun x hx _ => mem_foldl_withScope.2 ?_) h
      exact (mem_insert.1 hx).symm.imp_right fun heq => ⟨s, hs, heq⟩

/-- The decision for a permission, over every set. It is allowed to the
superuser, and to who holds exactly this permission where the permission is
enough by itself or together with one of the scopes held. Hence steps that add
to a set take nothing from what it allows, steps that give other permissions
only, of whatever field, make no difference, and scopes allow together what is
allowed without any or under one of them alone. -/
theorem canDo_decomposes (p : Permission) (actor : Actor)
    (set : PermissionSet) (target : Option Target) :
    (canDo p actor set target = true
      ↔ set.isSuperuser = true ∨ set.contains p = true
          ∧ (canDo p actor (only p) target = true
            ∨ ∃ s, set.hasScope s = true
                ∧ canDo p actor ((only p).withScope s) target = true))
    ∧ (∀ steps : List Step, (∀ step ∈ steps, step.startsOver = false) →
        canDo p actor set target = true →
        canDo p actor (steps.foldl Step.after set) target = true)
    ∧ (∀ steps : List Step,
        (∀ step ∈ steps, step.startsOver = false
          ∧ ∀ x, step.Gives x → ∃ q, q ≠ p ∧ x = .permission q) →
        canDo p actor (steps.foldl Step.after set) target
          = canDo p actor set target)
    ∧ (∀ scopes : List Scope,
        canDo p actor (scopes.foldl withScope set) target = true
          ↔ canDo p actor set target = true
            ∨ ∃ s ∈ scopes,
                canDo p actor (set.withScope s) target = true) := by
  refine ⟨?_, fun steps hadd => ?_, fun steps hothers => ?_, fun scopes => ?_⟩
  · exact canDo_iff_alone
  · exact canDo_of_subset fun x hx _ => (mem_foldl_after hadd).2 (.inl hx)
  · refine canDo_congr fun x hsay => ?_
    rw [mem_foldl_after fun step hstep => (hothers step hstep).1]
    refine or_iff_left ?_
    rintro ⟨step, hstep, hgives⟩
    obtain ⟨q, hq, rfl⟩ := (hothers step hstep).2 x hgives
    exact hq hsay
  · exact canDo_foldl_withScope_iff

end Decision

-- ============================================================ one decision

namespace PermissionSet

open TextDecision (sampleActor samplePermission sampleTarget)

/-- A set that holds the permission under scopes that do not reach. -/
def strayScopes : PermissionSet :=
  (((only samplePermission).withScope .own).withScope .department).withScope
    .otdel

/-- Steps that give the permission for the whole row, for other fields, and for
the same field under a blank; one gives nothing. -/
def variants : List Step :=
  [.token "orders:update", .grant ⟨.orders, .update, some "executor "⟩,
    .token "orders:update:status", .token "orders:update:"]

theorem variants_give_others {step : Step} (h : step ∈ variants) :
    step.startsOver = false
      ∧ ∀ x, step.Gives x → ∃ q, q ≠ samplePermission ∧ x = .permission q := by
  have hwhole : Grant.parse "orders:update"
      = .ok (.permission ⟨.orders, .update, none⟩) := by
    decide +kernel
  have hstatus : Grant.parse "orders:update:status"
      = .ok (.permission ⟨.orders, .update, some "status"⟩) := by
    decide +kernel
  have hnothing : Grant.parse "orders:update:"
      = .error (.malformed "orders:update:") := by
    decide +kernel
  simp only [variants, List.mem_cons, List.not_mem_nil, or_false] at h
  rcases h with rfl | rfl | rfl | rfl
  · refine ⟨rfl, fun x hx => ⟨_, ?_, (Step.gives_token_iff hwhole).1 hx⟩⟩
    decide
  · refine ⟨rfl, fun x hx => ⟨_, ?_, hx⟩⟩
    decide
  · refine ⟨rfl, fun x hx => ⟨_, ?_, (Step.gives_token_iff hstatus).1 hx⟩⟩
    decide
  · refine ⟨rfl, fun x hx => ?_⟩
    cases hnothing.symm.trans hx

theorem strayScopes_decided :
    canDo samplePermission sampleActor (variants.foldl Step.after strayScopes)
        (some sampleTarget) = false
      ∧ canDo samplePermission sampleActor
          ([Scope.office, .own].foldl withScope strayScopes)
          (some sampleTarget) = false
      ∧ canDo samplePermission sampleActor
          (variants.foldl Step.after (strayScopes.withScope .branch))
          (some sampleTarget) = true := by
  obtain ⟨-, -, hothers, hscopes⟩ := canDo_decomposes samplePermission
    sampleActor strayScopes (some sampleTarget)
  obtain ⟨halone, hadd, -⟩ := canDo_decomposes samplePermission sampleActor
    (strayScopes.withScope .branch) (some sampleTarget)
  refine ⟨?_, ?_, ?_⟩
  · rw [hothers variants fun _ => variants_give_others]
    decide +kernel
  · rw [Bool.eq_false_iff, Ne, hscopes]
    decide +kernel
  · refine hadd variants (fun step h => (variants_give_others h).1)
      (halone.2 (.inr ⟨?_, .inr ⟨.branch, ?_, ?_⟩⟩))
    all_goals decide +kernel

end PermissionSet

end WorkRouting
