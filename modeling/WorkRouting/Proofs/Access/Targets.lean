/-
What a decision sees of the row it is about.

The row is looked at through scopes only, and each narrow scope asks for one
relation between the actor and the row: the same department, a unit that both
have in common, or being one of the people concerned. Rows are alike for an
actor (`Target.Alike`) when all these relations hold for both or for neither.

- A scope that reaches a row counts in the check of the collection as well, so
  who may act on some row is not denied the collection
  (`canDo_none_of_canDo_some`).
- Where no scope is asked, or only the scope of everything, no row shows at all
  (`canDo_some_eq_canDo_none`).
- Elsewhere rows that are alike get the same decision (`canDo_eq_of_alike`):
  ids, and units that the actor and the row do not have in common, leave no
  trace. No others get it under every set of scopes, since a difference in one
  relation shows under the scope that asks for it (`alike_of_canDo_eq`).
-/
import WorkRouting.Proofs.Access.Scopes

namespace WorkRouting

open PermissionSet (only)
open TextDecision (relations relations_eq_map)

/-- Two rows that stand in the same relations to the actor: as to departments,
to a unit in common at each other level, and to the people concerned. -/
def Target.Alike (actor : Actor) (t t' : Target) : Prop :=
  relations actor t = relations actor t'

instance (actor : Actor) (t t' : Target) : Decidable (t.Alike actor t') :=
  inferInstanceAs (Decidable (relations actor t = relations actor t'))

/-- Only orders and users are owned. -/
theorem Resource.isSimple_eq_false_iff {r : Resource} :
    r.isSimple = false ↔ r = .orders ∨ r = .users := by
  cases r <;> decide

section Targets

variable {p : Permission} {actor : Actor} {set : PermissionSet}
  {t t' : Target}

-- ============================================================ the relations

theorem Scope.opens_iff {s : Scope} {target : Option Target} :
    s.opens p actor target = true
      ↔ s = .all ∨ p.resource.isSimple = false
          ∧ target.all (s.reaches actor) = true := by
  by_cases hs : s = .all
  · rw [hs]
    simp [opens]
  · simp [opens_of_ne_all hs, hs]

/-- The scope of everything asks for no relation. -/
theorem Scope.all_reaches (actor : Actor) (t : Target) :
    Scope.all.reaches actor t = false := by
  cases t <;> rfl

/-- Owned rows are alike exactly where every scope reaches both or neither. -/
theorem Target.alike_iff_reaches_eq (ht : t ≠ .simple) (ht' : t' ≠ .simple) :
    t.Alike actor t'
      ↔ ∀ s : Scope, s.reaches actor t = s.reaches actor t' := by
  have hmem : ∀ s, s ∈ [Scope.department, .otdel, .branch, .office, .own]
      ↔ s ≠ .all := by
    intro s
    cases s <;> decide
  unfold Target.Alike
  rw [relations_eq_map actor ht, relations_eq_map actor ht']
  simp only [List.map_inj_left, Prod.mk.injEq, true_and, hmem]
  constructor
  · intro h s
    by_cases hs : s = .all
    · rw [hs, Scope.all_reaches, Scope.all_reaches]
    · exact h s hs
  · exact fun h s _ => h s

-- ======================================================= row and collection

theorem canDo_none_of_canDo_some (h : canDo p actor set (some t) = true) :
    canDo p actor set none = true := by
  simp only [canDo_iff, Scope.opens_iff] at h ⊢
  refine h.imp_right (And.imp_right (Or.imp_right ?_))
  rintro ⟨s, hs, hopens⟩
  exact ⟨s, hs, hopens.imp_right fun howned => ⟨howned.1, rfl⟩⟩

theorem canDo_some_eq_canDo_none
    (h : p.action = .create ∨ p.resource.isSimple = true) :
    canDo p actor set (some t) = canDo p actor set none := by
  rw [Bool.eq_iff_iff, canDo_iff, canDo_iff]
  rcases h with hcreate | hsimple
  · have hunscoped : p.unscoped = true := by
      simp [Permission.unscoped, hcreate]
    simp only [hunscoped, true_or]
  · simp only [Scope.opens_iff, hsimple, Bool.true_eq_false, false_and]

-- ============================================================== rows apart

/-- Rows that are alike get the same decision from every set. -/
theorem canDo_eq_of_alike (ht : t ≠ .simple) (ht' : t' ≠ .simple)
    (h : t.Alike actor t') :
    canDo p actor set (some t) = canDo p actor set (some t') := by
  have hreaches := (Target.alike_iff_reaches_eq ht ht').1 h
  rw [Bool.eq_iff_iff, canDo_iff, canDo_iff]
  simp only [Scope.opens_iff, Option.all_some, hreaches]

/-- Rows that get the same decision under each narrow scope are alike, where
scopes are asked. -/
theorem alike_of_canDo_eq (ht : t ≠ .simple) (ht' : t' ≠ .simple)
    (hp : p.action ≠ .create) (howned : p.resource.isSimple = false)
    (h : ∀ s : Scope, s ≠ .all →
      canDo p actor ((only p).withScope s) (some t)
        = canDo p actor ((only p).withScope s) (some t')) :
    t.Alike actor t' := by
  have hscoped : p.unscoped = false := by
    simp [Permission.unscoped, hp, howned]
  refine (Target.alike_iff_reaches_eq ht ht').2 fun s => ?_
  by_cases hs : s = .all
  · rw [hs, Scope.all_reaches, Scope.all_reaches]
  · have hsame := h s hs
    rw [Bool.eq_iff_iff, canDo_only_withScope_iff, canDo_only_withScope_iff]
      at hsame
    simp only [Scope.opens_iff, hscoped, hs, howned, Bool.false_eq_true,
      false_or, true_and, Option.all_some] at hsame
    exact Bool.eq_iff_iff.2 hsame

/-- A single narrow scope makes nobody a superuser and is not the scope of
everything. -/
theorem PermissionSet.narrow_withScope {s : Scope} (hs : s ≠ .all) :
    ((only p).withScope s).isSuperuser = false
      ∧ ((only p).withScope s).hasScope .all = false := by
  rw [Bool.eq_false_iff, Bool.eq_false_iff, Ne, Ne, isSuperuser_iff_mem,
    hasScope_iff_mem]
  simp [withScope, mem_insert, mem_only, hs.symm]

/-- How far a decision depends on the row it is about, for every permission,
actor and set. Who may act on a row is allowed the collection. The row makes no
difference to a creation, nor where nobody owns the rows. Elsewhere two orders,
or two employees, get the same decision from every set with neither the
superuser flag nor the scope of everything exactly where they are alike, so
whatever else tells them apart is not seen, and nothing that makes them unlike
is overlooked. -/
theorem canDo_sees_relations (p : Permission) (actor : Actor) :
    (∀ set t, canDo p actor set (some t) = true →
        canDo p actor set none = true)
      ∧ (p.action = .create ∨ p.resource ≠ .orders ∧ p.resource ≠ .users →
          ∀ set t, canDo p actor set (some t) = canDo p actor set none)
      ∧ (p.action ≠ .create → p.resource = .orders ∨ p.resource = .users →
          ∀ t t' : Target, t ≠ .simple → t' ≠ .simple →
            (t.Alike actor t'
              ↔ ∀ set : PermissionSet, set.isSuperuser = false →
                  set.hasScope .all = false →
                  canDo p actor set (some t)
                    = canDo p actor set (some t'))) := by
  refine ⟨fun set t => canDo_none_of_canDo_some, fun h set t => ?_,
    fun hp howned t t' ht ht' => ⟨fun h set _ _ => ?_, fun h => ?_⟩⟩
  · refine canDo_some_eq_canDo_none (h.imp_right fun hsimple => ?_)
    rw [← Bool.not_eq_false, Resource.isSimple_eq_false_iff, not_or]
    exact hsimple
  · exact canDo_eq_of_alike ht ht' h
  · refine alike_of_canDo_eq ht ht' hp
      (Resource.isSimple_eq_false_iff.2 howned) fun s hs => ?_
    obtain ⟨hsuper, hall⟩ := PermissionSet.narrow_withScope (p := p) hs
    exact h _ hsuper hall

end Targets

-- ========================================================== two other orders

namespace TextDecision

/-- The sample order again, for other people of another department and an
office that the actor does not have. -/
def otherTarget : Target :=
  .order { department := 8, branch := some 30, office := some 4, creator := 3,
           executor := 4 }

/-- An order of another branch. -/
def strayTarget : Target :=
  .order { department := 6, branch := some 31, creator := 1, executor := 2 }

/-- The first two orders are alike and both are open to who holds the branch,
so the collection is too; the third is unlike them. A status is the same row
for everybody. -/
theorem sampleTargets_decided :
    sampleTarget.Alike sampleActor otherTarget
      ∧ canDo samplePermission sampleActor
          ((only samplePermission).withScope .branch) (some otherTarget) = true
      ∧ canDo samplePermission sampleActor
          ((only samplePermission).withScope .branch) none = true
      ∧ ¬ sampleTarget.Alike sampleActor strayTarget
      ∧ canDo ⟨.statuses, .update, none⟩ sampleActor
          ((only ⟨.statuses, .update, none⟩).withScope .branch)
          (some otherTarget)
        = canDo ⟨.statuses, .update, none⟩ sampleActor
            ((only ⟨.statuses, .update, none⟩).withScope .branch) none := by
  obtain ⟨hnone, -, hrows⟩ := canDo_sees_relations samplePermission sampleActor
  obtain ⟨-, hsimple, -⟩ :=
    canDo_sees_relations ⟨.statuses, .update, none⟩ sampleActor
  have hbranch : Scope.branch ≠ .all := by
    decide
  obtain ⟨hsuper, hall⟩ :=
    PermissionSet.narrow_withScope (p := samplePermission) hbranch
  have hiff := hrows (by decide) (by decide) sampleTarget
  have halike : sampleTarget.Alike sampleActor otherTarget := by
    decide +kernel
  have hallowed : canDo samplePermission sampleActor
      ((only samplePermission).withScope .branch) (some sampleTarget)
        = true := by
    decide +kernel
  have hsame := (hiff otherTarget (by decide) (by decide)).1 halike _ hsuper
    hall
  refine ⟨halike, hsame ▸ hallowed, hnone _ _ hallowed, fun hstray => ?_,
    hsimple (by decide) _ _⟩
  have hdenied := (hiff strayTarget (by decide) (by decide)).1 hstray _ hsuper
    hall
  rw [hallowed] at hdenied
  revert hdenied
  decide +kernel

end TextDecision

end WorkRouting
