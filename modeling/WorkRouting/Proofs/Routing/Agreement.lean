/-
Routing does not depend on how a directory orders its answers, nor on how far
it over-approximates them. A directory may return more rules than those asked
for, in any order, and the holders of a position in any order; this file says
when two directories count as giving the same answers (`Directory.Agrees`) and
derives that every decision over them is the same, reported events included.

The argument has one idea: a choice by least key depends on the elements alone
as soon as no two of them share a key (`least_eq_of_mem_iff`), and both keys of
routing, the precedence of a rule and the rank of a holder, end in an id. The
decisions read their lists through nothing but such choices, each after a
filter of its own, so what a filter discards may differ freely.
-/
import Mathlib.Data.List.Nodup
import WorkRouting.Proofs.Least
import WorkRouting.Roster
import WorkRouting.Routing.Resolution

namespace WorkRouting

variable {α : Type}

-- ======================================================== agreeing answers

/-- The same elements up to order, no two of them with one id. -/
def SameUpToOrder (id : α → Int64) (l₁ l₂ : List α) : Prop :=
  l₁.Perm l₂ ∧ (l₁.map id).Nodup

/-- Both lookups fail for one cause, or both succeed with the same in the sense
given. -/
def Lookup.Agrees (same : α → α → Prop) : Lookup α → Lookup α → Prop
  | .ok a, .ok b => same a b
  | .error e, .error f => e = f
  | _, _ => False

/-- Two directories that tell routing the same: equal answers where one person
is asked for, the same holders in any order, and the same rules in any order
once those that do not match the question are discarded. -/
structure Directory.Agrees (d e : Directory) : Prop where
  users : ∀ user, d.findActiveUser user = e.findActiveUser user
  heads : ∀ q, d.findByHierarchy q = e.findByHierarchy q
  holders : ∀ p, Lookup.Agrees (SameUpToOrder Actor.id)
    (d.positionHolders p) (e.positionHolders p)
  matching : ∀ ctx, Lookup.Agrees
    (fun l₁ l₂ => SameUpToOrder Rule.id
      (l₁.filter (·.fits ctx)) (l₂.filter (·.fits ctx)))
    (d.matchingRules ctx) (e.matchingRules ctx)
  typed : ∀ t, Lookup.Agrees
    (fun l₁ l₂ => SameUpToOrder Rule.id
      (l₁.filter (·.orderType == some t)) (l₂.filter (·.orderType == some t)))
    (d.rulesForOrderType t) (e.rulesForOrderType t)

/-- Lookups that agree are both failures or both successes. -/
theorem Lookup.Agrees.cases {same : α → α → Prop} {x y : Lookup α}
    (h : Lookup.Agrees same x y) :
    (∃ e, x = .error e ∧ y = .error e)
      ∨ ∃ a b, x = .ok a ∧ y = .ok b ∧ same a b := by
  cases x with
  | error e =>
      cases y with
      | error f => exact Or.inl ⟨e, rfl, congrArg Except.error (Eq.symm h)⟩
      | ok b => exact h.elim
  | ok a =>
      cases y with
      | error f => exact h.elim
      | ok b => exact Or.inr ⟨a, b, rfl, rfl, h⟩

-- ================================================= choices up to order

/-- Rules with one precedence have one id: it ends the key. -/
theorem Rule.id_eq_of_precedence {r s : Rule}
    (h : r.precedence = s.precedence) :
    r.id = s.id := by
  simp only [precedence, List.cons.injEq] at h
  exact Int64.toInt_inj.1 h.2.2.2.2.2.1

/-- Holders with one rank have one id. -/
theorem Actor.id_eq_of_holderRank {ctx : Context} {a b : Actor}
    (h : ctx.holderRank a = ctx.holderRank b) : a.id = b.id := by
  simp only [Context.holderRank, List.cons.injEq] at h
  exact Int64.toInt_inj.1 h.2.2.2.2.1

/-- A filter keeps sameness up to order. -/
theorem SameUpToOrder.filter {id : α → Int64} {l₁ l₂ : List α}
    (h : SameUpToOrder id l₁ l₂) (p : α → Bool) :
    SameUpToOrder id (l₁.filter p) (l₂.filter p) :=
  ⟨h.1.filter p, h.2.sublist (List.filter_sublist.map id)⟩

theorem SameUpToOrder.perm {id : α → Int64} {l₁ l₂ l₁' l₂' : List α}
    (h : SameUpToOrder id l₁ l₂) (h₁ : l₁.Perm l₁') (h₂ : l₂.Perm l₂') :
    SameUpToOrder id l₁' l₂' :=
  ⟨h₁.symm.trans (h.1.trans h₂), (h₁.map id).nodup_iff.1 h.2⟩

/-- A choice under a key that tells ids apart does not see the order. -/
theorem SameUpToOrder.least_eq {id : α → Int64} {key : α → Key}
    {l₁ l₂ : List α}
    (h : SameUpToOrder id l₁ l₂) (hkey : ∀ a b, key a = key b → id a = id b) :
    least key l₁ = least key l₂ := by
  refine least_eq_of_mem_iff (fun _ => h.1.mem_iff) fun a ha b hb hab => ?_
  exact List.inj_on_of_nodup_map h.2 ha hb (hkey a b hab)

theorem Rule.select_eq_of_same {l₁ l₂ : List Rule} {ctx : Context}
    (h : SameUpToOrder Rule.id
      (l₁.filter (·.fits ctx)) (l₂.filter (·.fits ctx))) :
    Rule.select l₁ ctx = Rule.select l₂ ctx :=
  h.least_eq fun _ _ => id_eq_of_precedence

theorem Rule.selectPinning_eq_of_same {l₁ l₂ : List Rule}
    (h : SameUpToOrder Rule.id l₁ l₂) :
    Rule.selectPinning l₁ = Rule.selectPinning l₂ :=
  (h.filter pinsUnit).least_eq fun _ _ => id_eq_of_precedence

theorem Rule.selectHolder_eq_of_same (r : Rule) (ctx : Context)
    {l₁ l₂ : List Actor} (h : SameUpToOrder Actor.id l₁ l₂) :
    r.selectHolder ctx l₁ = r.selectHolder ctx l₂ :=
  (h.filter r.admits).least_eq fun _ _ => Actor.id_eq_of_holderRank

-- =============================================== decisions, step by step

namespace Directory.Agrees

variable {d e : Directory}

theorem resolveExplicit_eq (h : d.Agrees e) (ctx : Context) (user : UserId) :
    d.resolveExplicit ctx user = e.resolveExplicit ctx user := by
  unfold resolveExplicit
  rw [h.users]

theorem resolveByRule_eq (h : d.Agrees e) (ctx : Context) (r : Rule) :
    d.resolveByRule ctx r = e.resolveByRule ctx r := by
  unfold resolveByRule
  rcases (h.holders r.position).cases with
    ⟨cause, hd, he⟩ | ⟨l₁, l₂, hd, he, hsame⟩
  · rw [hd, he]
  · rw [hd, he]
    dsimp only
    rw [r.selectHolder_eq_of_same ctx hsame]

theorem resolveByHierarchy_eq (h : d.Agrees e) (ctx : Context) :
    d.resolveByHierarchy ctx = e.resolveByHierarchy ctx := by
  unfold resolveByHierarchy
  cases HierarchyQuery.ofContext ctx with
  | none => rfl
  | some q =>
      dsimp only
      rw [h.heads]

/-- Agreeing directories decide alike: the lists differ only in what the choice
of a rule and the choice of a holder do not see. -/
theorem resolve_eq (h : d.Agrees e) (ctx : Context)
    (explicit : Option UserId) :
    d.resolve ctx explicit = e.resolve ctx explicit := by
  unfold resolve
  cases explicit with
  | some user => exact h.resolveExplicit_eq ctx user
  | none =>
      dsimp only
      rcases (h.matching ctx).cases with
        ⟨cause, hd, he⟩ | ⟨l₁, l₂, hd, he, hsame⟩
      · rw [hd, he]
      · rw [hd, he]
        dsimp only
        rw [Rule.select_eq_of_same hsame]
        cases Rule.select l₂ ctx with
        | none => exact h.resolveByHierarchy_eq ctx
        | some r => exact h.resolveByRule_eq ctx r

theorem predefinedRoute_eq (h : d.Agrees e) (t : OrderTypeId) :
    d.predefinedRoute t = e.predefinedRoute t := by
  unfold predefinedRoute
  rcases (h.typed t).cases with ⟨cause, hd, he⟩ | ⟨l₁, l₂, hd, he, hsame⟩
  · rw [hd, he]
  · rw [hd, he]
    dsimp only
    rw [Rule.selectPinning_eq_of_same hsame]

end Directory.Agrees

/-- Directories that agree decide alike, on every order and every explicit
choice, and fix the same units for every order type: the order of their lists
and the rules that match nothing leave no trace, reported events included. -/
theorem Directory.decisions_eq_of_agrees {d e : Directory} (h : d.Agrees e) :
    (∀ ctx explicit, d.resolve ctx explicit = e.resolve ctx explicit)
      ∧ ∀ t, d.predefinedRoute t = e.predefinedRoute t :=
  ⟨h.resolve_eq, h.predefinedRoute_eq⟩

-- ==================================================== a widened directory

/-- Two holders of one position and three rules, of which the second and the
third match the same orders of type 3 and tie but for their ids. -/
def Roster.sample : Roster where
  entries :=
    [{ actor := { id := 7, department := 10, position := some 22 } },
      { actor := { id := 5, department := 20, position := some 22 } }]
  rules :=
    [{ id := 1, orderType := some 4, department := some 10, position := 22,
        status := 1 },
      { id := 9, orderType := some 3, otdel := some 100, position := 22,
        status := 2 },
      { id := 2, orderType := some 3, otdel := some 100, position := 22,
        status := 3 }]

/-- A directory that answers both rule lookups with all the rules of a roster,
backwards, and lists the holders of a position backwards as well. -/
def Roster.backwards (r : Roster) : Directory :=
  { r.directory.offering r.rules.reverse with
    positionHolders := fun p =>
      (r.directory.positionHolders p).map List.reverse }

/-- Asking a list for what it was already asked for, or a widened one that was
turned around, comes to the same. -/
theorem Rule.same_filter_reverse {rules : List Rule}
    (h : (rules.map Rule.id).Nodup) (p : Rule → Bool) :
    SameUpToOrder Rule.id
      ((rules.filter p).filter p) (rules.reverse.filter p) := by
  have hsame : SameUpToOrder Rule.id rules rules.reverse :=
    ⟨(List.reverse_perm _).symm, h⟩
  rw [List.filter_filter]
  simp only [Bool.and_self]
  exact hsame.filter p

/-- Where no id stands twice, widening the lists and turning them around is no
change that routing could see. -/
theorem Roster.agrees_backwards {r : Roster}
    (hrules : (r.rules.map Rule.id).Nodup)
    (hactors : (r.entries.map (·.actor.id)).Nodup) :
    r.directory.Agrees r.backwards where
  users _ := rfl
  heads _ := rfl
  holders p := by
    refine ⟨(List.reverse_perm _).symm, ?_⟩
    have hperm := List.mergeSort_perm
      (r.activeWhere (·.actor.position == some p))
      fun a b => decide (a.id ≤ b.id)
    rw [(hperm.map Actor.id).nodup_iff]
    unfold activeWhere active
    rw [List.map_map]
    exact hactors.sublist
      ((List.filter_sublist.trans List.filter_sublist).map _)
  matching ctx := Rule.same_filter_reverse hrules (·.fits ctx)
  typed t := Rule.same_filter_reverse hrules (·.orderType == some t)

/-- The sample and its widened reverse agree, so they decide alike. -/
theorem Roster.sample_decisions_eq_backwards :
    sample.directory.Agrees sample.backwards
      ∧ (∀ ctx explicit,
          sample.directory.resolve ctx explicit
            = sample.backwards.resolve ctx explicit)
      ∧ ∀ t, sample.directory.predefinedRoute t
          = sample.backwards.predefinedRoute t :=
  have h : sample.directory.Agrees sample.backwards :=
    agrees_backwards (by decide) (by decide)
  ⟨h, Directory.decisions_eq_of_agrees h⟩

end WorkRouting
