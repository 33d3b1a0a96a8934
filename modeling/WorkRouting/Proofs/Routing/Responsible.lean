/-
Who answers for an order that no rule matches: the head of its first unit.

The search is put together from the level of the kind that is sought and from
the units that the order has. `Context.AnsweredBy` says what comes of that, one
case for each unit that may be the first: an order for a department is answered
by the head of it, whatever else it names; a branch narrows the search for a
manager of an otdel; and an office counts only on an order that has nothing but
it (`HierarchyQuery.accepts_iff`).

A roster and a store find such a head in their own ways, the one as the first
least id in the order of registration, the other as the first row by id. Both
find, among the active employees whose own position and units answer for the
order, the one with the lowest id, or say that there is none
(`Directory.LeftToHeads`). Ids may repeat in a roster, and then the earlier
registration counts; they do not repeat in a store.
-/
import WorkRouting.Proofs.Store.UnitHead

namespace WorkRouting

open Roster (Entry)

-- ============================================================== vocabulary

/-- Who answers for an order, by the first unit that it has. -/
inductive Context.AnsweredBy (ctx : Context) (a : Actor) : PositionType → Prop
  | department {n : DepartmentId} :
      ctx.department = some n → a.department = n →
      AnsweredBy ctx a .headOfDepartment
  | otdel {n : OtdelId} :
      ctx.department = none → ctx.otdel = some n → a.otdel = some n →
      (∀ b, ctx.branch = some b → a.branch = some b) →
      AnsweredBy ctx a .managerOfOtdel
  | branch {n : BranchId} :
      ctx.department = none → ctx.otdel = none → ctx.branch = some n →
      a.branch = some n →
      AnsweredBy ctx a .branchDirector
  | office {n : OfficeId} :
      ctx.department = none → ctx.otdel = none → ctx.branch = none →
      ctx.office = some n → a.office = some n →
      AnsweredBy ctx a .headOfOffice

/-- The employee answers for the order in the position of the registration. -/
def Roster.Entry.AnswersFor (e : Entry) (ctx : Context) : Prop :=
  ∃ kind, e.kind = some kind ∧ ctx.AnsweredBy e.actor kind

/-- The employee is registered as active besides. -/
def Roster.Entry.IsHeadFor (e : Entry) (ctx : Context) : Prop :=
  e.active = true ∧ e.AnswersFor ctx

def Roster.HeadFor (r : Roster) (ctx : Context) (a : Actor) : Prop :=
  ∃ e ∈ r.entries, e.IsHeadFor ctx ∧ e.actor = a

/-- Of the heads the one with the lowest id, and the first registered with
it. -/
def Roster.FirstHeadFor (r : Roster) (ctx : Context) (a : Actor) : Prop :=
  ∃ before e after, r.entries = before ++ e :: after
    ∧ e.IsHeadFor ctx ∧ e.actor = a
    ∧ (∀ f ∈ before, f.IsHeadFor ctx → a.id < f.actor.id)
    ∧ ∀ f ∈ after, f.IsHeadFor ctx → a.id ≤ f.actor.id

/-- The employee is recorded in a row that is not retired and answers for the
order. -/
def Store.HeadFor (s : Store) (ctx : Context) (a : Actor) : Prop :=
  ∃ u ∈ s.rows .users, u .deletedAt = .null
    ∧ ∃ e, s.Records u e ∧ e.AnswersFor ctx ∧ e.actor = a

/-- Of the heads the one with the lowest id, which no other has. -/
def Store.FirstHeadFor (s : Store) (ctx : Context) (a : Actor) : Prop :=
  s.HeadFor ctx a ∧ ∀ b, s.HeadFor ctx b → b ≠ a → a.id < b.id

/-- A decision that is left to the heads names the first of them, without a
status, and fails exactly for want of one. -/
structure Directory.LeftToHeads (d : Directory) (ctx : Context)
    (heads first : Actor → Prop) : Prop where
  named_iff : ∀ r, (d.resolve ctx none).answer = .ok r
    ↔ ∃ a, first a ∧ r = { executor := a, status := none, ruleFound := false }
  refused_iff : ∀ e, (d.resolve ctx none).answer = .error e
    ↔ (∀ a, ¬ heads a)
      ∧ ∃ kind, ctx.responsible = some kind ∧ e = .noHolderForPositionType kind

variable {ctx : Context} {q : HierarchyQuery} {a : Actor} {kind : PositionType}

-- ================================================= who answers, unit by unit

namespace Context

theorem answeredBy_iff_of_department {n : DepartmentId}
    (hd : ctx.department = some n) :
    ctx.AnsweredBy a kind ↔ kind = .headOfDepartment ∧ a.department = n := by
  constructor
  · intro h
    cases h with
    | department hd' ha =>
        rw [hd] at hd'
        cases hd'
        exact ⟨rfl, ha⟩
    | otdel hd' | branch hd' | office hd' =>
        rw [hd] at hd'
        cases hd'
  · rintro ⟨rfl, ha⟩
    exact .department hd ha

theorem answeredBy_iff_of_otdel {n : OtdelId} (hd : ctx.department = none)
    (ho : ctx.otdel = some n) :
    ctx.AnsweredBy a kind
      ↔ kind = .managerOfOtdel ∧ a.otdel = some n
        ∧ ∀ b, ctx.branch = some b → a.branch = some b := by
  constructor
  · intro h
    cases h with
    | department hd' =>
        rw [hd] at hd'
        cases hd'
    | otdel _ ho' ha hbranch =>
        rw [ho] at ho'
        cases ho'
        exact ⟨rfl, ha, hbranch⟩
    | branch _ ho' | office _ ho' =>
        rw [ho] at ho'
        cases ho'
  · rintro ⟨rfl, ha, hbranch⟩
    exact .otdel hd ho ha hbranch

theorem answeredBy_iff_of_branch {n : BranchId} (hd : ctx.department = none)
    (ho : ctx.otdel = none) (hb : ctx.branch = some n) :
    ctx.AnsweredBy a kind ↔ kind = .branchDirector ∧ a.branch = some n := by
  constructor
  · intro h
    cases h with
    | department hd' =>
        rw [hd] at hd'
        cases hd'
    | otdel _ ho' =>
        rw [ho] at ho'
        cases ho'
    | branch _ _ hb' ha =>
        rw [hb] at hb'
        cases hb'
        exact ⟨rfl, ha⟩
    | office _ _ hb' =>
        rw [hb] at hb'
        cases hb'
  · rintro ⟨rfl, ha⟩
    exact .branch hd ho hb ha

theorem answeredBy_iff_of_office {n : OfficeId} (hd : ctx.department = none)
    (ho : ctx.otdel = none) (hb : ctx.branch = none)
    (hf : ctx.office = some n) :
    ctx.AnsweredBy a kind ↔ kind = .headOfOffice ∧ a.office = some n := by
  constructor
  · intro h
    cases h with
    | department hd' =>
        rw [hd] at hd'
        cases hd'
    | otdel _ ho' =>
        rw [ho] at ho'
        cases ho'
    | branch _ _ hb' =>
        rw [hb] at hb'
        cases hb'
    | office _ _ _ hf' ha =>
        rw [hf] at hf'
        cases hf'
        exact ⟨rfl, ha⟩
  · rintro ⟨rfl, ha⟩
    exact .office hd ho hb hf ha

end Context

-- ============================================================== the search

/-- The search for each first unit that an order may have. -/
theorem HierarchyQuery.ofContext_cases
    (hq : HierarchyQuery.ofContext ctx = some q) :
    (∃ n, ctx.department = some n ∧ q = ⟨.headOfDepartment, [.department n]⟩)
      ∨ (∃ n, ctx.department = none ∧ ctx.otdel = some n
        ∧ q = ⟨.managerOfOtdel, .otdel n :: (ctx.branch.map .branch).toList⟩)
      ∨ (∃ n, ctx.department = none ∧ ctx.otdel = none ∧ ctx.branch = some n
        ∧ q = ⟨.branchDirector, [.branch n]⟩)
      ∨ ∃ n, ctx.department = none ∧ ctx.otdel = none ∧ ctx.branch = none
        ∧ ctx.office = some n ∧ q = ⟨.headOfOffice, [.office n]⟩ := by
  obtain ⟨orderType, department, otdel, branch, office⟩ := ctx
  match department, otdel, branch, office with
  | some n, _, _, _ =>
      cases hq
      exact Or.inl ⟨n, rfl, rfl⟩
  | none, some n, none, _ =>
      cases hq
      exact Or.inr (Or.inl ⟨n, rfl, rfl, rfl⟩)
  | none, some n, some b, _ =>
      cases hq
      exact Or.inr (Or.inl ⟨n, rfl, rfl, rfl⟩)
  | none, none, some n, _ =>
      cases hq
      exact Or.inr (Or.inr (Or.inl ⟨n, rfl, rfl, rfl, rfl⟩))
  | none, none, none, some n =>
      cases hq
      exact Or.inr (Or.inr (Or.inr ⟨n, rfl, rfl, rfl, rfl, rfl⟩))
  | none, none, none, none => cases hq

/-- A branch narrows the search exactly if there is one. -/
theorem UnitPredicate.all_branch_iff {branch : Option BranchId} :
    (branch.map UnitPredicate.branch).toList.all (·.holdsFor a) = true
      ↔ ∀ b, branch = some b → a.branch = some b := by
  cases branch <;> simp [UnitPredicate.holdsFor]

/-- The search is for those who answer for the order. -/
theorem HierarchyQuery.accepts_iff
    (hq : HierarchyQuery.ofContext ctx = some q) :
    q.accepts a kind = true ↔ ctx.AnsweredBy a kind := by
  rw [HierarchyQuery.accepts, Bool.and_eq_true, beq_iff_eq]
  rcases HierarchyQuery.ofContext_cases hq with ⟨n, hd, rfl⟩ |
    ⟨n, hd, ho, rfl⟩ | ⟨n, hd, ho, hb, rfl⟩ | ⟨n, hd, ho, hb, hf, rfl⟩
  · rw [Context.answeredBy_iff_of_department hd]
    simp [UnitPredicate.holdsFor]
  · rw [Context.answeredBy_iff_of_otdel hd ho, List.all_cons,
      Bool.and_eq_true, UnitPredicate.all_branch_iff]
    simp [UnitPredicate.holdsFor]
  · rw [Context.answeredBy_iff_of_branch hd ho hb]
    simp [UnitPredicate.holdsFor]
  · rw [Context.answeredBy_iff_of_office hd ho hb hf]
    simp [UnitPredicate.holdsFor]

/-- A registration is sought exactly if it answers for the order. -/
theorem Roster.Entry.soughtBy_iff {e : Entry}
    (hq : HierarchyQuery.ofContext ctx = some q) :
    e.soughtBy q = true ↔ e.AnswersFor ctx := by
  unfold Roster.Entry.soughtBy Roster.Entry.AnswersFor
  cases e.kind with
  | none => simp
  | some kind => simp [HierarchyQuery.accepts_iff hq]

theorem Context.exists_ofContext (hctx : ¬ ctx.Unplaced) :
    ∃ q, HierarchyQuery.ofContext ctx = some q := by
  refine Option.ne_none_iff_exists'.1 fun hnone => hctx ?_
  exact HierarchyQuery.ofContext_eq_none_iff.1 hnone

-- ============================================================ the decision

namespace Directory

variable {d : Directory}

/-- Without a rule and with a unit, the decision is what the search finds. -/
theorem leftToHeads {rules : List Rule} {found : Option Actor}
    {heads first : Actor → Prop} (hrules : d.matchingRules ctx = .ok rules)
    (hnone : ∀ r ∈ rules, r.fits ctx = false)
    (hq : HierarchyQuery.ofContext ctx = some q)
    (hfound : d.findByHierarchy q = .ok found)
    (hfirst : ∀ a, found = some a ↔ first a)
    (hvacant : found = none ↔ ∀ a, ¬ heads a) :
    d.LeftToHeads ctx heads first := by
  have hkind := HierarchyQuery.responsible_of_ofContext hq
  cases found with
  | none =>
      have hanswer : (d.resolve ctx none).answer
          = .error (.noHolderForPositionType q.kind) :=
        (Decides.headless hrules hnone hq hkind hfound).answer_eq
      constructor
      · intro r
        rw [hanswer]
        simp [← hfirst]
      · intro e
        rw [hanswer]
        simp [← hvacant, hkind, eq_comm]
  | some a =>
      have hanswer : (d.resolve ctx none).answer
          = .ok { executor := a, status := none, ruleFound := false } :=
        (Decides.headed hrules hnone hq hfound).answer_eq
      constructor
      · intro r
        rw [hanswer]
        simp [← hfirst, eq_comm]
      · intro e
        rw [hanswer]
        simp [← hvacant]

/-- The search fails for want of a unit exactly on orders that have none. -/
theorem resolveByHierarchy_eq_noOrganizationalUnit_iff :
    (d.resolveByHierarchy ctx).answer = .error .noOrganizationalUnit
      ↔ ctx.Unplaced := by
  rw [← HierarchyQuery.ofContext_eq_none_iff]
  unfold resolveByHierarchy
  cases hq : HierarchyQuery.ofContext ctx with
  | none => simp
  | some q =>
      dsimp only
      rcases d.findByHierarchy q with cause | _ | a <;> simp

end Directory

-- ================================================================== a roster

theorem Actor.idKey_lt_iff {b : Actor} : a.idKey < b.idKey ↔ a.id < b.id := by
  rw [Actor.idKey, Actor.idKey, List.cons_lt_cons_iff, Int64.lt_iff_toInt_lt]
  simp

theorem Actor.not_idKey_lt_iff {b : Actor} :
    ¬ b.idKey < a.idKey ↔ a.id ≤ b.id := by
  rw [Actor.idKey_lt_iff, Int64.not_lt]

namespace Roster

variable {r : Roster}

theorem Entry.isHeadFor_iff {e : Entry}
    (hq : HierarchyQuery.ofContext ctx = some q) :
    (e.soughtBy q && e.active) = true ↔ e.IsHeadFor ctx := by
  rw [Bool.and_eq_true, Entry.soughtBy_iff hq, and_comm, Entry.IsHeadFor]

/-- The first least of those sought is the first head. -/
theorem least_activeWhere_eq_some_iff
    (hq : HierarchyQuery.ofContext ctx = some q) :
    least Actor.idKey (r.activeWhere (·.soughtBy q)) = some a
      ↔ r.FirstHeadFor ctx a := by
  rw [least_eq_some_iff, activeWhere, active, List.filter_filter,
    firstLeast_map_filter_iff, FirstHeadFor]
  refine exists_congr fun before => exists_congr fun e =>
    exists_congr fun after => and_congr_right fun _ => ?_
  rw [Entry.isHeadFor_iff hq]
  refine and_congr_right fun _ => and_congr_right ?_
  rintro rfl
  simp only [Entry.isHeadFor_iff hq, Actor.idKey_lt_iff, Int64.not_lt]

theorem least_activeWhere_eq_none_iff
    (hq : HierarchyQuery.ofContext ctx = some q) :
    least Actor.idKey (r.activeWhere (·.soughtBy q)) = none
      ↔ ∀ a, ¬ r.HeadFor ctx a := by
  rw [least_eq_none, activeWhere, active, List.filter_filter,
    List.map_eq_nil_iff, List.filter_eq_nil_iff]
  simp only [Entry.isHeadFor_iff hq]
  constructor
  · rintro h a ⟨e, he, hhead, -⟩
    exact h e he hhead
  · intro h e he hhead
    exact h e.actor ⟨e, he, hhead, rfl⟩

/-- A roster leaves an order that no rule matches to its first head. -/
theorem leftToHeads (hctx : ¬ ctx.Unplaced)
    (hnone : ∀ rule ∈ r.rules, rule.fits ctx = false) :
    r.directory.LeftToHeads ctx (r.HeadFor ctx) (r.FirstHeadFor ctx) := by
  obtain ⟨q, hq⟩ := Context.exists_ofContext hctx
  exact Directory.leftToHeads rfl
    (fun rule hrule => hnone rule (List.mem_of_mem_filter hrule)) hq rfl
    (fun _ => least_activeWhere_eq_some_iff hq)
    (least_activeWhere_eq_none_iff hq)

end Roster

-- =================================================================== a store

namespace Store

variable {s : Store}

/-- The heads are those whom the rows sought record. -/
theorem Sound.headFor_iff (h : s.Sound)
    (hq : HierarchyQuery.ofContext ctx = some q) :
    s.HeadFor ctx a ↔ ∃ u ∈ s.heads q, ∃ e, s.Records u e ∧ e.actor = a := by
  constructor
  · rintro ⟨u, hu, hactive, e, he, hanswers, rfl⟩
    refine ⟨u, List.mem_filter.2 ⟨hu, ?_⟩, e, he, rfl⟩
    rw [he.seeks_eq h, Bool.and_eq_true, isActive_eq_true_iff,
      Entry.soughtBy_iff hq]
    exact ⟨hactive, hanswers⟩
  · rintro ⟨u, hu, e, he, rfl⟩
    obtain ⟨hmem, hseeks⟩ := List.mem_filter.1 hu
    rw [he.seeks_eq h, Bool.and_eq_true, isActive_eq_true_iff,
      Entry.soughtBy_iff hq] at hseeks
    exact ⟨u, hmem, hseeks.1, e, he, hseeks.2, rfl⟩

/-- No two heads have one id. -/
theorem Sound.eq_of_headFor (h : s.Sound) {b : Actor} (ha : s.HeadFor ctx a)
    (hb : s.HeadFor ctx b) (hid : a.id = b.id) : a = b := by
  obtain ⟨u, hu, -, e, he, -, rfl⟩ := ha
  obtain ⟨v, hv, -, f, hf, -, rfl⟩ := hb
  have hsame : u = v := by
    refine h.eq_of_id_eq rfl hu hv ?_
    rw [he.id, hf.id, hid]
  subst hsame
  exact Except.ok.inj ((actorOf_eq h he).symm.trans (actorOf_eq h hf))

theorem mem_heads_iff {u v : Row} {rest : List Row}
    (hrows : sortedBy Row.idKey (s.heads q) = u :: rest) :
    v ∈ s.heads q ↔ v = u ∨ v ∈ rest := by
  rw [← (sortedBy_perm Row.idKey (s.heads q)).mem_iff, hrows, List.mem_cons]

/-- The first of the rows that are sought is that of the first head. -/
theorem Sound.firstHeadFor (h : s.Sound)
    (hq : HierarchyQuery.ofContext ctx = some q) {u : Row} {rest : List Row}
    (hrows : sortedBy Row.idKey (s.heads q) = u :: rest) {e : Entry}
    (he : s.Records u e) : s.FirstHeadFor ctx e.actor := by
  have hhead : s.HeadFor ctx e.actor :=
    (h.headFor_iff hq).2 ⟨u, (mem_heads_iff hrows).2 (Or.inl rfl), e, he, rfl⟩
  refine ⟨hhead, fun b hb hne => ?_⟩
  refine Int64.lt_of_le_of_ne ?_ fun hid =>
    hne (h.eq_of_headFor hhead hb hid).symm
  obtain ⟨v, hv, f, hf, rfl⟩ := (h.headFor_iff hq).1 hb
  rw [← Actor.not_idKey_lt_iff, ← he.idKey_eq, ← hf.idKey_eq]
  rcases (mem_heads_iff hrows).1 hv with rfl | hrest
  · exact List.lt_irrefl _
  · have hsorted := pairwise_sortedBy Row.idKey (s.heads q)
    rw [hrows] at hsorted
    exact (List.pairwise_cons.1 hsorted).1 v hrest

/-- The search finds the first head, and nobody exactly if there is no head. -/
theorem Sound.exists_found (h : s.Sound)
    (hq : HierarchyQuery.ofContext ctx = some q) :
    ∃ found, s.searchHierarchy q = .ok found
      ∧ (∀ a, found = some a ↔ s.FirstHeadFor ctx a)
      ∧ (found = none ↔ ∀ a, ¬ s.HeadFor ctx a) := by
  rw [h.searchHierarchy_eq q]
  cases hrows : sortedBy Row.idKey (s.heads q) with
  | nil =>
      have hnone : ∀ a, ¬ s.HeadFor ctx a := by
        intro a ha
        obtain ⟨u, hu, -⟩ := (h.headFor_iff hq).1 ha
        rw [← (sortedBy_perm Row.idKey (s.heads q)).mem_iff, hrows] at hu
        cases hu
      refine ⟨none, rfl, fun a => iff_of_false nofun ?_,
        iff_of_true rfl hnone⟩
      exact fun ha => hnone a ha.1
  | cons u rest =>
      have hu := List.mem_of_mem_filter ((mem_heads_iff hrows).2 (Or.inl rfl))
      obtain ⟨e, he, -⟩ := h.exists_entry hu
      have hfirst := h.firstHeadFor hq hrows he
      refine ⟨some e.actor, ?_, fun a => ?_, iff_of_false nofun ?_⟩
      · rw [firstActor, actorOf_eq h he]
        rfl
      · constructor
        · rintro ⟨⟩
          exact hfirst
        · intro ha
          refine congrArg some (Decidable.byContradiction fun hne => ?_)
          exact Int64.lt_asymm (hfirst.2 a ha.1 (Ne.symm hne))
            (ha.2 e.actor hfirst.1 hne)
      · exact fun hnone => hnone e.actor hfirst.1

/-- A store leaves an order that no row of a rule may match to its first
head. -/
theorem Sound.leftToHeads (h : s.Sound) (hctx : ¬ ctx.Unplaced)
    (hnone : ∀ row ∈ s.rows .orderRoutingRules, ¬ row.MayMatch ctx) :
    (Database.ready s).directory.LeftToHeads ctx (s.HeadFor ctx)
      (s.FirstHeadFor ctx) := by
  obtain ⟨q, hq⟩ := Context.exists_ofContext hctx
  obtain ⟨found, hread, hfirst, hvacant⟩ := h.exists_found hq
  have hrows : (s.rows .orderRoutingRules).filter (Row.admits · ctx) = [] :=
    List.filter_eq_nil_iff.2 fun row hrow =>
      mt Row.admits_iff.1 (hnone row hrow)
  have hrules : s.matchingRules ctx = .ok [] := by
    rw [matchingRules_eq_rulesWhere, rulesWhere, hrows, sortedBy,
      List.mergeSort_nil]
    rfl
  exact Directory.leftToHeads (mapError_eq_ok_iff.2 hrules) (by simp) hq
    (mapError_eq_ok_iff.2 hread) hfirst hvacant

end Store

/-- Who is responsible for an order. The search is for the head of the first
unit that the order has, and fails exactly if it has none. Where no rule
matches, every roster and every store that accepted writes lead to names the
first of the active employees who answer for the order, or fails exactly if
there is nobody. -/
theorem responsible_head :
    (∀ ctx : Context,
        (HierarchyQuery.ofContext ctx = none ↔ ctx.Unplaced)
          ∧ (∀ d : Directory,
              (d.resolveByHierarchy ctx).answer = .error .noOrganizationalUnit
                ↔ ctx.Unplaced)
          ∧ ∀ q, HierarchyQuery.ofContext ctx = some q →
              ∀ a kind, q.accepts a kind = true ↔ ctx.AnsweredBy a kind)
      ∧ (∀ (r : Roster) (ctx : Context), ¬ ctx.Unplaced →
          (∀ rule ∈ r.rules, rule.fits ctx = false) →
          r.directory.LeftToHeads ctx (r.HeadFor ctx) (r.FirstHeadFor ctx))
      ∧ ∀ (s : Store) (ctx : Context), s.Reachable → ¬ ctx.Unplaced →
          (∀ row ∈ s.rows .orderRoutingRules, ¬ row.MayMatch ctx) →
          (Database.ready s).directory.LeftToHeads ctx (s.HeadFor ctx)
            (s.FirstHeadFor ctx) :=
  ⟨fun _ => ⟨HierarchyQuery.ofContext_eq_none_iff,
      fun _ => Directory.resolveByHierarchy_eq_noOrganizationalUnit_iff,
      fun _ hq _ _ => HierarchyQuery.accepts_iff hq⟩,
    fun _ _ => Roster.leftToHeads, fun _ _ h => h.sound.leftToHeads⟩

/-- A department with a deputy, a head who is retired and one who is not,
beside the head of another department. -/
def Roster.understudied : Roster where
  entries :=
    [{ actor := { id := 4, department := 10, position := some 2 },
       kind := some .deputyHeadOfDepartment },
      { actor := { id := 5, department := 10, position := some 1 },
        kind := some .headOfDepartment, active := false },
      { actor := { id := 6, department := 20, position := some 3 },
        kind := some .headOfDepartment },
      { actor := { id := 9, department := 10, otdel := some 1,
                   position := some 1 },
        kind := some .headOfDepartment }]

/-- An order for that department and an otdel. -/
def Context.bothUnits : Context where
  orderType := 3
  department := some 10
  otdel := some 2

/-- An order for the department goes to its own head, who answers for it in
whatever otdel. In the demo organization an order for a branch and its office
goes to the director of the branch; an order for Logistics, which has no head,
fails, although it names the branch as well. -/
theorem responsible_head_samples :
    (∃ q, HierarchyQuery.ofContext Context.bothUnits = some q
        ∧ q.accepts { id := 9, department := 10, otdel := some 1 }
            .headOfDepartment = true)
      ∧ Roster.understudied.FirstHeadFor Context.bothUnits
          { id := 9, department := 10, otdel := some 1, position := some 1 }
      ∧ Store.demo.Reachable
      ∧ Store.demo.FirstHeadFor
          { orderType := 9, branch := some 5, office := some 7 }
          { id := 104, department := 40, branch := some 5, position := some 4,
            isHead := true }
      ∧ ∀ a, ¬ Store.demo.HeadFor
          { orderType := 9, department := some 30, branch := some 5 } a := by
  obtain ⟨hsearch, hroster, hstore⟩ := responsible_head
  have hreach : Store.demo.Reachable :=
    Store.Reachable.empty.seedDemo Store.seedDemo_empty
  have hplaced : ∀ ctx : Context, ctx.responsible ≠ none → ¬ ctx.Unplaced :=
    fun _ h => mt Context.responsible_eq_none_iff.2 h
  refine ⟨⟨_, rfl, ?_⟩, ?_, hreach, ?_, ?_⟩
  · exact ((hsearch Context.bothUnits).2.2 _ rfl _ _).2 (.department rfl rfl)
  · have hleft := hroster Roster.understudied Context.bothUnits
      (hplaced _ (by decide)) (by decide)
    obtain ⟨a, ha, heq⟩ := (hleft.named_iff { executor :=
      { id := 9, department := 10, otdel := some 1, position := some 1 } }).1
        (by decide)
    cases heq
    exact ha
  · have hleft := hstore Store.demo
      { orderType := 9, branch := some 5, office := some 7 } hreach
      (hplaced _ (by decide)) (by decide +kernel)
    obtain ⟨a, ha, heq⟩ := (hleft.named_iff { executor :=
      { id := 104, department := 40, branch := some 5, position := some 4,
        isHead := true } }).1 (by decide +kernel)
    cases heq
    exact ha
  · have hleft := hstore Store.demo
      { orderType := 9, department := some 30, branch := some 5 } hreach
      (hplaced _ (by decide)) (by decide +kernel)
    exact ((hleft.refused_iff (.noHolderForPositionType .headOfDepartment)).1
      (by decide +kernel)).1

end WorkRouting
