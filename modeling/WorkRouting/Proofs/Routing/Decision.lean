/-
The three steps of a decision, as a relation. `Directory.Decides` lists what a
decision may come to and under which answers of the directory, without saying
in which order anything is read; the steps are kept apart by their conditions
alone. The file shows that the relation and the decision are one thing:

- `Decides.answer_eq`: whatever the relation allows is what the decision says,
  so the relation allows one outcome at most;
- `Answers.exists_decides`: where no lookup fails it allows one at least;
- `decides_of_answer_eq_ok`: an executor that is named is named by one of the
  steps, also where lookups fail;
- `resolve_eq_of_findActiveUser` and its two companions: a step reads what its
  conditions mention and nothing else, so no later step can be what answered.
-/
import WorkRouting.Proofs.Least
import WorkRouting.Roster
import WorkRouting.Routing.Resolution

namespace WorkRouting

-- ==================================================== the choices, declared

/-- The rule that is followed: of the rules that match, the first with the
least precedence key. -/
def Rule.Chosen (rules : List Rule) (ctx : Context) (r : Rule) : Prop :=
  FirstLeast Rule.precedence (rules.filter (·.fits ctx)) r

/-- The holder that a rule leads to: of the holders it admits, the first with
the least rank for the order. -/
def Rule.Prefers (r : Rule) (ctx : Context) (holders : List Actor)
    (a : Actor) : Prop :=
  FirstLeast ctx.holderRank (holders.filter r.admits) a

/-- The order belongs nowhere: it has no unit of any level. -/
def Context.Unplaced (ctx : Context) : Prop :=
  ctx.department = none ∧ ctx.otdel = none ∧ ctx.branch = none
    ∧ ctx.office = none

theorem Rule.select_eq_some_iff {rules : List Rule} {ctx : Context}
    {r : Rule} : Rule.select rules ctx = some r ↔ Rule.Chosen rules ctx r :=
  least_eq_some_iff

theorem Rule.select_eq_none_iff {rules : List Rule} {ctx : Context} :
    Rule.select rules ctx = none ↔ ∀ r ∈ rules, r.fits ctx = false := by
  unfold Rule.select
  rw [least_eq_none, List.filter_eq_nil_iff]
  simp only [Bool.not_eq_true]

theorem Rule.selectHolder_eq_some_iff {r : Rule} {ctx : Context}
    {holders : List Actor} {a : Actor} :
    r.selectHolder ctx holders = some a ↔ r.Prefers ctx holders a :=
  least_eq_some_iff

theorem Rule.selectHolder_eq_none_iff {r : Rule} {ctx : Context}
    {holders : List Actor} :
    r.selectHolder ctx holders = none ↔ ∀ h ∈ holders, r.admits h = false := by
  unfold Rule.selectHolder
  rw [least_eq_none, List.filter_eq_nil_iff]
  simp only [Bool.not_eq_true]

/-- Nobody is responsible exactly for an order that belongs nowhere. -/
theorem Context.responsible_eq_none_iff {ctx : Context} :
    ctx.responsible = none ↔ ctx.Unplaced := by
  obtain ⟨orderType, department, otdel, branch, office⟩ := ctx
  cases department <;> cases otdel <;> cases branch <;> cases office <;>
    simp [Context.responsible, Context.Unplaced]

/-- The search is for the kind of position that is responsible. -/
theorem HierarchyQuery.responsible_of_ofContext {ctx : Context}
    {q : HierarchyQuery} (h : HierarchyQuery.ofContext ctx = some q) :
    ctx.responsible = some q.kind := by
  obtain ⟨kind, hkind, rfl⟩ := Option.map_eq_some_iff.1 h
  exact hkind

theorem HierarchyQuery.ofContext_eq_none_iff {ctx : Context} :
    HierarchyQuery.ofContext ctx = none ↔ ctx.Unplaced := by
  unfold HierarchyQuery.ofContext
  rw [Option.map_eq_none_iff, Context.responsible_eq_none_iff]

namespace Directory

variable {d e : Directory} {ctx : Context} {explicit : Option UserId}
  {outcome : Except RoutingError Resolution}

-- ====================================================== the three steps

/-- What a decision may come to. An explicit executor is there or not; else a
chosen rule leads to the preferred holder or, if it admits nobody, to its own
failure; else, where no rule matches, the head found by the search is taken,
and the failure says whether the order had no unit or the unit no head. -/
inductive Decides (d : Directory) (ctx : Context) :
    Option UserId → Except RoutingError Resolution → Prop
  | named {user : UserId} {a : Actor} :
      d.findActiveUser user = .ok (some a) →
      Decides d ctx (some user)
        (.ok { executor := a, status := none, ruleFound := false })
  | unknown {user : UserId} :
      d.findActiveUser user = .ok none →
      Decides d ctx (some user) (.error (.executorNotFound user))
  | held {rules : List Rule} {r : Rule} {holders : List Actor} {a : Actor} :
      d.matchingRules ctx = .ok rules → Rule.Chosen rules ctx r →
      d.positionHolders r.position = .ok holders → r.Prefers ctx holders a →
      Decides d ctx none
        (.ok { executor := a, status := some r.status, ruleFound := true })
  | vacant {rules : List Rule} {r : Rule} {holders : List Actor} :
      d.matchingRules ctx = .ok rules → Rule.Chosen rules ctx r →
      d.positionHolders r.position = .ok holders →
      (∀ h ∈ holders, r.admits h = false) →
      Decides d ctx none (.error (.noHolderForPosition r.id r.position))
  | unplaced {rules : List Rule} :
      d.matchingRules ctx = .ok rules → (∀ r ∈ rules, r.fits ctx = false) →
      ctx.Unplaced →
      Decides d ctx none (.error .noOrganizationalUnit)
  | headed {rules : List Rule} {q : HierarchyQuery} {a : Actor} :
      d.matchingRules ctx = .ok rules → (∀ r ∈ rules, r.fits ctx = false) →
      HierarchyQuery.ofContext ctx = some q →
      d.findByHierarchy q = .ok (some a) →
      Decides d ctx none
        (.ok { executor := a, status := none, ruleFound := false })
  | headless {rules : List Rule} {q : HierarchyQuery} {kind : PositionType} :
      d.matchingRules ctx = .ok rules → (∀ r ∈ rules, r.fits ctx = false) →
      HierarchyQuery.ofContext ctx = some q → ctx.responsible = some kind →
      d.findByHierarchy q = .ok none →
      Decides d ctx none (.error (.noHolderForPositionType kind))

/-- No lookup fails. -/
structure Answers (d : Directory) : Prop where
  users : ∀ user, ∃ a, d.findActiveUser user = .ok a
  rules : ∀ ctx, ∃ l, d.matchingRules ctx = .ok l
  holders : ∀ p, ∃ l, d.positionHolders p = .ok l
  heads : ∀ q, ∃ a, d.findByHierarchy q = .ok a

-- ================================================ the path of each step

/-- With a chosen rule the decision is the second step. -/
theorem resolve_of_chosen {rules : List Rule} {r : Rule}
    (hrules : d.matchingRules ctx = .ok rules)
    (hr : Rule.Chosen rules ctx r) :
    d.resolve ctx none = d.resolveByRule ctx r := by
  unfold resolve
  dsimp only
  rw [hrules]
  dsimp only
  rw [Rule.select_eq_some_iff.2 hr]

/-- With no rule that matches the decision is the third step. -/
theorem resolve_of_unmatched {rules : List Rule}
    (hrules : d.matchingRules ctx = .ok rules)
    (hnone : ∀ r ∈ rules, r.fits ctx = false) :
    d.resolve ctx none = d.resolveByHierarchy ctx := by
  unfold resolve
  dsimp only
  rw [hrules]
  dsimp only
  rw [Rule.select_eq_none_iff.2 hnone]

-- ==================================================== relation and decision

/-- What the relation allows is what the decision says. -/
theorem Decides.answer_eq (h : d.Decides ctx explicit outcome) :
    (d.resolve ctx explicit).answer = outcome := by
  cases h with
  | named huser =>
      simp only [resolve, resolveExplicit, huser]
  | unknown huser =>
      simp only [resolve, resolveExplicit, huser]
  | held hrules hr hholders ha =>
      rw [resolve_of_chosen hrules hr]
      simp only [resolveByRule, hholders, Rule.selectHolder_eq_some_iff.2 ha]
  | vacant hrules hr hholders hnone =>
      rw [resolve_of_chosen hrules hr]
      simp only [resolveByRule, hholders,
        Rule.selectHolder_eq_none_iff.2 hnone]
  | unplaced hrules hnone hctx =>
      rw [resolve_of_unmatched hrules hnone]
      simp only [resolveByHierarchy,
        HierarchyQuery.ofContext_eq_none_iff.2 hctx]
  | headed hrules hnone hq ha =>
      rw [resolve_of_unmatched hrules hnone]
      simp only [resolveByHierarchy, hq, ha]
  | headless hrules hnone hq hkind ha =>
      rw [resolve_of_unmatched hrules hnone]
      rw [HierarchyQuery.responsible_of_ofContext hq] at hkind
      cases hkind
      simp only [resolveByHierarchy, hq, ha]

/-- Where no lookup fails, every decision comes to something: the conditions of
the steps leave no gap. -/
theorem Answers.exists_decides (hd : d.Answers) (ctx : Context)
    (explicit : Option UserId) :
    ∃ outcome, d.Decides ctx explicit outcome := by
  cases explicit with
  | some user =>
      obtain ⟨a, ha⟩ := hd.users user
      cases a with
      | none => exact ⟨_, .unknown ha⟩
      | some a => exact ⟨_, .named ha⟩
  | none =>
      obtain ⟨rules, hrules⟩ := hd.rules ctx
      cases hsel : Rule.select rules ctx with
      | some r =>
          have hr := Rule.select_eq_some_iff.1 hsel
          obtain ⟨holders, hholders⟩ := hd.holders r.position
          cases hhold : r.selectHolder ctx holders with
          | some a =>
              exact ⟨_, .held hrules hr hholders
                (Rule.selectHolder_eq_some_iff.1 hhold)⟩
          | none =>
              exact ⟨_, .vacant hrules hr hholders
                (Rule.selectHolder_eq_none_iff.1 hhold)⟩
      | none =>
          have hnone := Rule.select_eq_none_iff.1 hsel
          cases hq : HierarchyQuery.ofContext ctx with
          | none =>
              exact ⟨_, .unplaced hrules hnone
                (HierarchyQuery.ofContext_eq_none_iff.1 hq)⟩
          | some q =>
              obtain ⟨a, ha⟩ := hd.heads q
              cases a with
              | some a => exact ⟨_, .headed hrules hnone hq ha⟩
              | none =>
                  exact ⟨_, .headless hrules hnone hq
                    (HierarchyQuery.responsible_of_ofContext hq) ha⟩

/-- Where no lookup fails, the decision is the one outcome allowed. -/
theorem Answers.answer_eq_iff (hd : d.Answers) :
    (d.resolve ctx explicit).answer = outcome
      ↔ d.Decides ctx explicit outcome := by
  constructor
  · rintro rfl
    obtain ⟨outcome, h⟩ := hd.exists_decides ctx explicit
    rw [h.answer_eq]
    exact h
  · exact Decides.answer_eq

/-- A decision that names an executor is one that the relation allows, whatever
lookups fail that it did not come to. -/
theorem decides_of_answer_eq_ok {r : Resolution}
    (h : (d.resolve ctx explicit).answer = .ok r) :
    d.Decides ctx explicit (.ok r) := by
  cases explicit with
  | some user =>
      simp only [resolve, resolveExplicit] at h
      rcases huser : d.findActiveUser user with cause | _ | a <;>
        rw [huser] at h <;> cases h
      exact .named huser
  | none =>
      cases hrules : d.matchingRules ctx with
      | error cause =>
          simp only [resolve, hrules] at h
          cases h
      | ok rules =>
          cases hsel : Rule.select rules ctx with
          | some rule =>
              have hrule := Rule.select_eq_some_iff.1 hsel
              rw [resolve_of_chosen hrules hrule, resolveByRule] at h
              cases hholders : d.positionHolders rule.position with
              | error cause =>
                  rw [hholders] at h
                  cases h
              | ok holders =>
                  simp only [hholders] at h
                  split at h
                  · cases h
                  · next a ha =>
                      cases h
                      exact .held hrules hrule hholders
                        (Rule.selectHolder_eq_some_iff.1 ha)
          | none =>
              have hnone := Rule.select_eq_none_iff.1 hsel
              rw [resolve_of_unmatched hrules hnone, resolveByHierarchy] at h
              cases hq : HierarchyQuery.ofContext ctx with
              | none =>
                  rw [hq] at h
                  cases h
              | some q =>
                  simp only [hq] at h
                  rcases hhead : d.findByHierarchy q with cause | _ | a <;>
                    rw [hhead] at h <;> cases h
                  exact .headed hrules hnone hq hhead

-- ====================================================== what a step reads

/-- The first step reads the explicit executor and nothing else: neither the
rules nor the holders, and of the order only what the report repeats. -/
theorem answer_eq_of_findActiveUser {user : UserId}
    (h : e.findActiveUser user = d.findActiveUser user) (ctx ctx' : Context) :
    (e.resolve ctx' (some user)).answer
      = (d.resolve ctx (some user)).answer := by
  simp only [resolve, resolveExplicit]
  rw [h]
  cases d.findActiveUser user with
  | error cause => rfl
  | ok a => cases a <;> rfl

/-- The second step reads the chosen rule and the holders of its position: not
the other rules, not the hierarchy. -/
theorem resolve_eq_of_chosen {rules rules' : List Rule} {r : Rule}
    (hd : d.matchingRules ctx = .ok rules) (hr : Rule.Chosen rules ctx r)
    (he : e.matchingRules ctx = .ok rules') (hr' : Rule.Chosen rules' ctx r)
    (hholders : e.positionHolders r.position = d.positionHolders r.position) :
    e.resolve ctx none = d.resolve ctx none := by
  rw [resolve_of_chosen hd hr, resolve_of_chosen he hr']
  unfold resolveByRule
  rw [hholders]

/-- The third step reads the search for the order and nothing else. -/
theorem resolve_eq_of_unmatched {rules rules' : List Rule}
    (hd : d.matchingRules ctx = .ok rules)
    (hnone : ∀ r ∈ rules, r.fits ctx = false)
    (he : e.matchingRules ctx = .ok rules')
    (hnone' : ∀ r ∈ rules', r.fits ctx = false)
    (hheads : ∀ q, HierarchyQuery.ofContext ctx = some q →
      e.findByHierarchy q = d.findByHierarchy q) :
    e.resolve ctx none = d.resolve ctx none := by
  rw [resolve_of_unmatched hd hnone, resolve_of_unmatched he hnone']
  unfold resolveByHierarchy
  cases hq : HierarchyQuery.ofContext ctx with
  | none => rfl
  | some q =>
      dsimp only
      rw [hheads q hq]

/-- The contract of a decision over a directory whose lookups succeed. It is
exactly what the three steps allow; and what answered at one step is all that
was consulted beyond the rules: an explicit executor alone, else the chosen
rule with the holders of its position, else the search up the hierarchy. Two
directories that differ elsewhere, even by a lookup that fails, decide alike,
so no step falls through to the next for want of a person. -/
theorem resolve_three_steps (hd : d.Answers) (ctx : Context)
    (explicit : Option UserId) :
    (∀ outcome, (d.resolve ctx explicit).answer = outcome
        ↔ d.Decides ctx explicit outcome)
      ∧ (∀ user, explicit = some user →
          ∀ (e : Directory) (ctx' : Context),
            e.findActiveUser user = d.findActiveUser user →
            (e.resolve ctx' (some user)).answer
              = (d.resolve ctx explicit).answer)
      ∧ (∀ rules r, explicit = none →
          d.matchingRules ctx = .ok rules → Rule.Chosen rules ctx r →
          ∀ (e : Directory) (rules' : List Rule),
            e.matchingRules ctx = .ok rules' → Rule.Chosen rules' ctx r →
            e.positionHolders r.position = d.positionHolders r.position →
            e.resolve ctx none = d.resolve ctx explicit)
      ∧ (∀ rules, explicit = none →
          d.matchingRules ctx = .ok rules → (∀ r ∈ rules, r.fits ctx = false) →
          ∀ (e : Directory) (rules' : List Rule),
            e.matchingRules ctx = .ok rules' →
            (∀ r ∈ rules', r.fits ctx = false) →
            (∀ q, HierarchyQuery.ofContext ctx = some q →
              e.findByHierarchy q = d.findByHierarchy q) →
            e.resolve ctx none = d.resolve ctx explicit) := by
  refine ⟨fun _ => hd.answer_eq_iff, ?_, ?_, ?_⟩
  · rintro user rfl e ctx' huser
    exact answer_eq_of_findActiveUser huser ctx ctx'
  · rintro rules r rfl hrules hr e rules' hrules' hr' hholders
    exact resolve_eq_of_chosen hrules hr hrules' hr' hholders
  · rintro rules rfl hrules hnone e rules' hrules' hnone' hheads
    exact resolve_eq_of_unmatched hrules hnone hrules' hnone' hheads

end Directory

-- ================================================ a rule without a holder

/-- The lookups over a roster never fail. -/
theorem Roster.directory_answers (r : Roster) : r.directory.Answers where
  users _ := ⟨_, rfl⟩
  rules _ := ⟨_, rfl⟩
  holders _ := ⟨_, rfl⟩
  heads _ := ⟨_, rfl⟩

/-- The head of department 10 and two rules for its orders of type 3: the one
that pins the department leads to a position that nobody holds. -/
def Roster.vacancy : Roster where
  entries :=
    [{ actor := { id := 101, department := 10, position := some 1,
                  isHead := true },
       kind := some .headOfDepartment }]
  rules :=
    [{ id := 1, orderType := some 3, position := 1, status := 10 },
      { id := 2, orderType := some 3, department := some 10, position := 22,
        status := 20 }]

/-- The vacancy is what the steps allow there: neither the wider rule, which
has a holder, nor the head of the department is what the order gets. -/
theorem Roster.vacancy_decides :
    vacancy.directory.Answers
      ∧ vacancy.directory.Decides { orderType := 3, department := some 10 }
          none (.error (.noHolderForPosition 2 22)) := by
  have h := vacancy.directory_answers
  refine ⟨h, ?_⟩
  exact ((Directory.resolve_three_steps h _ none).1 _).1 (by cbv)

end WorkRouting
