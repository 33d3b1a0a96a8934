/-
What the audit trail of a decision tells of its outcome.

A decision reports at most two things: that it searches the hierarchy, and who
executes the order. `Reports` lists the five ways in which it may end, each
with all that is reported on the way, and `resolve_reports` shows that there is
no other. The trail is then read case by case:

- who names an executor closes the trail with one event that says so, named for
  the step that decided (`Reports.closed`);
- who fails reports no executor, at whatever lookup or choice it failed
  (`Reports.silent`);
- a search is announced once and before anything else, and exactly where the
  decision comes to one, whether or not the search then finds anybody
  (`Reports.announced`, `Reports.unannounced`).

Events are told apart by the names and fields that a reader of the trail sees.
-/
import WorkRouting.Proofs.Routing.Responsible

namespace WorkRouting

-- ============================================================== vocabulary

namespace Event

/-- The event reports an executor: its name is one of `routing.resolve.*`. -/
def Resolves (e : Event) : Prop :=
  "routing.resolve.".toList <+: e.name.toList

instance : DecidablePred Resolves := fun e =>
  inferInstanceAs (Decidable (_ <+: e.name.toList))

/-- The event announces the search for the head who is responsible for an
order: of which kind, and under how many conditions. There is one, and a second
where a branch narrows the search for the manager of an otdel. -/
structure Announces (e : Event) (ctx : Context) : Prop where
  name_eq : e.name = "routing.hierarchy.query"
  kind : ∃ kind, ctx.responsible = some kind
    ∧ e.fields.lookup "position_type" = some (.text kind.name)
  predicates : ∃ q, HierarchyQuery.ofContext ctx = some q
    ∧ e.fields.lookup "predicates" = some (.number q.predicates.length)
    ∧ q.predicates.length
      = if ctx.department = none ∧ ctx.otdel ≠ none ∧ ctx.branch ≠ none
        then 2 else 1

end Event

namespace Directory

/-- The decision comes to a search up the hierarchy: nobody was asked for, the
rules could be looked up and none matches, and the order has a unit. -/
structure Searches (d : Directory) (ctx : Context)
    (explicit : Option UserId) : Prop where
  unasked : explicit = none
  unmatched : ∃ rules, d.matchingRules ctx = .ok rules
    ∧ ∀ r ∈ rules, r.fits ctx = false
  placed : ¬ ctx.Unplaced

/-- The event closes the trail of a decision that names an executor. It is the
last one and the only one that reports an executor, it says who executes an
order of which type, and it is named for the step that decided; the rule that
was followed is told as well. -/
structure ClosedBy (d : Directory) (ctx : Context) (explicit : Option UserId)
    (r : Resolution) (trail : List Event) (e : Event) : Prop where
  last : trail.getLast? = some e
  only : trail.filter (·.Resolves) = [e]
  executor : e.fields.lookup "executor_id"
    = some (.number r.executor.id.toInt)
  orderType : e.fields.lookup "order_type_id"
    = some (.number ctx.orderType.toInt)
  explicit_iff : e.name = "routing.resolve.explicit" ↔ explicit ≠ none
  ruleMatched_iff : e.name = "routing.resolve.rule_matched"
    ↔ r.ruleFound = true
  hierarchy_iff : e.name = "routing.resolve.hierarchy"
    ↔ explicit = none ∧ r.ruleFound = false
  rule : r.ruleFound = true → ∃ rules rule,
    d.matchingRules ctx = .ok rules ∧ Rule.Chosen rules ctx rule
      ∧ e.fields.lookup "rule_id" = some (.number rule.id.toInt)
      ∧ e.fields.lookup "position_id" = some (.number rule.position.toInt)

/-- The ways in which a decision may end, with all that it reports. -/
inductive Reports (d : Directory) (ctx : Context) :
    Option UserId → Decided → Prop
  | named {user : UserId} {a : Actor} :
      Reports d ctx (some user)
        ⟨.ok { executor := a }, [.resolvedExplicitly ctx.orderType a.id]⟩
  | held {rules : List Rule} {rule : Rule} {a : Actor} :
      d.matchingRules ctx = .ok rules → Rule.Chosen rules ctx rule →
      Reports d ctx none
        ⟨.ok { executor := a, status := some rule.status, ruleFound := true },
          [.resolvedByRule ctx.orderType rule.id rule.position a.id]⟩
  | headed {q : HierarchyQuery} {a : Actor} :
      d.Searches ctx none → HierarchyQuery.ofContext ctx = some q →
      Reports d ctx none
        ⟨.ok { executor := a },
          [.hierarchyQueried q.kind q.predicates.length,
            .resolvedByHierarchy ctx.orderType a.id]⟩
  | headless {q : HierarchyQuery} {cause : RoutingError} :
      d.Searches ctx none → HierarchyQuery.ofContext ctx = some q →
      Reports d ctx none
        ⟨.error cause, [.hierarchyQueried q.kind q.predicates.length]⟩
  | refused {explicit : Option UserId} {cause : RoutingError} :
      ¬ d.Searches ctx explicit → Reports d ctx explicit ⟨.error cause, []⟩

end Directory

variable {d : Directory} {ctx : Context} {explicit : Option UserId}
  {told : Directory.Decided}

-- ================================================================ one event

namespace Event

/-- Of all names of events these three begin like the report of an executor. -/
theorem resolves_iff (e : Event) :
    e.Resolves ↔ e.name ∈ ["routing.resolve.explicit",
      "routing.resolve.rule_matched", "routing.resolve.hierarchy"] := by
  unfold Resolves
  cases e <;> (dsimp only [name]; decide)

end Event

/-- A search has one condition, or two. -/
theorem HierarchyQuery.length_predicates {q : HierarchyQuery}
    (hq : HierarchyQuery.ofContext ctx = some q) :
    q.predicates.length
      = if ctx.department = none ∧ ctx.otdel ≠ none ∧ ctx.branch ≠ none
        then 2 else 1 := by
  rcases HierarchyQuery.ofContext_cases hq with ⟨n, hd, rfl⟩ |
    ⟨n, hd, ho, rfl⟩ | ⟨n, hd, ho, hb, rfl⟩ | ⟨n, hd, ho, hb, hf, rfl⟩
  · simp [hd]
  · cases hb : ctx.branch <;> simp [hd, ho]
  · simp [ho]
  · simp [ho]

/-- The event that precedes a search announces it. -/
theorem Event.announces_hierarchyQueried {q : HierarchyQuery}
    (hq : HierarchyQuery.ofContext ctx = some q) :
    (Event.hierarchyQueried q.kind q.predicates.length).Announces ctx where
  name_eq := rfl
  kind := ⟨q.kind, HierarchyQuery.responsible_of_ofContext hq, rfl⟩
  predicates := ⟨q, hq, rfl, HierarchyQuery.length_predicates hq⟩

-- ===================================================== the ways of reporting

namespace Directory

theorem Searches.not_chosen (h : d.Searches ctx explicit) {rules : List Rule}
    {rule : Rule} (hrules : d.matchingRules ctx = .ok rules) :
    ¬ Rule.Chosen rules ctx rule := by
  intro hrule
  obtain ⟨rules', hrules', hnone⟩ := h.unmatched
  rw [hrules] at hrules'
  cases hrules'
  obtain ⟨hmem, hfit⟩ := List.mem_filter.1 hrule.mem
  rw [hnone rule hmem] at hfit
  exact Bool.false_ne_true hfit

theorem resolveExplicit_reports (d : Directory) (ctx : Context)
    (user : UserId) :
    d.Reports ctx (some user) (d.resolveExplicit ctx user) := by
  have hasked : ¬ d.Searches ctx (some user) := fun h => nomatch h.unasked
  unfold resolveExplicit
  split
  · exact .refused hasked
  · exact .refused hasked
  · exact .named

/-- A rule without a holder leads to no search, and to no report. -/
theorem resolveByRule_reports {rules : List Rule} {rule : Rule}
    (hrules : d.matchingRules ctx = .ok rules)
    (hrule : Rule.Chosen rules ctx rule) :
    d.Reports ctx none (d.resolveByRule ctx rule) := by
  have hfollowed : ¬ d.Searches ctx none :=
    fun h => h.not_chosen hrules hrule
  unfold resolveByRule
  split
  · exact .refused hfollowed
  · split
    · exact .refused hfollowed
    · exact .held hrules hrule

/-- An order without a unit is refused in silence; any other is searched for,
and the search is told of whatever comes of it. -/
theorem resolveByHierarchy_reports {rules : List Rule}
    (hrules : d.matchingRules ctx = .ok rules)
    (hnone : ∀ r ∈ rules, r.fits ctx = false) :
    d.Reports ctx none (d.resolveByHierarchy ctx) := by
  unfold resolveByHierarchy
  split
  · next hq =>
      exact .refused fun h =>
        h.placed (HierarchyQuery.ofContext_eq_none_iff.1 hq)
  · next q hq =>
      have hsearch : d.Searches ctx none :=
        { unasked := rfl
          unmatched := ⟨rules, hrules, hnone⟩
          placed := fun hctx => by
            rw [HierarchyQuery.ofContext_eq_none_iff.2 hctx] at hq
            cases hq }
      dsimp only
      split
      · exact .headless hsearch hq
      · exact .headless hsearch hq
      · exact .headed hsearch hq

/-- A decision ends, and reports, in one of the ways. -/
theorem resolve_reports (d : Directory) (ctx : Context)
    (explicit : Option UserId) :
    d.Reports ctx explicit (d.resolve ctx explicit) := by
  cases explicit with
  | some user => exact d.resolveExplicit_reports ctx user
  | none =>
      cases hrules : d.matchingRules ctx with
      | error cause =>
          have hunread : ¬ d.Searches ctx none := by
            intro h
            obtain ⟨rules, hread, -⟩ := h.unmatched
            rw [hrules] at hread
            cases hread
          simp only [resolve, hrules]
          exact .refused hunread
      | ok rules =>
          cases hsel : Rule.select rules ctx with
          | some rule =>
              have hrule := Rule.select_eq_some_iff.1 hsel
              rw [resolve_of_chosen hrules hrule]
              exact resolveByRule_reports hrules hrule
          | none =>
              have hnone := Rule.select_eq_none_iff.1 hsel
              rw [resolve_of_unmatched hrules hnone]
              exact resolveByHierarchy_reports hrules hnone

-- ====================================================== what a trail tells

namespace Reports

/-- Who names an executor closes the trail with the report of it. -/
theorem closed (h : d.Reports ctx explicit told) {r : Resolution}
    (hr : told.answer = .ok r) :
    ∃ e, d.ClosedBy ctx explicit r told.events e := by
  cases h with
  | named =>
      cases hr
      exact ⟨_, {
        last := rfl
        only := by simp [Event.resolves_iff, Event.name]
        executor := rfl
        orderType := rfl
        explicit_iff := by simp [Event.name]
        ruleMatched_iff := by simp [Event.name]
        hierarchy_iff := by simp [Event.name]
        rule := nofun }⟩
  | held hrules hrule =>
      cases hr
      exact ⟨_, {
        last := rfl
        only := by simp [Event.resolves_iff, Event.name]
        executor := rfl
        orderType := rfl
        explicit_iff := by simp [Event.name]
        ruleMatched_iff := by simp [Event.name]
        hierarchy_iff := by simp [Event.name]
        rule := fun _ => ⟨_, _, hrules, hrule, rfl, rfl⟩ }⟩
  | headed hsearch hq =>
      cases hr
      exact ⟨_, {
        last := rfl
        only := by simp [Event.resolves_iff, Event.name]
        executor := rfl
        orderType := rfl
        explicit_iff := by simp [Event.name]
        ruleMatched_iff := by simp [Event.name]
        hierarchy_iff := by simp [Event.name]
        rule := nofun }⟩
  | headless | refused => cases hr

/-- Who fails reports no executor. -/
theorem silent (h : d.Reports ctx explicit told) {cause : RoutingError}
    (hcause : told.answer = .error cause) :
    ∀ e ∈ told.events, ¬ e.Resolves := by
  cases h with
  | named | held | headed => cases hcause
  | headless => simp [Event.resolves_iff, Event.name]
  | refused => nofun

/-- A search is announced once, before anything else. -/
theorem announced (h : d.Reports ctx explicit told)
    (hsearch : d.Searches ctx explicit) :
    ∃ e rest, told.events = e :: rest ∧ e.Announces ctx
      ∧ ∀ f ∈ rest, f.name ≠ "routing.hierarchy.query" := by
  cases h with
  | named => cases hsearch.unasked
  | held hrules hrule => exact absurd hrule (hsearch.not_chosen hrules)
  | headed _ hq =>
      exact ⟨_, _, rfl, Event.announces_hierarchyQueried hq,
        by simp [Event.name]⟩
  | headless _ hq =>
      exact ⟨_, _, rfl, Event.announces_hierarchyQueried hq, nofun⟩
  | refused hnot => exact absurd hsearch hnot

/-- No search is announced that the decision does not come to. -/
theorem unannounced (h : d.Reports ctx explicit told)
    (hnot : ¬ d.Searches ctx explicit) :
    ∀ e ∈ told.events, e.name ≠ "routing.hierarchy.query" := by
  cases h with
  | named | held => simp [Event.name]
  | headed hsearch | headless hsearch => exact absurd hsearch hnot
  | refused => nofun

/-- Only a search leads to a head. -/
theorem searches_of_hierarchy (h : d.Reports ctx explicit told) {e : Event}
    (he : e ∈ told.events) (hname : e.name = "routing.resolve.hierarchy") :
    d.Searches ctx explicit := by
  cases h with
  | headed hsearch | headless hsearch => exact hsearch
  | named | held =>
      rw [List.mem_singleton.1 he] at hname
      simp [Event.name] at hname
  | refused => cases he

/-- The announcement of the search stands before the report of the head. -/
theorem announced_before (h : d.Reports ctx explicit told)
    {before after : List Event} {e : Event}
    (htrail : told.events = before ++ e :: after)
    (hname : e.name = "routing.resolve.hierarchy") :
    ∃ q ∈ before, q.Announces ctx := by
  have he : e ∈ told.events := by
    rw [htrail]
    exact List.mem_append_right before List.mem_cons_self
  obtain ⟨q, rest, hrest, hq, -⟩ :=
    h.announced (h.searches_of_hierarchy he hname)
  rw [hrest] at htrail
  cases before with
  | nil =>
      -- the announcement would be the report itself
      cases htrail
      rw [hq.name_eq] at hname
      simp at hname
  | cons b before =>
      cases htrail
      exact ⟨q, List.mem_cons_self, hq⟩

end Reports

/-- The trail of a decision matches its outcome, for every directory, also one
whose lookups fail. A decision that names an executor closes its trail with the
one event that reports it, and a decision that fails reports no executor. A
search up the hierarchy is announced exactly where the decision comes to it,
once and first of all, and so before the head that it may lead to. -/
theorem trail_matches_outcome (d : Directory) (ctx : Context)
    (explicit : Option UserId) :
    (∀ r, (d.resolve ctx explicit).answer = .ok r →
        ∃ e, d.ClosedBy ctx explicit r (d.resolve ctx explicit).events e)
      ∧ (∀ cause, (d.resolve ctx explicit).answer = .error cause →
          ∀ e ∈ (d.resolve ctx explicit).events, ¬ e.Resolves)
      ∧ (d.Searches ctx explicit →
          ∃ e rest, (d.resolve ctx explicit).events = e :: rest
            ∧ e.Announces ctx
            ∧ ∀ f ∈ rest, f.name ≠ "routing.hierarchy.query")
      ∧ (¬ d.Searches ctx explicit →
          ∀ e ∈ (d.resolve ctx explicit).events,
            e.name ≠ "routing.hierarchy.query")
      ∧ ∀ before e after,
          (d.resolve ctx explicit).events = before ++ e :: after →
          e.name = "routing.resolve.hierarchy" →
          ∃ q ∈ before, q.Announces ctx := by
  have h := d.resolve_reports ctx explicit
  exact ⟨fun _ => h.closed, fun _ => h.silent, h.announced, h.unannounced,
    fun _ _ _ => h.announced_before⟩

end Directory

-- ========================================================= orders of an otdel

namespace Roster

/-- A manager of otdel 100 in branch 7, and a clerk to whom a rule sends the
orders of type 3. -/
def branchTeam : Roster where
  entries :=
    [{ actor := { id := 111, department := 10, branch := some 7,
                  otdel := some 100, position := some 21, isHead := true },
       kind := some .managerOfOtdel },
      { actor := { id := 112, department := 10, position := some 22 },
        kind := some .specialist }]
  rules := [{ id := 5, orderType := some 3, position := 22, status := 30 }]

/-- An order of the otdel and the branch that no rule matches. -/
def teamOrder : Context :=
  { orderType := 9, otdel := some 100, branch := some 7 }

theorem branchTeam_searches :
    branchTeam.directory.Searches teamOrder none where
  unasked := rfl
  unmatched := ⟨[], by decide, nofun⟩
  placed := fun h => nomatch h.2.1

/-- The order of the otdel is searched for and goes to the manager, an order of
type 3 follows the rule, one that asks for the clerk goes to the clerk, and one
of an otdel without a manager is searched for in vain; each is told as it comes
about. -/
theorem branchTeam_trails :
    (∃ e rest, (branchTeam.directory.resolve teamOrder none).events = e :: rest
        ∧ e.Announces teamOrder
        ∧ ∀ f ∈ rest, f.name ≠ "routing.hierarchy.query")
      ∧ (∃ e, branchTeam.directory.ClosedBy teamOrder none
          { executor := { id := 111, department := 10, branch := some 7,
                          otdel := some 100, position := some 21,
                          isHead := true } }
          (branchTeam.directory.resolve teamOrder none).events e)
      ∧ (∃ e, branchTeam.directory.ClosedBy { teamOrder with orderType := 3 }
          none
          { executor := { id := 112, department := 10, position := some 22 }
            status := some 30, ruleFound := true }
          (branchTeam.directory.resolve { teamOrder with orderType := 3 }
            none).events e)
      ∧ (∃ e, branchTeam.directory.ClosedBy teamOrder (some 112)
          { executor := { id := 112, department := 10, position := some 22 } }
          (branchTeam.directory.resolve teamOrder (some 112)).events e)
      ∧ ∀ e ∈ (branchTeam.directory.resolve
            { teamOrder with otdel := some 200 } none).events,
          ¬ e.Resolves := by
  have hhead := branchTeam.directory.trail_matches_outcome teamOrder none
  refine ⟨hhead.2.2.1 branchTeam_searches, hhead.1 _ (by cbv), ?_, ?_, ?_⟩
  · exact (branchTeam.directory.trail_matches_outcome
      { teamOrder with orderType := 3 } none).1 _ (by cbv)
  · exact (branchTeam.directory.trail_matches_outcome teamOrder
      (some 112)).1 _ (by cbv)
  · exact (branchTeam.directory.trail_matches_outcome
      { teamOrder with otdel := some 200 } none).2.1
      (.noHolderForPositionType .managerOfOtdel) (by cbv)

example : (branchTeam.directory.resolve teamOrder none).events
    = [.hierarchyQueried .managerOfOtdel 2, .resolvedByHierarchy 9 111] := by
  cbv

end Roster

end WorkRouting
