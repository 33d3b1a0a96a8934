/-
What a decision makes of lookups that fail. Each step of a decision comes to
one lookup that can fail, and hands its error on; the lookups that a decision
comes to are listed, in order, by `Directory.reached`, which asks for nothing
but the step that is taken.

- An outage shows as the error of the first lookup reached that it hits, and
  where it hits none of them the decision stands, reported events included
  (`resolve_failing`). No failure is turned into a missing executor, a missing
  holder or another step, and none is reported that was not met.
- The list is exact: it has the lookups whose outage shows and no others
  (`mem_reached_iff`).
- The units fixed for an order type fail with the rules for it and with nothing
  else (`predefinedRoute_eq_error_iff`).
-/
import WorkRouting.Proofs.Routing.Decision

namespace WorkRouting

instance (ctx : Context) : Decidable ctx.Unplaced :=
  inferInstanceAs (Decidable (_ ∧ _ ∧ _ ∧ _))

namespace Directory

-- ==================================================== the lookups reached

/-- The lookups that a decision comes to, in order. An explicit executor is
looked up and nothing else. Otherwise the rules are, and then the holders if
one of the rules matches, the hierarchy if none does and the order has a
unit. -/
def reached (d : Directory) (ctx : Context) : Option UserId → List Method
  | some _ => [.findActiveUser]
  | none =>
      .matchingRules ::
        match d.matchingRules ctx with
        | .error _ => []
        | .ok rules =>
            if rules.any (·.fits ctx) then [.positionHolders]
            else if ctx.Unplaced then []
            else [.findByHierarchy]

/-- The outage of a single lookup. -/
def Method.alone (m : Method) (text : String) (m' : Method) : Option String :=
  if m' = m then some text else none

/-- What an outage makes of a decision that reaches these lookups, one after
the other: the first that is out answers, and if none is, nothing changes. -/
def Interrupts (outage : Method → Option String) (methods : List Method)
    (before after : Decided) : Prop :=
  match methods.findSome? outage with
  | some text => after.answer = .error (.directory (.unavailable text))
  | none => after = before

variable {d : Directory} {outage : Method → Option String} {ctx : Context}
  {explicit : Option UserId} {methods : List Method} {before after : Decided}

theorem reached_of_error {cause : DirectoryError}
    (h : d.matchingRules ctx = .error cause) :
    d.reached ctx none = [.matchingRules] := by
  simp only [reached, h]

theorem reached_of_chosen {rules : List Rule} {r : Rule}
    (h : d.matchingRules ctx = .ok rules) (hr : Rule.Chosen rules ctx r) :
    d.reached ctx none = [.matchingRules, .positionHolders] := by
  have hfits : rules.any (·.fits ctx) = true := by
    obtain ⟨hmem, hfit⟩ := List.mem_filter.1 hr.mem
    exact List.any_eq_true.2 ⟨r, hmem, hfit⟩
  simp only [reached, h, hfits, if_true]

theorem reached_of_unmatched {rules : List Rule}
    (h : d.matchingRules ctx = .ok rules)
    (hnone : ∀ r ∈ rules, r.fits ctx = false) :
    d.reached ctx none
      = .matchingRules :: if ctx.Unplaced then [] else [.findByHierarchy] := by
  have hfits : rules.any (·.fits ctx) = false := by
    rw [List.any_eq_false]
    exact fun r hr => by simp [hnone r hr]
  simp only [reached, h, hfits, Bool.false_eq_true, if_false]

-- ============================================================= the outages

theorem interrupts_nil : Interrupts outage [] before after ↔ after = before :=
  Iff.rfl

/-- A lookup that is out answers at once, and one that works leaves it to the
next. -/
theorem interrupts_cons {m : Method}
    (hout : ∀ text, outage m = some text →
      after.answer = .error (.directory (.unavailable text)))
    (hworks : outage m = none → Interrupts outage methods before after) :
    Interrupts outage (m :: methods) before after := by
  unfold Interrupts
  rw [List.findSome?_cons]
  cases h : outage m with
  | some text => exact hout text h
  | none => exact hworks h

theorem Interrupts.answer_eq (h : Interrupts outage methods before after) :
    after.answer = match methods.findSome? outage with
      | some text => .error (.directory (.unavailable text))
      | none => before.answer := by
  unfold Interrupts at h
  split at h
  · exact h
  · rw [h]

theorem Interrupts.eq (h : Interrupts outage methods before after)
    (hworks : ∀ m ∈ methods, outage m = none) : after = before := by
  unfold Interrupts at h
  rw [List.findSome?_eq_none_iff.2 hworks] at h
  exact h

-- ================================================================ the steps

theorem resolveExplicit_failing (d : Directory)
    (outage : Method → Option String) (ctx : Context) (user : UserId) :
    Interrupts outage [.findActiveUser] (d.resolveExplicit ctx user)
      ((d.failing outage).resolveExplicit ctx user) := by
  refine interrupts_cons (fun text hout => ?_)
    fun hworks => interrupts_nil.2 ?_
  · simp only [resolveExplicit, failing, orOutage, hout]
  · simp only [resolveExplicit, failing, orOutage, hworks]

theorem resolveByRule_failing (d : Directory)
    (outage : Method → Option String) (ctx : Context) (r : Rule) :
    Interrupts outage [.positionHolders] (d.resolveByRule ctx r)
      ((d.failing outage).resolveByRule ctx r) := by
  refine interrupts_cons (fun text hout => ?_)
    fun hworks => interrupts_nil.2 ?_
  · simp only [resolveByRule, failing, orOutage, hout]
  · simp only [resolveByRule, failing, orOutage, hworks]

/-- An order without a unit is refused before the hierarchy is asked. -/
theorem resolveByHierarchy_failing (d : Directory)
    (outage : Method → Option String) (ctx : Context) :
    Interrupts outage (if ctx.Unplaced then [] else [.findByHierarchy])
      (d.resolveByHierarchy ctx)
      ((d.failing outage).resolveByHierarchy ctx) := by
  cases hq : HierarchyQuery.ofContext ctx with
  | none =>
      rw [if_pos (HierarchyQuery.ofContext_eq_none_iff.1 hq), interrupts_nil]
      simp only [resolveByHierarchy, hq]
  | some q =>
      have hplaced : ¬ ctx.Unplaced := by
        rw [← HierarchyQuery.ofContext_eq_none_iff, hq]
        exact Option.some_ne_none q
      rw [if_neg hplaced]
      refine interrupts_cons (fun text hout => ?_)
        fun hworks => interrupts_nil.2 ?_
      · simp only [resolveByHierarchy, failing, orOutage, hq, hout]
      · simp only [resolveByHierarchy, failing, orOutage, hq, hworks]

/-- A decision under an outage: the rules are looked up first, and what they
are decides which step follows. -/
theorem resolve_failing (d : Directory) (outage : Method → Option String)
    (ctx : Context) (explicit : Option UserId) :
    Interrupts outage (d.reached ctx explicit) (d.resolve ctx explicit)
      ((d.failing outage).resolve ctx explicit) := by
  cases explicit with
  | some user => exact d.resolveExplicit_failing outage ctx user
  | none =>
      have hout : ∀ text, outage .matchingRules = some text →
          ((d.failing outage).resolve ctx none).answer
            = .error (.directory (.unavailable text)) := by
        intro text hout
        simp only [resolve, failing, orOutage, hout]
      have hsame : outage .matchingRules = none →
          (d.failing outage).matchingRules ctx = d.matchingRules ctx := by
        intro hworks
        simp only [failing, orOutage, hworks]
      cases hrules : d.matchingRules ctx with
      | error cause =>
          rw [reached_of_error hrules]
          refine interrupts_cons hout fun hworks => interrupts_nil.2 ?_
          simp only [resolve, hsame hworks, hrules]
      | ok rules =>
          rw [hrules] at hsame
          cases hsel : Rule.select rules ctx with
          | some r =>
              have hr := Rule.select_eq_some_iff.1 hsel
              rw [reached_of_chosen hrules hr]
              refine interrupts_cons hout fun hworks => ?_
              rw [resolve_of_chosen hrules hr,
                resolve_of_chosen (hsame hworks) hr]
              exact d.resolveByRule_failing outage ctx r
          | none =>
              have hnone := Rule.select_eq_none_iff.1 hsel
              rw [reached_of_unmatched hrules hnone]
              refine interrupts_cons hout fun hworks => ?_
              rw [resolve_of_unmatched hrules hnone,
                resolve_of_unmatched (hsame hworks) hnone]
              exact d.resolveByHierarchy_failing outage ctx

-- ================================================================ exactness

theorem findSome?_alone {m : Method} {text : String} (h : m ∈ methods) :
    methods.findSome? (m.alone text) = some text := by
  induction methods with
  | nil => cases h
  | cons m' rest ih =>
      rw [List.findSome?_cons]
      by_cases hm : m' = m
      · simp only [Method.alone, hm, if_true]
      · have hrest := (List.mem_cons.1 h).resolve_left (Ne.symm hm)
        simp only [Method.alone, hm, if_false]
        exact ih hrest

/-- A lookup is reached exactly if its outage shows, whatever its cause. A
decision that fails by itself has one cause, and so does not imitate an outage
of every cause. -/
theorem mem_reached_iff {m : Method} :
    m ∈ d.reached ctx explicit
      ↔ ∀ text, ((d.failing (m.alone text)).resolve ctx explicit).answer
          = .error (.directory (.unavailable text)) := by
  constructor
  · intro h text
    rw [(d.resolve_failing _ ctx explicit).answer_eq, findSome?_alone h]
  · intro h
    refine Decidable.byContradiction fun hm => ?_
    have hstands : ∀ text, (d.resolve ctx explicit).answer
        = .error (.directory (.unavailable text)) := by
      intro text
      rw [← h text, (d.resolve_failing (m.alone text) ctx explicit).eq]
      intro m' hm'
      refine if_neg fun heq => hm ?_
      rw [← heq]
      exact hm'
    have hclash := (hstands "").symm.trans (hstands " ")
    simp at hclash

-- ==================================================== the predefined units

theorem predefinedRoute_failing (d : Directory)
    (outage : Method → Option String) (t : OrderTypeId) :
    (d.failing outage).predefinedRoute t
      = match outage .rulesForOrderType with
        | some text => .error (.directory (.unavailable text))
        | none => d.predefinedRoute t := by
  cases hout : outage .rulesForOrderType <;>
    simp only [predefinedRoute, failing, orOutage, hout]

theorem predefinedRoute_eq_error_iff {t : OrderTypeId} {e : RoutingError} :
    d.predefinedRoute t = .error e
      ↔ ∃ cause, d.rulesForOrderType t = .error cause
          ∧ e = .directory cause := by
  cases hrules : d.rulesForOrderType t with
  | error cause =>
      simp only [predefinedRoute, hrules, Except.error.injEq]
      constructor
      · exact fun h => ⟨cause, rfl, h.symm⟩
      · rintro ⟨_, rfl, he⟩
        exact he.symm
  | ok rules => simp [predefinedRoute, hrules]

/-- Outages show where a decision reaches, for every directory, also one that
fails by itself, and every set of lookups that are out, each for its own cause.
A decision answers with the cause of the first lookup it reaches that is out,
and stands, with what it reports, if there is none; the list of lookups reached
has exactly those whose outage shows. The units fixed for an order type fail
with the rules for it, and only so. -/
theorem outage_shows_where_reached (d : Directory) :
    (∀ outage ctx explicit,
        ((d.failing outage).resolve ctx explicit).answer
          = match (d.reached ctx explicit).findSome? outage with
            | some text => .error (.directory (.unavailable text))
            | none => (d.resolve ctx explicit).answer)
      ∧ (∀ outage ctx explicit,
          (∀ m ∈ d.reached ctx explicit, outage m = none) →
          (d.failing outage).resolve ctx explicit = d.resolve ctx explicit)
      ∧ (∀ ctx explicit m,
          m ∈ d.reached ctx explicit
            ↔ ∀ text,
                ((d.failing (m.alone text)).resolve ctx explicit).answer
                  = .error (.directory (.unavailable text)))
      ∧ (∀ outage t,
          (d.failing outage).predefinedRoute t
            = match outage .rulesForOrderType with
              | some text => .error (.directory (.unavailable text))
              | none => d.predefinedRoute t)
      ∧ ∀ t e, d.predefinedRoute t = .error e
          ↔ ∃ cause, d.rulesForOrderType t = .error cause
              ∧ e = .directory cause :=
  ⟨fun outage ctx explicit =>
      (d.resolve_failing outage ctx explicit).answer_eq,
    fun outage ctx explicit => (d.resolve_failing outage ctx explicit).eq,
    fun _ _ _ => mem_reached_iff,
    d.predefinedRoute_failing,
    fun _ _ => predefinedRoute_eq_error_iff⟩

end Directory

-- ===================================================== a vacancy in an outage

/-- The lookups that an order followed by a rule does without are out, and so
are the holders. -/
def Directory.sampleOutage : Directory.Method → Option String
  | .matchingRules => none
  | .positionHolders => some "pool timed out"
  | _ => some "connection refused"

/-- The vacancy is no longer seen once the holders cannot be read, and it is
still seen when nothing but the head of the department cannot be. -/
theorem Roster.vacancy_in_outage :
    ((vacancy.directory.failing Directory.sampleOutage).resolve
        { orderType := 3, department := some 10 } none).answer
        = .error (.directory (.unavailable "pool timed out"))
      ∧ (vacancy.directory.failing
            (Directory.Method.alone .findByHierarchy "gone")).resolve
          { orderType := 3, department := some 10 } none
        = ⟨.error (.noHolderForPosition 2 22), []⟩ := by
  obtain ⟨hanswer, hstands, -⟩ :=
    Directory.outage_shows_where_reached vacancy.directory
  have hreached : vacancy.directory.reached
      { orderType := 3, department := some 10 } none
      = [.matchingRules, .positionHolders] := by
    decide
  refine ⟨?_, (hstands _ _ _ ?_).trans ?_⟩
  · rw [hanswer, hreached]
    rfl
  · rw [hreached]
    decide
  · cbv

end WorkRouting
