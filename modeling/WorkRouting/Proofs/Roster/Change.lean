/-
What a decision over a roster does not see. Every step of a decision is a
choice of a least element after a filter, so a change of the roster shows only
if it touches the element chosen:

- a retirement takes active employees of one id away and keeps the others in
  their order (`activeWhere_deactivate`). The choice stands unless the chosen
  one goes, and where nobody was chosen there is nobody to take away
  (`resolve_deactivate`). Holders are sorted by id before one is chosen, and
  ids may occur twice, but the rank ends in the id, so those who tie for the
  choice are equal under the sort and keep their order
  (`selectHolder_mergeSort`);
- a new rule that does not match the order is filtered out
  (`select_insert_of_not_fits`), and one with a greater precedence key than the
  chosen rule is not the least (`select_insert_of_lt`). Neither lets a decision
  fall to another step, because the step depends on the chosen rule alone
  (`resolve_eq_of_select`).
-/
import WorkRouting.Proofs.Roster.History
import WorkRouting.Proofs.Routing.Agreement
import WorkRouting.Proofs.Routing.Decision

namespace WorkRouting.Roster

variable {r r' : Roster} {ctx : Context} {explicit : Option UserId}
  {user : UserId} {rule : Rule}

-- ============================================================== retirements

/-- A retirement takes the employees of one id out of every selection. -/
theorem activeWhere_deactivate (r : Roster) (user : UserId)
    (test : Entry → Bool) :
    (r.deactivate user).activeWhere test
      = (r.activeWhere test).filter (·.id ≠ user) := by
  unfold activeWhere
  rw [active_deactivate, List.filter_map, List.filter_filter,
    List.filter_filter]
  simp only [Function.comp_def, Bool.and_comm]

/-- The first of some employees stays the first unless the employee goes. -/
theorem head?_filter_ne {actors : List Actor}
    (h : ∀ a, actors.head? = some a → a.id ≠ user) :
    (actors.filter (·.id ≠ user)).head? = actors.head? := by
  cases actors with
  | nil => rfl
  | cons a rest =>
      rw [List.filter_cons_of_pos (by simpa using h a rfl)]
      rfl

/-- The order in which the holders of a position are listed does not show in
the choice among them. -/
theorem selectHolder_mergeSort (rule : Rule) (ctx : Context)
    (actors : List Actor) :
    rule.selectHolder ctx (actors.mergeSort fun a b => a.id ≤ b.id)
      = rule.selectHolder ctx actors := by
  refine least_filter_mergeSort ?_ ?_ ?_ rule.admits
  · intro a b c hab hbc
    simp only [decide_eq_true_eq] at hab hbc ⊢
    exact Int64.le_trans hab hbc
  · intro a b
    simp only [Bool.or_eq_true, decide_eq_true_eq]
    exact Int64.le_total a.id b.id
  · intro a b hrank
    rw [Actor.id_eq_of_holderRank hrank, decide_eq_true_eq]
    exact Int64.le_refl b.id

/-- Among the holders of a position who remain, the choice is as before unless
the one chosen has gone. -/
theorem selectHolder_deactivate {test : Entry → Bool}
    (h : ∀ a, rule.selectHolder ctx (r.activeWhere test) = some a →
      a.id ≠ user) :
    rule.selectHolder ctx ((r.deactivate user).activeWhere test)
      = rule.selectHolder ctx (r.activeWhere test) := by
  have hcomm : ((r.activeWhere test).filter (·.id ≠ user)).filter rule.admits
      = ((r.activeWhere test).filter rule.admits).filter (·.id ≠ user) := by
    rw [List.filter_filter, List.filter_filter]
    simp only [Bool.and_comm]
  unfold Rule.selectHolder
  rw [activeWhere_deactivate, hcomm]
  exact least_filter fun a ha => decide_eq_true (h a ha)

/-- A retirement of somebody whom the decision does not name is not seen by it:
what it answers and what it reports stay as they are. -/
theorem resolve_deactivate
    (h : ∀ res, (r.directory.resolve ctx explicit).answer = .ok res →
      res.executor.id ≠ user) :
    (r.deactivate user).directory.resolve ctx explicit
      = r.directory.resolve ctx explicit := by
  cases explicit with
  | some chosen =>
      have hsame : (r.deactivate user).directory.findActiveUser chosen
          = r.directory.findActiveUser chosen := by
        refine congrArg Except.ok ?_
        rw [activeWhere_deactivate]
        refine head?_filter_ne fun a ha => ?_
        exact h _ (Directory.Decides.named (congrArg Except.ok ha)).answer_eq
      simp only [Directory.resolve, Directory.resolveExplicit, hsame]
  | none =>
      have hrules : r.directory.matchingRules ctx
          = .ok (r.rules.filter (·.fits ctx)) := rfl
      have hrules' : (r.deactivate user).directory.matchingRules ctx
          = .ok (r.rules.filter (·.fits ctx)) := rfl
      cases hsel : Rule.select (r.rules.filter (·.fits ctx)) ctx with
      | some rule =>
          have hrule := Rule.select_eq_some_iff.1 hsel
          rw [Directory.resolve_of_chosen hrules hrule,
            Directory.resolve_of_chosen hrules' hrule]
          have hspared : ∀ a, rule.selectHolder ctx
              (r.activeWhere (·.actor.position == some rule.position))
                = some a → a.id ≠ user := by
            intro a ha
            rw [← selectHolder_mergeSort] at ha
            exact h _ (Directory.Decides.held hrules hrule rfl
              (Rule.selectHolder_eq_some_iff.1 ha)).answer_eq
          simp only [Directory.resolveByRule, directory,
            selectHolder_mergeSort, selectHolder_deactivate hspared]
      | none =>
          have hnone := Rule.select_eq_none_iff.1 hsel
          refine Directory.resolve_eq_of_unmatched hrules hnone hrules' hnone
            fun q hq => congrArg Except.ok ?_
          rw [activeWhere_deactivate]
          refine least_filter fun a ha => decide_eq_true ?_
          exact h _ (Directory.Decides.headed hrules hnone hq
            (congrArg Except.ok ha)).answer_eq

-- =================================================================== rules

/-- Asking for the rules that match an order before choosing among those that
match it is asking once. -/
theorem select_filter_fits (rules : List Rule) (ctx : Context) :
    Rule.select (rules.filter (·.fits ctx)) ctx = Rule.select rules ctx := by
  unfold Rule.select
  rw [List.filter_filter]
  simp only [Bool.and_self]

/-- With the same employees, a decision depends on the chosen rule alone. -/
theorem resolve_eq_of_select (hentries : r'.entries = r.entries)
    (h : Rule.select r'.rules ctx = Rule.select r.rules ctx) :
    r'.directory.resolve ctx explicit = r.directory.resolve ctx explicit := by
  obtain ⟨entries, rules⟩ := r
  obtain ⟨_, rules'⟩ := r'
  cases hentries
  cases explicit with
  | some user => rfl
  | none =>
      unfold Directory.resolve
      simp only [directory, select_filter_fits]
      rw [h]
      rfl

variable {before after : List Rule} {chosen : Rule}

/-- A rule that does not match is not among those chosen from. -/
theorem select_insert_of_not_fits (h : rule.fits ctx = false) :
    Rule.select (before ++ rule :: after) ctx
      = Rule.select (before ++ after) ctx := by
  unfold Rule.select
  rw [List.filter_append, List.filter_cons_of_neg (by simp [h]),
    ← List.filter_append]

/-- A rule with a greater key than the chosen one is not chosen, whether it
matches or not. -/
theorem select_insert_of_lt
    (hchosen : Rule.select (before ++ after) ctx = some chosen)
    (h : chosen.precedence < rule.precedence) :
    Rule.select (before ++ rule :: after) ctx = some chosen := by
  cases hfits : rule.fits ctx with
  | false => rw [select_insert_of_not_fits hfits, hchosen]
  | true =>
      unfold Rule.select at hchosen ⊢
      rw [List.filter_append] at hchosen ⊢
      rw [List.filter_cons, if_pos hfits]
      exact least_insert hchosen h

-- =============================================================== no effect

/-- Changes that a decision has nothing to do with leave it as it is, with what
it reports: retiring anybody but the executor it names, or anybody at all where
it names none; and adding a rule, anywhere among the others, that does not
match the order or whose precedence is worse than that of the rule it follows.
This holds of every roster, with whatever calls it was filled. -/
theorem resolve_ignores (r : Roster) (ctx : Context)
    (explicit : Option UserId) :
    (∀ res user, (r.directory.resolve ctx explicit).answer = .ok res →
        user ≠ res.executor.id →
        (r.deactivate user).directory.resolve ctx explicit
          = r.directory.resolve ctx explicit)
      ∧ (∀ e user, (r.directory.resolve ctx explicit).answer = .error e →
          (r.deactivate user).directory.resolve ctx explicit
            = r.directory.resolve ctx explicit)
      ∧ ∀ before after rule, r.rules = before ++ after →
          (rule.fits ctx = false
            ∨ ∃ chosen, Rule.select r.rules ctx = some chosen
                ∧ chosen.precedence < rule.precedence) →
          ({ r with rules := before ++ rule :: after } :
              Roster).directory.resolve ctx explicit
            = r.directory.resolve ctx explicit := by
  refine ⟨?_, ?_, ?_⟩
  · intro res user hanswer hne
    refine resolve_deactivate fun res' hanswer' => ?_
    rw [hanswer] at hanswer'
    cases hanswer'
    exact Ne.symm hne
  · intro e user hanswer
    refine resolve_deactivate fun res hanswer' => ?_
    rw [hanswer] at hanswer'
    cases hanswer'
  · intro before after rule hrules hrule
    refine resolve_eq_of_select rfl ?_
    rw [hrules] at hrule ⊢
    rcases hrule with hfits | ⟨chosen, hchosen, hlt⟩
    · exact select_insert_of_not_fits hfits
    · rw [select_insert_of_lt hchosen hlt, hchosen]

/-- An order for the otdel of the sample. -/
def otdelOrder : Context := { orderType := 3, otdel := some 100 }

/-- In the sample the order goes to the holder 5 by the rule 2. Neither the
retirement of the other holder nor a rule for another otdel nor one that leaves
the otdel open is seen; and where nobody holds the position of the rule, the
retirement of the head does not open another way. -/
theorem sample_ignores :
    (sample.directory.resolve otdelOrder none).answer
        = .ok { executor := { id := 5, department := 20, position := some 22 }
                status := some 3
                ruleFound := true }
      ∧ (sample.deactivate 7).directory.resolve otdelOrder none
        = sample.directory.resolve otdelOrder none
      ∧ (∀ otdel, otdel = some 200 ∨ otdel = none →
          ({ sample with
            rules := { id := 0, orderType := some 3, otdel, position := 1,
                       status := 1 } :: sample.rules } :
              Roster).directory.resolve otdelOrder none
            = sample.directory.resolve otdelOrder none)
      ∧ (vacancy.deactivate 101).directory.resolve
          { orderType := 3, department := some 10 } none
        = vacancy.directory.resolve
            { orderType := 3, department := some 10 } none := by
  obtain ⟨hretire, -, hrule⟩ := resolve_ignores sample otdelOrder none
  have hanswer : (sample.directory.resolve otdelOrder none).answer
      = .ok { executor := { id := 5, department := 20, position := some 22 }
              status := some 3
              ruleFound := true } := by
    -- Sorting by id recurses on the length, but it does not show in a choice.
    have hholder := selectHolder_mergeSort
      { id := 2, orderType := some 3, otdel := some 100, position := 22,
        status := 3 } otdelOrder
      (sample.activeWhere (·.actor.position == some 22))
    exact (Directory.Decides.held rfl (Rule.select_eq_some_iff.1 rfl) rfl
      (Rule.selectHolder_eq_some_iff.1 hholder)).answer_eq
  refine ⟨hanswer, hretire _ 7 hanswer (by decide), ?_, ?_⟩
  · rintro otdel (rfl | rfl)
    · exact hrule [] _ _ rfl (Or.inl (by decide))
    · exact hrule [] _ _ rfl (Or.inr ⟨_, rfl, by decide⟩)
  · exact (resolve_ignores vacancy _ none).2.1 (.noHolderForPosition 2 22) 101
      (by cbv)

end WorkRouting.Roster
