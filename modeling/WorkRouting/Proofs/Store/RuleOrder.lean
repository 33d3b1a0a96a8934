/-
The rules that a store lists, and their order. A lookup of rules selects rows
by conditions on columns that may be null, sorts them by which columns are
null, and reads each; the choice of a rule matches rules and compares their
precedence. Both state one order twice, and here they meet.

The conditions on a row are those on the rule it records
(`Row.RecordsRule.admits_eq`), and so is the place of a row among the others
(`Row.RecordsRule.rulePrecedence_eq`). No two rows have one id, so rows sorted
by precedence are read as rules of strictly ascending precedence, and the first
of them is the one to follow.

A row whose status is no id records no rule. A lookup that meets one fails and
lists nothing, even where other rules match.
-/
import WorkRouting.Proofs.Routing.Prefill
import WorkRouting.Proofs.Store.Seeding

namespace WorkRouting

-- ============================================================== vocabulary

/-- The list holds exactly the rules with a property, each once, in strictly
ascending precedence. -/
structure Rule.Ranks (p : Rule → Prop) (rules : List Rule) : Prop where
  mem_iff : ∀ r, r ∈ rules ↔ p r
  nodup : rules.Nodup
  ascending : rules.Pairwise fun r r' => r.precedence < r'.precedence

/-- What a lookup of the rules with a property comes to: it lists those that
the store holds, unless a row that it asks for records no rule. Then it fails
to read that row. -/
structure Store.Lists (s : Store) (asked : Row → Prop) (p : Rule → Prop)
    (answer : Except ReadError (List Rule)) : Prop where
  answers_iff : (∃ rules, answer = .ok rules)
    ↔ ∀ row ∈ s.rows .orderRoutingRules, asked row →
        ∃ rule, Row.RecordsRule row rule
  undecodable : ∀ e, answer = .error e → ∃ cause, e = .undecodable cause
  ranks : ∀ rules, answer = .ok rules →
    Rule.Ranks (fun r => s.HoldsRule r ∧ p r) rules

-- ================================================================= one row

namespace Row

variable {row : Row} {c : Column} {rule : Rule}

theorem bne_null_eq_isSome {n : Option Int64} (h : row c = .ofOptionalId n) :
    (row c != .null) = n.isSome := by
  rw [h]
  cases n <;> rfl

/-- A row stands where the rule it records stands. -/
theorem RecordsRule.rulePrecedence_eq (h : Row.RecordsRule row rule) :
    Store.rulePrecedence row = rule.precedence := by
  have hid : Row.idKey row = [rule.id.toInt] := by
    rw [Row.idKey, h.id]
  simp only [Store.rulePrecedence, bne_null_eq_isSome h.orderType,
    bne_null_eq_isSome h.otdel, bne_null_eq_isSome h.office,
    bne_null_eq_isSome h.department, bne_null_eq_isSome h.branch, hid]
  rfl

/-- Where a column should hold an id and does not, the value is to blame. -/
theorem undecodable_of_idAt :
    ∀ e, Row.idAt row c = .error e → ∃ cause, e = .undecodable cause := by
  intro e h
  unfold Row.idAt at h
  split at h
  · cases h
  · cases h
    exact ⟨_, rfl⟩

theorem undecodable_of_optionalIdAt :
    ∀ e, Row.optionalIdAt row c = .error e →
      ∃ cause, e = .undecodable cause := by
  intro e h
  unfold Row.optionalIdAt at h
  split at h
  · cases h
  · cases hid : Row.idAt row c with
    | error e' =>
        rw [hid] at h
        cases h
        exact undecodable_of_idAt e hid
    | ok n =>
        rw [hid] at h
        cases h

/-- A row that records no rule fails to be read for the sake of a value. -/
theorem undecodable_of_ruleOf :
    ∀ e, Store.ruleOf row = .error e → ∃ cause, e = .undecodable cause := by
  unfold Store.ruleOf
  refine of_bind_eq_error undecodable_of_idAt fun _ => ?_
  iterate 5
    refine of_bind_eq_error undecodable_of_optionalIdAt fun _ => ?_
  iterate 2
    refine of_bind_eq_error undecodable_of_idAt fun _ => ?_
  intro e h
  cases h

end Row

-- ============================================================ sorted rows

namespace Store

variable {s : Store} {test : Row → Bool} {p : Rule → Prop}
  {rules : List Rule}

/-- A rule is held where some row is read as it. -/
theorem holdsRule_iff {rule : Rule} :
    s.HoldsRule rule
      ↔ ∃ row ∈ s.rows .orderRoutingRules, ruleOf row = .ok rule := by
  simp only [HoldsRule, ruleOf_eq_ok_iff]

/-- Rows of rules that stand in order are read as rules of strictly ascending
precedence: two of them can tie only if they have one id. -/
theorem Sound.ascending (h : s.Sound) (hread : s.rulesWhere test = .ok rules) :
    rules.Pairwise fun r r' => r.precedence < r'.precedence := by
  have hids : (sortedBy rulePrecedence
      ((s.rows .orderRoutingRules).filter test)).Pairwise
        fun a b => a .id ≠ b .id := by
    have hrows :=
      List.pairwise_map.1 (h.ids_nodup (t := .orderRoutingRules) rfl)
    exact (sortedBy_perm _ _).symm.pairwise (hrows.sublist List.filter_sublist)
      fun hne => hne.symm
  have hrows := (pairwise_sortedBy rulePrecedence _).and hids
  refine pairwise_of_mapM_eq_ok hread hrows ?_
  rintro a b r r' ⟨hle, hne⟩ ha hb
  have hr := recordsRule_of_ruleOf ha
  have hr' := recordsRule_of_ruleOf hb
  rw [hr.rulePrecedence_eq, hr'.rulePrecedence_eq] at hle
  refine Decidable.byContradiction fun hlt => hne ?_
  have hid := Rule.id_eq_of_precedence (List.le_antisymm hle hlt)
  rw [hr.id, hr'.id, hid]

/-- A lookup whose test of rows is a property of the rules they record lists
the rules with this property. -/
theorem Sound.lists (h : s.Sound) {asked : Row → Prop}
    (hasked : ∀ row, test row = true ↔ asked row)
    (htest : ∀ row rule, Row.RecordsRule row rule →
      (test row = true ↔ p rule)) :
    s.Lists asked p (s.rulesWhere test) where
  answers_iff := Store.exists_rulesWhere_iff.trans
    (forall₂_congr fun row _ => imp_congr_left (hasked row))
  undecodable := of_mapM_eq_error fun _ _ => Row.undecodable_of_ruleOf
  ranks rules hread := by
    have hascending := h.ascending hread
    refine ⟨fun r => ?_, hascending.imp ?_, hascending⟩
    · rw [mem_rulesWhere_iff hread]
      constructor
      · rintro ⟨row, hrow, hasked, hrecords⟩
        exact ⟨⟨row, hrow, hrecords⟩, (htest row r hrecords).1 hasked⟩
      · rintro ⟨⟨row, hrow, hrecords⟩, hp⟩
        exact ⟨row, hrow, (htest row r hrecords).2 hp, hrecords⟩
    · rintro r r' hlt rfl
      exact List.lt_irrefl _ hlt

end Store

/-- Of rules that all match and stand in ascending precedence the first is
selected. -/
theorem Rule.Ranks.select_eq_head? {p : Rule → Prop} {rules : List Rule}
    {ctx : Context} (h : Rule.Ranks p rules)
    (hp : ∀ r, p r → r.fits ctx = true) :
    Rule.select rules ctx = rules.head? := by
  have hall : rules.filter (·.fits ctx) = rules :=
    List.filter_eq_self.2 fun r hr => hp r ((h.mem_iff r).1 hr)
  rw [Rule.select, hall]
  exact least_eq_head? (h.ascending.imp List.lt_asymm)

/-- In every store that accepted writes lead to, the lookup for an order lists
exactly the rules held that match it, in strictly ascending precedence, so the
first of them is selected; and the lookup for an order type lists exactly the
rules of that type in the same order. Either fails as soon as a row that it
asks for is no rule, and a row is one exactly if its order type is an id or
null and its status is an id. -/
theorem Store.Reachable.lookups_rank {s : Store} (h : s.Reachable) :
    (∀ ctx, s.Lists (·.MayMatch ctx) (·.fits ctx = true)
          (s.matchingRules ctx)
        ∧ ∀ rules, s.matchingRules ctx = .ok rules →
            Rule.select rules ctx = rules.head?)
      ∧ (∀ t, s.Lists (fun row => (row .orderTypeId).IsNumber t)
          (·.orderType = some t) (s.rulesForOrderType t))
      ∧ ∀ row ∈ s.rows .orderRoutingRules,
          (∃ rule, Row.RecordsRule row rule)
            ↔ (row .orderTypeId).IsOptionalId ∧ Row.HasStatus row := by
  refine ⟨fun ctx => ?_, fun t => ?_,
    fun row hrow => h.sound.exists_recordsRule_iff hrow⟩
  · have hlists : s.Lists (·.MayMatch ctx) (·.fits ctx = true)
        (s.matchingRules ctx) := by
      rw [matchingRules_eq_rulesWhere]
      refine h.sound.lists (fun _ => Row.admits_iff)
        fun row rule hrecords => ?_
      rw [hrecords.admits_eq ctx]
    exact ⟨hlists, fun rules hread =>
      (hlists.ranks rules hread).select_eq_head? fun _ hr => hr.2⟩
  · refine h.sound.lists (fun _ => Value.same_integer_iff_isNumber)
      fun row rule hrecords => ?_
    rw [hrecords.orderType, Value.same_integer_iff]

/-- In the demo organization two rules match an order of type 3 for department
10. Both are listed, and the first of the list is selected. -/
theorem Store.demo_lookup_ranks :
    Store.demo.Reachable
      ∧ ∃ rules, Store.demo.matchingRules
            { orderType := 3, department := some 10 } = .ok rules
          ∧ { id := 1, orderType := some 3, position := 11, status := 1 }
              ∈ rules
          ∧ { id := 2, orderType := some 3, department := some 10,
              position := 22, status := 2 } ∈ rules
          ∧ (rules.Pairwise fun r r' => r.precedence < r'.precedence)
          ∧ Rule.select rules { orderType := 3, department := some 10 }
              = rules.head? := by
  have hreach : Store.demo.Reachable :=
    Store.Reachable.empty.seedDemo Store.seedDemo_empty
  obtain ⟨hlists, hselect⟩ :=
    hreach.lookups_rank.1 { orderType := 3, department := some 10 }
  obtain ⟨rules, hread⟩ := hlists.answers_iff.2 fun row hrow _ =>
    hreach.sound.exists_rule (by decide +kernel) hrow
  have hranks := hlists.ranks rules hread
  refine ⟨hreach, rules, hread, (hranks.mem_iff _).2 ⟨?_, by decide⟩,
    (hranks.mem_iff _).2 ⟨?_, by decide⟩, hranks.ascending,
    hselect rules hread⟩
  · exact holdsRule_iff.2 (by decide +kernel)
  · exact holdsRule_iff.2 (by decide +kernel)

/-- Of two rules for one order type, one has a word for its status. The other
matches the order, but the lookup fails over the word and lists neither. -/
theorem Store.misstated_unlisted :
    Store.misstated.Reachable
      ∧ Store.misstated.HoldsRule
          { id := 2, orderType := some 7, position := 11, status := 4 }
      ∧ ¬ ∃ rules, Store.misstated.matchingRules { orderType := 7 } = .ok rules
          ∧ Rule.Ranks
              (fun r => Store.misstated.HoldsRule r
                ∧ r.fits { orderType := 7 } = true)
              rules := by
  refine ⟨misstated_reachable, ?_, ?_⟩
  · exact holdsRule_iff.2 (by decide +kernel)
  · rintro ⟨rules, hread, -⟩
    have hword : ∃ row ∈ Store.misstated.rows .orderRoutingRules,
        Row.admits row { orderType := 7 } = true
          ∧ row .statusId = .text "new" := by
      decide +kernel
    obtain ⟨row, hrow, hadmits, hstatus⟩ := hword
    obtain ⟨rule, hrule⟩ :=
      exists_rulesWhere_iff.1 ⟨rules, hread⟩ row hrow hadmits
    rw [hrule.status] at hstatus
    cases hstatus

end WorkRouting
