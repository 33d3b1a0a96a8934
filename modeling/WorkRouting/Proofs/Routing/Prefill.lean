/-
The units that are filled in for an order type, and that routing follows them.

Two choices are made of the same rules. One is for an order type: among the
rules of exactly this type that pin a department or an otdel, the least in
precedence fixes the units. The other is for an order: among all rules that
match it, of whatever type and with whatever columns open, the least is
followed. For an order that has the fixed units and no others both are the same
rule, as long as that rule matches the order, that is, pins neither a branch
nor an office (`Rule.Foremost.of_fixes`).

The argument is about a single competitor. A rule that matches such an order
pins no column that the fixing rule leaves open, so in each column up to the id
it is no better; to come before the fixing rule it has to pin the type and a
unit too, and then it is one of the rules that the first choice was made of
(`Rule.fixes_of_precedence_lt`).

A directory comes in through the rules it holds (`Directory.Holds`): those of a
roster, or those that rows of a store record. A store may hold a row that is no
rule, for its status is no id; a lookup that asks for it fails
(`Store.exists_rulesWhere_iff`), even where no row fixes any unit
(`Store.misstated_unfilled`).
-/
import WorkRouting.Proofs.Routing.Decision
import WorkRouting.Proofs.Store.Mirror

namespace WorkRouting

-- ============================================================== vocabulary

/-- The rule is for exactly this order type and fixes a department or an otdel
for it. -/
def Rule.Fixes (r : Rule) (t : OrderTypeId) : Prop :=
  r.orderType = some t ∧ (r.department.isSome ∨ r.otdel.isSome)

instance (r : Rule) (t : OrderTypeId) : Decidable (r.Fixes t) :=
  inferInstanceAs (Decidable (_ ∧ _))

/-- The units that a rule fixes. -/
def Rule.route (r : Rule) : PredefinedRoute := ⟨r.department, r.otdel⟩

/-- An order of the type with these units filled in, and no others. -/
def PredefinedRoute.order (route : PredefinedRoute) (t : OrderTypeId) :
    Context :=
  { orderType := t, department := route.department, otdel := route.otdel }

/-- Of the rules with a property, the one that precedes all others. -/
def Rule.Foremost (p : Rule → Prop) (r : Rule) : Prop :=
  p r ∧ ∀ r', p r' → r' ≠ r → r.precedence < r'.precedence

/-- The rules that a directory answers from, each with an id of its own. Where
a lookup answers, it lists the rules held that are asked for, among others
maybe. -/
structure Directory.Holds (d : Directory) (held : Rule → Prop) : Prop where
  apart : ∀ r r', held r → held r' → r.id = r'.id → r = r'
  typed : ∀ t rules, d.rulesForOrderType t = .ok rules →
    ∀ r, r.orderType = some t → (r ∈ rules ↔ held r)
  matching : ∀ ctx rules, d.matchingRules ctx = .ok rules →
    ∀ r, r.fits ctx = true → (r ∈ rules ↔ held r)

/-- The units fixed for an order type are those of the foremost rule that fixes
any, and routing follows that rule when they are filled in. -/
structure Directory.Prefills (d : Directory) (held : Rule → Prop)
    (t : OrderTypeId) : Prop where
  none_iff : d.predefinedRoute t = .ok none ↔ ∀ r, held r → ¬ r.Fixes t
  some_iff : ∀ route, d.predefinedRoute t = .ok (some route)
    ↔ ∃ r, Rule.Foremost (fun r' => held r' ∧ r'.Fixes t) r ∧ route = r.route
  followed : ∀ r, Rule.Foremost (fun r' => held r' ∧ r'.Fixes t) r →
    r.branch = none → r.office = none →
    ∀ rules, d.matchingRules (r.route.order t) = .ok rules →
      Rule.select rules (r.route.order t) = some r
        ∧ d.resolve (r.route.order t) none
          = d.resolveByRule (r.route.order t) r

-- ========================================================== one competitor

namespace Rule

variable {r r' : Rule} {t : OrderTypeId} {held : Rule → Prop}

theorem columnAdmits_iff {pinned value : Option Int64} :
    columnAdmits pinned value = true ↔ pinned = none ∨ pinned = value := by
  cases pinned with
  | none => simp [columnAdmits]
  | some p =>
      simp only [columnAdmits, beq_iff_eq, reduceCtorEq, false_or]
      exact eq_comm

/-- A rule matches an order with just these units if it pins some of them and
nothing else. -/
theorem fits_order_iff {route : PredefinedRoute} :
    r.fits (route.order t) = true
      ↔ (r.orderType = none ∨ r.orderType = some t)
        ∧ (r.department = none ∨ r.department = route.department)
        ∧ (r.otdel = none ∨ r.otdel = route.otdel)
        ∧ r.branch = none ∧ r.office = none := by
  simp only [fits, Bool.and_eq_true, columnAdmits_iff, PredefinedRoute.order,
    or_self, and_assoc]

theorem fits_route_order (ht : r.orderType = some t)
    (hbranch : r.branch = none) (hoffice : r.office = none) :
    r.fits (r.route.order t) = true :=
  fits_order_iff.2 ⟨Or.inr ht, Or.inr rfl, Or.inr rfl, hbranch, hoffice⟩

/-- A rule that matches the order and precedes the one that fixes its units
fixes units itself: it has to pin the type, and with every unit open it would
be behind at the first one that is fixed. -/
theorem fixes_of_precedence_lt (hr : r.Fixes t)
    (hfits : r'.fits (r.route.order t) = true)
    (hlt : r'.precedence < r.precedence) : r'.Fixes t := by
  obtain ⟨ht, hunit⟩ := hr
  obtain ⟨ht', hdepartment, hotdel, hbranch, hoffice⟩ := fits_order_iff.1 hfits
  simp only [precedence, List.cons_lt_cons_iff, ht, hbranch, hoffice] at hlt
  rcases ht' with ht' | ht'
  · -- an open type is behind at the first position
    simp [ht', Key.preferring] at hlt
  · refine ⟨ht', Decidable.byContradiction fun hopen => ?_⟩
    simp only [not_or, Option.not_isSome_iff_eq_none] at hopen
    obtain ⟨hdepartment', hotdel'⟩ := hopen
    rw [ht', hdepartment', hotdel'] at hlt
    cases hotdel : r.otdel with
    | some n => simp [hotdel, Key.preferring] at hlt
    | none =>
        -- the office stands before the department, and there the competitor
        -- is no better, since it pins none
        rw [hotdel] at hunit hlt
        obtain ⟨n, hn⟩ :=
          Option.isSome_iff_exists.1 (hunit.resolve_right (by simp))
        cases hoffice' : r.office <;>
          simp [hn, hoffice', Key.preferring] at hlt

/-- The foremost rule that fixes units is the foremost one for an order with
these units, if it matches it. -/
theorem Foremost.of_fixes
    (hapart : ∀ r r', held r → held r' → r.id = r'.id → r = r')
    (h : Foremost (fun r' => held r' ∧ r'.Fixes t) r)
    (hbranch : r.branch = none) (hoffice : r.office = none) :
    Foremost (fun r' => held r' ∧ r'.fits (r.route.order t) = true) r := by
  obtain ⟨⟨hheld, hfixes⟩, hless⟩ := h
  refine ⟨⟨hheld, fits_route_order hfixes.1 hbranch hoffice⟩, ?_⟩
  rintro r' ⟨hheld', hfits⟩ hne
  refine Decidable.byContradiction fun hlt => ?_
  by_cases hlt' : r'.precedence < r.precedence
  · exact hlt (hless r' ⟨hheld', fixes_of_precedence_lt hfixes hfits hlt'⟩ hne)
  · have heq := List.le_antisymm hlt hlt'
    exact hne (hapart r' r hheld' hheld (id_eq_of_precedence heq))

-- ============================================================== two choices

/-- Rules with ids of their own have keys of their own. -/
theorem least_eq_some_iff_foremost {rules : List Rule} {p : Rule → Prop}
    (hmem : ∀ r, r ∈ rules ↔ p r)
    (hapart : ∀ r r', p r → p r' → r.id = r'.id → r = r') :
    least precedence rules = some r ↔ Foremost p r :=
  least_eq_some_iff_of_keys hmem fun a b ha hb hkey =>
    hapart a b ha hb (id_eq_of_precedence hkey)

theorem pinsUnit_iff (ht : r.orderType = some t) :
    r.pinsUnit = true ↔ r.Fixes t := by
  simp [pinsUnit, Fixes, ht]

end Rule

namespace Directory.Holds

variable {d : Directory} {held : Rule → Prop} {t : OrderTypeId} {r : Rule}
  {rules : List Rule}

/-- The rules that the first choice is made of. -/
theorem mem_pinning_iff (h : d.Holds held)
    (hrules : d.rulesForOrderType t = .ok rules) :
    r ∈ (rules.filter (·.orderType == some t)).filter Rule.pinsUnit
      ↔ held r ∧ r.Fixes t := by
  rw [List.mem_filter, List.mem_filter, beq_iff_eq]
  constructor
  · rintro ⟨⟨hmem, ht⟩, hpins⟩
    exact ⟨(h.typed t rules hrules r ht).1 hmem,
      (Rule.pinsUnit_iff ht).1 hpins⟩
  · rintro ⟨hheld, hfixes⟩
    exact ⟨⟨(h.typed t rules hrules r hfixes.1).2 hheld, hfixes.1⟩,
      (Rule.pinsUnit_iff hfixes.1).2 hfixes⟩

/-- The rules that the second choice is made of. -/
theorem mem_fitting_iff (h : d.Holds held) {ctx : Context}
    (hrules : d.matchingRules ctx = .ok rules) :
    r ∈ rules.filter (·.fits ctx) ↔ held r ∧ r.fits ctx = true := by
  rw [List.mem_filter]
  exact and_congr_left fun hfits => h.matching ctx rules hrules r hfits

theorem selectPinning_eq_some_iff (h : d.Holds held)
    (hrules : d.rulesForOrderType t = .ok rules) :
    Rule.selectPinning (rules.filter (·.orderType == some t)) = some r
      ↔ Rule.Foremost (fun r' => held r' ∧ r'.Fixes t) r :=
  Rule.least_eq_some_iff_foremost (fun _ => h.mem_pinning_iff hrules)
    fun a b ha hb => h.apart a b ha.1 hb.1

theorem select_eq_some_iff (h : d.Holds held) {ctx : Context}
    (hrules : d.matchingRules ctx = .ok rules) :
    Rule.select rules ctx = some r
      ↔ Rule.Foremost (fun r' => held r' ∧ r'.fits ctx = true) r :=
  Rule.least_eq_some_iff_foremost (fun _ => h.mem_fitting_iff hrules)
    fun a b ha hb => h.apart a b ha.1 hb.1

theorem prefills (h : d.Holds held)
    (hrules : d.rulesForOrderType t = .ok rules) : d.Prefills held t where
  none_iff := by
    simp only [predefinedRoute, hrules, Except.ok.injEq,
      Option.map_eq_none_iff, Rule.selectPinning, least_eq_none,
      List.eq_nil_iff_forall_not_mem, h.mem_pinning_iff hrules, not_and]
  some_iff route := by
    simp only [predefinedRoute, hrules, Except.ok.injEq,
      Option.map_eq_some_iff, h.selectPinning_eq_some_iff hrules,
      eq_comm (a := route), Rule.route]
  followed r hr hbranch hoffice candidates hcandidates := by
    have hforemost := hr.of_fixes h.apart hbranch hoffice
    have hselect := (h.select_eq_some_iff hcandidates).2 hforemost
    exact ⟨hselect, resolve_of_chosen hcandidates
      (Rule.select_eq_some_iff.1 hselect)⟩

end Directory.Holds

/-- Units are fixed, or found not to be, as soon as the rules are read. -/
theorem Directory.exists_predefinedRoute_iff {d : Directory}
    {t : OrderTypeId} :
    (∃ route, d.predefinedRoute t = .ok route)
      ↔ ∃ rules, d.rulesForOrderType t = .ok rules := by
  cases hrules : d.rulesForOrderType t <;> simp [predefinedRoute, hrules]

-- ================================================================ rosters

/-- A roster holds its rules, as long as no two have one id. -/
theorem Roster.holds {r : Roster} (h : (r.rules.map Rule.id).Nodup) :
    r.directory.Holds (· ∈ r.rules) where
  apart _ _ ha hb hid := List.inj_on_of_nodup_map h ha hb hid
  typed t rules hrules rule ht := by
    cases hrules
    simp [ht]
  matching ctx rules hrules rule hfits := by
    cases hrules
    simp [hfits]

-- ================================================================== stores

/-- The row of a rule has an id as its status. -/
def Row.HasStatus (row : Row) : Prop := ∃ n, row .statusId = .integer n

/-- The row can be read as a rule: it is for an order type or for all, and has
a status. -/
def Row.IsRule (row : Row) : Prop :=
  (row .orderTypeId).IsOptionalId ∧ row.HasStatus

/-- A row of the store records the rule. -/
def Store.HoldsRule (s : Store) (rule : Rule) : Prop :=
  ∃ row ∈ s.rows .orderRoutingRules, Row.RecordsRule row rule

namespace Store

variable {s : Store} {test : Row → Bool} {rules : List Rule} {rule : Rule}

/-- Rules are read if every row under the test records one. -/
theorem exists_rulesWhere_iff :
    (∃ rules, s.rulesWhere test = .ok rules)
      ↔ ∀ row ∈ s.rows .orderRoutingRules, test row = true →
          ∃ rule, Row.RecordsRule row rule := by
  have hmem : ∀ row, row ∈ sortedBy rulePrecedence
      ((s.rows .orderRoutingRules).filter test)
        ↔ row ∈ s.rows .orderRoutingRules ∧ test row = true := by
    intro row
    rw [(sortedBy_perm _ _).mem_iff, List.mem_filter]
  simp only [rulesWhere, exists_mapM_eq_ok_iff, hmem, and_imp,
    ruleOf_eq_ok_iff]

/-- What is read are the rules that the rows under the test record. -/
theorem mem_rulesWhere_iff (h : s.rulesWhere test = .ok rules) :
    rule ∈ rules ↔ ∃ row ∈ s.rows .orderRoutingRules,
      test row = true ∧ Row.RecordsRule row rule := by
  simp only [mem_iff_of_mapM_eq_ok h, (sortedBy_perm _ _).mem_iff,
    List.mem_filter, ruleOf_eq_ok_iff, and_assoc]

/-- In a sound store the row of a rule records one as far as its order type and
its status allow; its other columns refer to rows or are null. -/
theorem Sound.exists_recordsRule_iff (h : s.Sound) {row : Row}
    (hrow : row ∈ s.rows .orderRoutingRules) :
    (∃ rule, Row.RecordsRule row rule) ↔ row.IsRule := by
  constructor
  · rintro ⟨rule, hrule⟩
    refine ⟨?_, rule.status, hrule.status⟩
    rw [hrule.orderType]
    cases rule.orderType with
    | none => exact Or.inl rfl
    | some t => exact Or.inr ⟨t, rfl⟩
  · rintro ⟨horderType, hstatus⟩
    exact h.exists_recordsRule hrow horderType (Or.inr hstatus)

/-- Rules are read if every row under the test is one. -/
theorem Sound.exists_rulesWhere_iff (h : s.Sound) :
    (∃ rules, s.rulesWhere test = .ok rules)
      ↔ ∀ row ∈ s.rows .orderRoutingRules, test row = true → row.IsRule :=
  Store.exists_rulesWhere_iff.trans (forall₂_congr fun _ hrow =>
    forall_congr' fun _ => h.exists_recordsRule_iff hrow)

/-- A sound store holds the rules that its rows record. -/
theorem Sound.holds (h : s.Sound) :
    (Database.ready s).directory.Holds s.HoldsRule where
  apart r r' hr hr' hid := by
    obtain ⟨row, hrow, hrecords⟩ := hr
    obtain ⟨row', hrow', hrecords'⟩ := hr'
    have hids : row .id = row' .id := by
      rw [hrecords.id, hrecords'.id, hid]
    rw [h.eq_of_id_eq rfl hrow hrow' hids] at hrecords
    exact Except.ok.inj ((ruleOf_eq hrecords).symm.trans (ruleOf_eq hrecords'))
  typed t rules hrules r ht := by
    rw [mem_rulesWhere_iff (mapError_eq_ok_iff.1 hrules)]
    refine exists_congr fun row => and_congr_right fun _ =>
      and_iff_right_of_imp fun hrecords => ?_
    rw [hrecords.orderType, Value.same_integer_iff, ht]
  matching ctx rules hrules r hfits := by
    rw [mem_rulesWhere_iff (mapError_eq_ok_iff.1 hrules)]
    refine exists_congr fun row => and_congr_right fun _ =>
      and_iff_right_of_imp fun hrecords => ?_
    exact (hrecords.admits_eq ctx).trans hfits

end Store

/-- What is filled in for an order type, and that routing follows it: over
every roster whose rules have ids of their own, and over every store that
accepted writes lead to, where they always have. A roster always answers. A
store answers for an order type, or for an order, exactly as long as every row
that is asked for can be read as a rule; other rows do not matter. -/
theorem predefinedRoute_followed :
    (∀ r : Roster, (r.rules.map Rule.id).Nodup → ∀ t,
        (∃ route, r.directory.predefinedRoute t = .ok route)
          ∧ (∀ ctx, ∃ rules, r.directory.matchingRules ctx = .ok rules)
          ∧ r.directory.Prefills (· ∈ r.rules) t)
      ∧ ∀ s : Store, s.Reachable → ∀ t,
          ((∃ route,
              (Database.ready s).directory.predefinedRoute t = .ok route)
            ↔ ∀ row ∈ s.rows .orderRoutingRules,
                (row .orderTypeId).IsNumber t → row.IsRule)
          ∧ (∀ ctx, (∃ rules,
                (Database.ready s).directory.matchingRules ctx = .ok rules)
              ↔ ∀ row ∈ s.rows .orderRoutingRules,
                  row.MayMatch ctx → row.IsRule)
          ∧ ((∃ route,
                (Database.ready s).directory.predefinedRoute t = .ok route) →
              (Database.ready s).directory.Prefills s.HoldsRule t) := by
  refine ⟨fun r hr t => ?_, fun s hs t => ⟨?_, fun ctx => ?_, fun h => ?_⟩⟩
  · exact ⟨⟨_, rfl⟩, fun _ => ⟨_, rfl⟩, (Roster.holds hr).prefills rfl⟩
  · simp only [Directory.exists_predefinedRoute_iff,
      ← Value.same_integer_iff_isNumber]
    exact (exists_congr fun rules => mapError_eq_ok_iff).trans
      hs.sound.exists_rulesWhere_iff
  · simp only [← Row.admits_iff]
    exact (exists_congr fun rules => mapError_eq_ok_iff).trans
      hs.sound.exists_rulesWhere_iff
  · obtain ⟨rules, hrules⟩ := Directory.exists_predefinedRoute_iff.1 h
    exact hs.sound.holds.prefills hrules

-- ============================================================= competitors

/-- Rules for one otdel: for all types of order, for type 3 in one department,
and for type 3 in one branch; and a rule for type 3 that fixes no unit. All of
them lead to one employee. -/
def Roster.competing : Roster where
  entries := [{ actor := { id := 7, department := 10, position := some 22 } }]
  rules :=
    [{ id := 1, otdel := some 100, position := 22, status := 1 },
      { id := 5, orderType := some 3, department := some 10, otdel := some 100,
        position := 22, status := 2 },
      { id := 2, orderType := some 3, otdel := some 100, branch := some 7,
        position := 22, status := 3 },
      { id := 3, orderType := some 3, position := 22, status := 4 }]

/-- The rule with the department fixes the units, and it is followed where they
are filled in, although the rule for all types matches as well. In the sample
store the one rule there is fixes the units of its type. -/
theorem Roster.competing_followed :
    competing.directory.predefinedRoute 3 = .ok (some ⟨some 10, some 100⟩)
      ∧ (competing.directory.resolve
            { orderType := 3, department := some 10, otdel := some 100 }
            none).answer
          = .ok {
              executor := { id := 7, department := 10, position := some 22 }
              status := some 2
              ruleFound := true }
      ∧ competing.directory.predefinedRoute 4 = .ok none
      ∧ ∃ rule, Store.sample.HoldsRule rule ∧ rule.Fixes 7
          ∧ rule.route = ⟨some 1, none⟩ := by
  obtain ⟨hroster, hstore⟩ := predefinedRoute_followed
  have hcompeting := hroster competing (by decide)
  obtain ⟨-, -, hthree⟩ := hcompeting 3
  obtain ⟨-, -, hfour⟩ := hcompeting 4
  obtain ⟨-, -, hsample⟩ := hstore Store.sample Store.sample_reachable 7
  have hfix : ∀ r ∈ competing.rules, r.Fixes 3 → r.id ≠ 5 →
      (competing.rules[1]).precedence < r.precedence := by
    decide +kernel
  have hforemost : Rule.Foremost (fun r => r ∈ competing.rules ∧ r.Fixes 3)
      competing.rules[1] := by
    refine ⟨by decide, fun r hr hne => hfix r hr.1 hr.2 fun hid => hne ?_⟩
    exact List.inj_on_of_nodup_map (by decide) hr.1 (by decide) hid
  refine ⟨(hthree.some_iff _).2 ⟨_, hforemost, rfl⟩, ?_,
    hfour.none_iff.2 (by decide), ?_⟩
  · have hresolve := (hthree.followed _ hforemost rfl rfl _ rfl).2
    rw [show (⟨3, some 10, some 100, none, none⟩ : Context)
      = competing.rules[1].route.order 3 from rfl, hresolve]
    cbv
  · have hread : (Database.ready Store.sample).directory.predefinedRoute 7
        = .ok (some ⟨some 1, none⟩) := by
      decide +kernel
    obtain ⟨rule, ⟨⟨hheld, hfixes⟩, -⟩, hroute⟩ :=
      ((hsample ⟨_, hread⟩).some_iff _).1 hread
    exact ⟨rule, hheld, hfixes, hroute.symm⟩

-- =============================================================== misstated

/-- Two rules for one order type, of which one has a word for its status. -/
def Store.misstatedStatements : List Statement :=
  [.insert "positions"
      [("id", .integer 11), ("name", .text "Specialist"),
        ("position_type", .text "SPECIALIST")],
    .insert "order_routing_rules"
      [("id", .integer 1), ("order_type_id", .integer 7),
        ("assign_to_position_id", .integer 11), ("status_id", .text "new")],
    .insert "order_routing_rules"
      [("id", .integer 2), ("order_type_id", .integer 7),
        ("assign_to_position_id", .integer 11), ("status_id", .integer 4)]]

def Store.misstated : Store :=
  (Store.misstatedStatements.foldl Database.attempt (.ready .empty)).store

theorem Store.misstated_reachable : Store.misstated.Reachable :=
  (Database.Reachable.migrated.foldl_attempt
    misstatedStatements).reachable_store.2

/-- No row fixes a unit, so there would be none to fill in; but the lookup asks
for the row with the word, and fails. -/
theorem Store.misstated_unfilled :
    Store.misstated.Reachable
      ∧ (∀ row ∈ Store.misstated.rows .orderRoutingRules,
          row .departmentId = .null ∧ row .otdelId = .null)
      ∧ (∀ r, Store.misstated.HoldsRule r → ¬ r.Fixes 7)
      ∧ ¬ ∃ route, (Database.ready Store.misstated).directory.predefinedRoute 7
          = .ok route := by
  have hopen : ∀ row ∈ Store.misstated.rows .orderRoutingRules,
      row .departmentId = .null ∧ row .otdelId = .null := by
    decide +kernel
  have hword : ∃ row ∈ Store.misstated.rows .orderRoutingRules,
      (row .orderTypeId).same (.integer 7) = true
        ∧ row .statusId = .text "new" := by
    decide +kernel
  refine ⟨misstated_reachable, hopen, ?_, ?_⟩
  · rintro r ⟨row, hrow, hrecords⟩ ⟨-, hunit⟩
    obtain ⟨hdepartment, hotdel⟩ := hopen row hrow
    rw [hrecords.department, Value.ofOptionalId_eq_null_iff] at hdepartment
    rw [hrecords.otdel, Value.ofOptionalId_eq_null_iff] at hotdel
    simp [hdepartment, hotdel] at hunit
  · rw [Directory.exists_predefinedRoute_iff]
    rintro ⟨rules, hread⟩
    obtain ⟨row, hrow, hasked, hstatus⟩ := hword
    obtain ⟨-, n, hn⟩ := misstated_reachable.sound.exists_rulesWhere_iff.1
      ⟨rules, mapError_eq_ok_iff.1 hread⟩ row hrow hasked
    rw [hn] at hstatus
    cases hstatus

end WorkRouting
