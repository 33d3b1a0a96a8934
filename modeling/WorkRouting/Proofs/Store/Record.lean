/-
What rows record, and that reading gives it back. `Store.Records` and
`Row.RecordsRule` say column by column which employee or rule a row stands for:
an identifier as its number, an absent one as null, the kind of a position as
its name in the row of the position. They are relations, so a row with a value
that is no identifier records nothing.

In a sound store the two sides meet. A row is read as what it records
(`actorOf_eq`, `ruleOf_eq`): the position is found because no other has its id,
and its kind is read because the table allows only the names of kinds. And a
row records something (`Sound.exists_entry`, `Sound.exists_rule`): every column
that refers to another table holds an id or null, because what it refers to has
one. Only the order type and the status of a rule refer to nothing; that they
hold identifiers is a condition (`Store.Identifies`).
-/
import WorkRouting.Proofs.Store.Sound
import WorkRouting.Proofs.Text
import WorkRouting.Roster
import WorkRouting.Store.Directory

namespace WorkRouting

-- =============================================================== relations

/-- A row of an employee and the registration it stands for. Being a head
follows from the kind of the position. -/
structure Store.Records (s : Store) (u : Row) (e : Roster.Entry) : Prop where
  id : u .id = .integer e.actor.id
  department : u .departmentId = .integer e.actor.department
  otdel : u .otdelId = .ofOptionalId e.actor.otdel
  branch : u .branchId = .ofOptionalId e.actor.branch
  office : u .officeId = .ofOptionalId e.actor.office
  position : u .positionId = .ofOptionalId e.actor.position
  unplaced : e.kind = none → e.actor.position = none
  placed : ∀ k, e.kind = some k →
    ∃ p ∈ s.rows .positions,
      p .id = u .positionId ∧ p .positionType = .text k.name
  isHead : e.actor.isHead = e.kind.elim false PositionType.isHead

/-- A row of a rule and the rule it stands for. -/
structure Row.RecordsRule (r : Row) (rule : Rule) : Prop where
  id : r .id = .integer rule.id
  orderType : r .orderTypeId = .ofOptionalId rule.orderType
  department : r .departmentId = .ofOptionalId rule.department
  otdel : r .otdelId = .ofOptionalId rule.otdel
  branch : r .branchId = .ofOptionalId rule.branch
  office : r .officeId = .ofOptionalId rule.office
  position : r .assignToPositionId = .integer rule.position
  status : r .statusId = .integer rule.status

/-- The value is an identifier or null. -/
def Value.IsOptionalId (v : Value) : Prop := v = .null ∨ ∃ n, v = .integer n

/-- The value is the number: it is stored as the integer, or as a real that is
this whole number. -/
def Value.IsNumber (v : Value) (n : Int64) : Prop :=
  v = .integer n
    ∨ ∃ bits, v = .real bits ∧ Binary64.whole? bits = some n.toInt

/-- The order types and statuses of rules are identifiers, or null. -/
def Store.Identifies (s : Store) : Prop :=
  ∀ r ∈ s.rows .orderRoutingRules,
    (r .orderTypeId).IsOptionalId ∧ (r .statusId).IsOptionalId

instance (v : Value) : Decidable v.IsOptionalId :=
  match v with
  | .null => isTrue (Or.inl rfl)
  | .integer n => isTrue (Or.inr ⟨n, rfl⟩)
  | .real _ | .text _ | .garbled _ | .blob _ =>
      isFalse fun
        | .inl h => nomatch h
        | .inr ⟨_, h⟩ => nomatch h

instance (s : Store) : Decidable s.Identifies :=
  inferInstanceAs (Decidable (∀ r ∈ s.rows .orderRoutingRules, _))

theorem Value.IsOptionalId.exists_eq {v : Value} (h : v.IsOptionalId) :
    ∃ n, v = .ofOptionalId n := by
  rcases h with rfl | ⟨n, rfl⟩
  · exact ⟨none, rfl⟩
  · exact ⟨some n, rfl⟩

theorem Value.IsOptionalId.exists_id {v : Value} (h : v.IsOptionalId)
    (hv : v ≠ .null) :
    ∃ n, v = .integer n :=
  h.resolve_left hv

theorem Value.compared_ofOptionalId (n : Option Int64) :
    (Value.ofOptionalId n).compared = .ofOptionalId n := by
  cases n <;> rfl

theorem Value.ofOptionalId_eq_null_iff {n : Option Int64} :
    Value.ofOptionalId n = .null ↔ n = none := by
  cases n with
  | none => simp [Value.ofOptionalId]
  | some n => simp [Value.ofOptionalId]

theorem Value.ofOptionalId_eq_integer_iff {n : Option Int64} {m : Int64} :
    Value.ofOptionalId n = .integer m ↔ n = some m := by
  cases n with
  | none => simp [Value.ofOptionalId]
  | some n => simp [Value.ofOptionalId]

/-- A comparison with an integer finds that number, however it is stored. -/
theorem Value.same_integer_iff_isNumber {v : Value} {n : Int64} :
    v.same (.integer n) = true ↔ v.IsNumber n := by
  rw [Value.same_iff, Value.IsNumber]
  cases v with
  | real bits =>
      simp only [Value.compared, reduceCtorEq, Value.real.injEq, false_or,
        exists_eq_left']
      cases hwhole : Binary64.whole? bits with
      | none => simp
      | some k =>
          rw [Option.bind_some, Option.some.injEq, ← id64?_eq_some_iff]
          cases id64? k <;> simp
  | null | integer _ | text _ | garbled _ | blob _ =>
      simp [Value.compared]

/-- Between identifiers a comparison is an equation. -/
theorem Value.same_integer_iff {n : Option Int64} {m : Int64} :
    (Value.ofOptionalId n).same (.integer m) = true ↔ n = some m := by
  rw [Value.same_iff, Value.compared_ofOptionalId]
  exact Value.ofOptionalId_eq_integer_iff

-- ================================================================= columns

theorem Row.idAt_eq {r : Row} {c : Column} {n : Int64} (h : r c = .integer n) :
    Row.idAt r c = .ok n := by
  rw [Row.idAt, h]

theorem Row.optionalIdAt_eq {r : Row} {c : Column} {n : Option Int64}
    (h : r c = .ofOptionalId n) : Row.optionalIdAt r c = .ok n := by
  unfold Row.optionalIdAt
  cases n with
  | none => rw [h]; rfl
  | some n =>
      have hn : r c = .integer n := h
      rw [hn]
      dsimp only
      rw [Row.idAt_eq hn]
      rfl

theorem Row.idAt_eq_ok_iff {r : Row} {c : Column} {n : Int64} :
    Row.idAt r c = .ok n ↔ r c = .integer n := by
  refine ⟨fun h => ?_, Row.idAt_eq⟩
  unfold Row.idAt at h
  split at h
  · next hc => rw [hc, Except.ok.inj h]
  · cases h

theorem Row.optionalIdAt_eq_ok_iff {r : Row} {c : Column} {n : Option Int64} :
    Row.optionalIdAt r c = .ok n ↔ r c = .ofOptionalId n := by
  refine ⟨fun h => ?_, Row.optionalIdAt_eq⟩
  unfold Row.optionalIdAt at h
  split at h
  · next hc =>
      cases h
      exact hc
  · obtain ⟨m, hm, rfl⟩ := map_eq_ok_iff.1 h
    exact Row.idAt_eq_ok_iff.1 hm

/-- A column open or equal to a value is one that admits it. -/
theorem Row.openOrEqual_eq {r : Row} {c : Column} {pinned : Option Int64}
    (h : r c = .ofOptionalId pinned) (value : Option Int64) :
    Row.openOrEqual r c value = Rule.columnAdmits pinned value := by
  unfold Row.openOrEqual
  rw [h]
  cases pinned with
  | none => rfl
  | some p =>
      cases value with
      | none => rfl
      | some n =>
          rw [Bool.eq_iff_iff, Option.any_some, Bool.or_eq_true,
            Value.same_integer_iff]
          simp only [Value.ofOptionalId, Rule.columnAdmits, Option.elim,
            beq_iff_eq, Option.some.injEq, reduceCtorEq, false_or]
          exact eq_comm

/-- What a column of a rule asks of an order: nothing where it is null, else
that the order has the number it holds. -/
def Value.Admits (v : Value) (asked : Option Int64) : Prop :=
  v = .null ∨ ∃ n, asked = some n ∧ v.IsNumber n

theorem Row.openOrEqual_iff {r : Row} {c : Column} {value : Option Int64} :
    Row.openOrEqual r c value = true ↔ (r c).Admits value := by
  simp only [Row.openOrEqual, Value.Admits, Bool.or_eq_true, beq_iff_eq,
    Option.any_eq_true, Value.same_integer_iff_isNumber]

/-- The row of a rule that may match the order: every column admits what the
order has. -/
structure Row.MayMatch (r : Row) (ctx : Context) : Prop where
  orderType : (r .orderTypeId).Admits (some ctx.orderType)
  department : (r .departmentId).Admits ctx.department
  otdel : (r .otdelId).Admits ctx.otdel
  branch : (r .branchId).Admits ctx.branch
  office : (r .officeId).Admits ctx.office

/-- The test under which the rules for an order are looked up. -/
def Row.admits (r : Row) (ctx : Context) : Bool :=
  Row.openOrEqual r .orderTypeId (some ctx.orderType)
    && Row.openOrEqual r .departmentId ctx.department
    && Row.openOrEqual r .otdelId ctx.otdel
    && Row.openOrEqual r .branchId ctx.branch
    && Row.openOrEqual r .officeId ctx.office

theorem Store.matchingRules_eq_rulesWhere (s : Store) (ctx : Context) :
    s.matchingRules ctx = s.rulesWhere (Row.admits · ctx) := rfl

theorem Row.admits_iff {r : Row} {ctx : Context} :
    Row.admits r ctx = true ↔ r.MayMatch ctx := by
  simp only [Row.admits, Bool.and_eq_true, Row.openOrEqual_iff]
  constructor
  · rintro ⟨⟨⟨⟨orderType, department⟩, otdel⟩, branch⟩, office⟩
    exact { orderType, department, otdel, branch, office }
  · intro h
    exact ⟨⟨⟨⟨h.orderType, h.department⟩, h.otdel⟩, h.branch⟩, h.office⟩

instance (r : Row) (ctx : Context) : Decidable (r.MayMatch ctx) :=
  decidable_of_iff _ Row.admits_iff

/-- A row admits the orders that its rule matches. -/
theorem Row.RecordsRule.admits_eq {r : Row} {rule : Rule}
    (h : Row.RecordsRule r rule) (ctx : Context) :
    Row.admits r ctx = rule.fits ctx := by
  rw [Row.admits, Row.openOrEqual_eq h.orderType,
    Row.openOrEqual_eq h.department, Row.openOrEqual_eq h.otdel,
    Row.openOrEqual_eq h.branch, Row.openOrEqual_eq h.office, Rule.fits]

namespace PositionType

/-- The name of a kind is read as the kind. -/
theorem parse_name (k : PositionType) : PositionType.parse k.name = .ok k := by
  cases k <;> decide

end PositionType

-- ================================================================== reading

namespace Store

variable {s : Store} {u r : Row} {e : Roster.Entry} {rule : Rule}

/-- The kind of a position is the one its row names. -/
theorem positionKind_eq (hs : s.Sound) (h : s.Records u e) :
    s.positionKind u = e.kind.elim .null fun k => .text k.name := by
  unfold positionKind
  cases hkind : e.kind with
  | none =>
      rw [h.position, h.unplaced hkind]
      rfl
  | some k =>
      obtain ⟨p, hp, hid, htype⟩ := h.placed k hkind
      obtain ⟨n, hn⟩ := (hs.accepts hp).identified rfl
      have hfind := hs.find?_id_eq rfl hp
      rw [← hid, hn]
      rw [hn] at hfind
      dsimp only
      rw [hfind]
      simp [htype]

theorem kindOf_eq (hs : s.Sound) (h : s.Records u e) :
    s.kindOf u = .ok e.kind := by
  unfold kindOf
  rw [positionKind_eq hs h]
  cases e.kind with
  | none => rfl
  | some k =>
      dsimp only [Option.elim]
      rw [PositionType.parse_name]

/-- The row of an employee is read as what it records. -/
theorem actorOf_eq (hs : s.Sound) (h : s.Records u e) :
    s.actorOf u = .ok e.actor := by
  unfold actorOf
  rw [kindOf_eq hs h, Row.idAt_eq h.id, Row.idAt_eq h.department,
    Row.optionalIdAt_eq h.otdel, Row.optionalIdAt_eq h.branch,
    Row.optionalIdAt_eq h.office, Row.optionalIdAt_eq h.position]
  simp only [pure, Except.pure, bind, Except.bind, ← h.isHead]

/-- A unit condition on a row is one on the employee it records. -/
theorem Records.predicateHolds_eq (h : s.Records u e) (p : UnitPredicate) :
    predicateHolds p u = p.holdsFor e.actor := by
  rw [Bool.eq_iff_iff]
  cases p with
  | department n =>
      simp [predicateHolds, UnitPredicate.holdsFor, h.department]
  | otdel n =>
      simp [predicateHolds, UnitPredicate.holdsFor, h.otdel,
        Value.ofOptionalId_eq_integer_iff]
  | branch n =>
      simp [predicateHolds, UnitPredicate.holdsFor, h.branch,
        Value.ofOptionalId_eq_integer_iff]
  | office n =>
      simp [predicateHolds, UnitPredicate.holdsFor, h.office,
        Value.ofOptionalId_eq_integer_iff]

/-- A search is for a row as it is for the registration that the row records.
A row without a position is never found: its kind is null, and null is not the
name of a kind. -/
theorem Records.sought_eq (h : s.Records u e) (hs : s.Sound)
    (q : HierarchyQuery) :
    (s.positionKind u == .text q.kind.name
        && q.predicates.all (predicateHolds · u))
      = e.soughtBy q := by
  simp only [positionKind_eq hs h, h.predicateHolds_eq]
  unfold Roster.Entry.soughtBy
  cases e.kind with
  | none => rfl
  | some k =>
      have hkind : (Value.text k.name == .text q.kind.name)
          = (k == q.kind) := by
        rw [Bool.eq_iff_iff]
        simp only [beq_iff_eq, Value.text.injEq]
        exact ⟨PositionType.name_injective k q.kind,
          congrArg PositionType.name⟩
      simp only [Option.elim, HierarchyQuery.accepts, hkind]

/-- The row of a rule is read as what it records. -/
theorem ruleOf_eq (h : Row.RecordsRule r rule) : ruleOf r = .ok rule := by
  unfold ruleOf
  rw [Row.idAt_eq h.id, Row.optionalIdAt_eq h.orderType,
    Row.optionalIdAt_eq h.department, Row.optionalIdAt_eq h.otdel,
    Row.optionalIdAt_eq h.branch, Row.optionalIdAt_eq h.office,
    Row.idAt_eq h.position, Row.idAt_eq h.status]
  rfl

/-- What the row of a rule is read as, it records. -/
theorem recordsRule_of_ruleOf (h : ruleOf r = .ok rule) :
    Row.RecordsRule r rule := by
  simp only [ruleOf, bind_eq_ok_iff, Row.idAt_eq_ok_iff,
    Row.optionalIdAt_eq_ok_iff] at h
  obtain ⟨id, hid, orderType, horderType, department, hdepartment, otdel,
    hotdel, branch, hbranch, office, hoffice, position, hposition, status,
    hstatus, hrule⟩ := h
  cases hrule
  exact ⟨hid, horderType, hdepartment, hotdel, hbranch, hoffice, hposition,
    hstatus⟩

theorem ruleOf_eq_ok_iff : ruleOf r = .ok rule ↔ Row.RecordsRule r rule :=
  ⟨recordsRule_of_ruleOf, ruleOf_eq⟩

end Store

-- =============================================================== existence

/-- What is referred to has an id. -/
theorem Table.parent_hasId (t : Table) :
    ∀ ref ∈ t.references, ref.parent.hasId = true := by
  cases t <;> decide

namespace Store.Sound

variable {s : Store} {t : Table} {u r : Row}

/-- A column that refers to another table holds an id or null. -/
theorem isOptionalId (h : s.Sound) (hr : r ∈ s.rows t) {c : Column}
    (hc : c ∈ t.references.map (·.column)) : (r c).IsOptionalId := by
  obtain ⟨ref, href, rfl⟩ := List.mem_map.1 hc
  by_cases hnull : r ref.column = .null
  · exact Or.inl hnull
  · obtain ⟨p, hp, hid⟩ := h.exists_parent hr ref href hnull
    obtain ⟨n, hn⟩ := (h.accepts hp).identified (t.parent_hasId ref href)
    exact Or.inr ⟨n, hid ▸ hn⟩

/-- A position has a kind. -/
theorem exists_kind (h : s.Sound) {p : Row} (hp : p ∈ s.rows .positions) :
    ∃ k : PositionType, p .positionType = .text k.name := by
  have hpermits := (h.accepts hp).permitted
  simp only [Table.permits, List.any_eq_true, beq_iff_eq] at hpermits
  obtain ⟨k, -, hk⟩ := hpermits
  exact ⟨k, hk⟩

/-- Every row of an employee records one. -/
theorem exists_entry (h : s.Sound) (hu : u ∈ s.rows .users) :
    ∃ e, s.Records u e ∧ e.active = true := by
  have haccepts := h.accepts hu
  obtain ⟨id, hid⟩ := haccepts.identified rfl
  obtain ⟨department, hdepartment⟩ :=
    (h.isOptionalId (c := .departmentId) hu (by decide)).exists_id
      (haccepts.present .departmentId (by decide))
  obtain ⟨otdel, hotdel⟩ :=
    (h.isOptionalId (c := .otdelId) hu (by decide)).exists_eq
  obtain ⟨branch, hbranch⟩ :=
    (h.isOptionalId (c := .branchId) hu (by decide)).exists_eq
  obtain ⟨office, hoffice⟩ :=
    (h.isOptionalId (c := .officeId) hu (by decide)).exists_eq
  obtain ⟨position, hposition⟩ :=
    (h.isOptionalId (c := .positionId) hu (by decide)).exists_eq
  have hkind : ∃ kind : Option PositionType, (kind = none → position = none)
      ∧ ∀ k, kind = some k →
        ∃ p ∈ s.rows .positions,
          p .id = u .positionId ∧ p .positionType = .text k.name := by
    cases position with
    | none =>
        refine ⟨none, fun _ => rfl, ?_⟩
        intro k hk
        cases hk
    | some n =>
        have hopen : u .positionId ≠ .null := by
          rw [hposition]
          exact Value.noConfusion
        obtain ⟨p, hp, hpid⟩ :=
          h.exists_parent hu ⟨.positionId, .positions, false⟩ (by decide) hopen
        obtain ⟨k, hk⟩ := h.exists_kind hp
        refine ⟨some k, ?_, ?_⟩
        · intro hnone
          cases hnone
        · intro l hl
          cases hl
          exact ⟨p, hp, hpid, hk⟩
  obtain ⟨kind, hunplaced, hplaced⟩ := hkind
  exact ⟨{ actor :=
            { id, department, branch, otdel, office, position,
              isHead := kind.elim false PositionType.isHead }
           kind },
    ⟨hid, hdepartment, hotdel, hbranch, hoffice, hposition, hunplaced,
      hplaced, rfl⟩, rfl⟩

/-- The row of a rule records one, as far as it identifies an order type and a
status. -/
theorem exists_recordsRule (h : s.Sound) (hr : r ∈ s.rows .orderRoutingRules)
    (horderType : (r .orderTypeId).IsOptionalId)
    (hstatus : (r .statusId).IsOptionalId) :
    ∃ rule, Row.RecordsRule r rule := by
  have haccepts := h.accepts hr
  obtain ⟨id, hid⟩ := haccepts.identified rfl
  obtain ⟨orderType, horderType⟩ := horderType.exists_eq
  obtain ⟨department, hdepartment⟩ :=
    (h.isOptionalId (c := .departmentId) hr (by decide)).exists_eq
  obtain ⟨otdel, hotdel⟩ :=
    (h.isOptionalId (c := .otdelId) hr (by decide)).exists_eq
  obtain ⟨branch, hbranch⟩ :=
    (h.isOptionalId (c := .branchId) hr (by decide)).exists_eq
  obtain ⟨office, hoffice⟩ :=
    (h.isOptionalId (c := .officeId) hr (by decide)).exists_eq
  obtain ⟨position, hposition⟩ :=
    (h.isOptionalId (c := .assignToPositionId) hr (by decide)).exists_id
      (haccepts.present .assignToPositionId (by decide))
  obtain ⟨status, hstatus⟩ :=
    hstatus.exists_id (haccepts.present .statusId (by decide))
  exact ⟨
    { id, orderType, department, otdel, branch, office, position, status },
    ⟨hid, horderType, hdepartment, hotdel, hbranch, hoffice, hposition,
      hstatus⟩⟩

/-- Where order types and statuses are identified, every row of a rule records
one. -/
theorem exists_rule (h : s.Sound) (hid : s.Identifies)
    (hr : r ∈ s.rows .orderRoutingRules) : ∃ rule, Row.RecordsRule r rule :=
  h.exists_recordsRule hr (hid r hr).1 (hid r hr).2

end Store.Sound

end WorkRouting
