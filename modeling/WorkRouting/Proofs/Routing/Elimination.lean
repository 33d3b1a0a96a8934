/-
The choice of a rule and the choice of a holder, column by column. Both are one
least element under a key (`least`); told as a procedure, they are a series of
eliminations. Columns are taken one after the other, and each keeps the
candidates that are better in it if there are any, and otherwise all; what is
left at the end is settled by the lowest id.

The bridge is one step: a key that begins with a test chooses like its rest
among the candidates that the test favours (`least_cons_test`). With one step
for each column the whole key is an elimination (`least_testKey`), and rule and
holder differ only in their columns and in who is a candidate at all.

The procedures are written down beside the choices and share nothing with them:
`Rule.eliminate` and `Rule.narrowHolders` speak of columns and units, and never
compare keys.
-/
import WorkRouting.Proofs.Routing.Decision

namespace WorkRouting

variable {α : Type _}

-- =========================================================== elimination

/-- The elements that pass a test, if any does; otherwise all. -/
def favouring (p : α → Bool) (l : List α) : List α :=
  if l.any p then l.filter p else l

/-- The elements left when the tests were taken one after the other. -/
def remaining (tests : List (α → Bool)) (l : List α) : List α :=
  tests.foldl (fun l p => favouring p l) l

/-- The first element with the lowest id. -/
def lowest (id : α → Int64) (l : List α) : Option α :=
  l.find? fun a => l.all fun b => decide (id a ≤ id b)

/-- The key of a series of tests, with an id at its end. -/
def testKey (tests : List (α → Bool)) (id : α → Int64) (a : α) : Key :=
  tests.map (fun p => Key.preferring (p a)) ++ [(id a).toInt]

-- ============================================================== one test

theorem preferring_cons_lt {p q : Bool} {k k' : Key} :
    Key.preferring p :: k < Key.preferring q :: k'
      ↔ (p = true ∧ q = false) ∨ (p = q ∧ k < k') := by
  rw [List.cons_lt_cons_iff]
  cases p <;> cases q <;> simp [Key.preferring]

/-- A test in front of a key decides as far as somebody passes it; among those
who are left the rest of the key decides. -/
theorem least_cons_test (p : α → Bool) (key : α → Key) (l : List α) :
    least (fun a => Key.preferring (p a) :: key a) l
      = least key (favouring p l) := by
  -- among elements alike in the test the rest of the key is what compares
  have hrest : ∀ l' : List α, (∀ a ∈ l', ∀ b ∈ l', p a = p b) →
      least (fun a => Key.preferring (p a) :: key a) l' = least key l' := by
    intro l' halike
    refine least_congr fun a ha b hb => ?_
    rw [preferring_cons_lt, halike a ha b hb]
    simp
  unfold favouring
  split
  · next hany =>
    obtain ⟨c, hc, hpc⟩ := List.any_eq_true.1 hany
    have hpick : ∀ a,
        least (fun a => Key.preferring (p a) :: key a) l = some a →
          p a = true := by
      intro a ha
      have hle := (firstLeast_of_least ha).not_lt c hc
      rw [preferring_cons_lt, hpc] at hle
      simp only [true_and, not_or, Bool.not_eq_false] at hle
      exact hle.1
    rw [← least_filter hpick]
    refine hrest _ fun a ha b hb => ?_
    rw [(List.mem_filter.1 ha).2, (List.mem_filter.1 hb).2]
  · next hnone =>
    simp only [List.any_eq_true, not_exists, not_and,
      Bool.not_eq_true] at hnone
    refine hrest l fun a ha b hb => ?_
    rw [hnone a ha, hnone b hb]

-- ============================================================= all tests

theorem least_id (id : α → Int64) (l : List α) :
    least (fun a => [(id a).toInt]) l = lowest id l := by
  have hlt : ∀ a b, [(id a).toInt] < [(id b).toInt] ↔ id a < id b := by
    intro a b
    rw [List.cons_lt_cons_iff, Int64.lt_iff_toInt_lt]
    simp
  refine Option.ext fun a => ?_
  unfold lowest
  rw [least_eq_some_iff, List.find?_eq_some_iff_append]
  simp only [List.all_eq_true, decide_eq_true_eq]
  constructor
  · intro h
    have hleast : ∀ b ∈ l, id a ≤ id b := fun b hb =>
      Int64.not_lt.1 (mt (hlt b a).2 (h.not_lt b hb))
    obtain ⟨before, after, rfl, hbefore, -⟩ := h
    refine ⟨hleast, before, after, rfl, fun b hb => ?_⟩
    rw [Bool.not_eq_true', List.all_eq_false]
    refine ⟨a, by simp, ?_⟩
    rw [decide_eq_true_eq, Int64.not_le]
    exact (hlt a b).1 (hbefore b hb)
  · rintro ⟨hleast, before, after, rfl, hbefore⟩
    refine ⟨before, after, rfl, fun b hb => ?_, fun b hb => ?_⟩
    · have hb' := hbefore b hb
      rw [Bool.not_eq_true', List.all_eq_false] at hb'
      obtain ⟨c, hc, hbc⟩ := hb'
      rw [decide_eq_true_eq, Int64.not_le] at hbc
      exact (hlt a b).2 (Int64.lt_of_le_of_lt (hleast c hc) hbc)
    · rw [hlt, Int64.not_lt]
      exact hleast b (by simp [hb])

/-- The least under a series of tests is the lowest id among those
remaining. -/
theorem least_testKey (tests : List (α → Bool)) (id : α → Int64)
    (l : List α) :
    least (testKey tests id) l = lowest id (remaining tests l) := by
  induction tests generalizing l with
  | nil => exact least_id id l
  | cons p tests ih =>
      have hkey : testKey (p :: tests) id
          = fun a => Key.preferring (p a) :: testKey tests id a := rfl
      rw [hkey, least_cons_test, ih]
      rfl

/-- Who passes every test that another one passes, and a further one, comes
first. -/
theorem testKey_lt {tests : List (α → Bool)} {id : α → Int64} {a b : α}
    (hall : ∀ p ∈ tests, p a = true → p b = true)
    (hmore : ∃ p ∈ tests, p b = true ∧ p a = false) :
    testKey tests id b < testKey tests id a := by
  induction tests with
  | nil =>
      obtain ⟨p, hp, -⟩ := hmore
      cases hp
  | cons p tests ih =>
      refine preferring_cons_lt.2 ?_
      by_cases hfirst : p b = true ∧ p a = false
      · exact Or.inl hfirst
      · have hp := hall p List.mem_cons_self
        obtain ⟨q, hq, hq'⟩ := hmore
        have hqtests : q ∈ tests := by
          rcases List.mem_cons.1 hq with rfl | hq
          · exact absurd hq' hfirst
          · exact hq
        refine Or.inr ⟨Bool.eq_iff_iff.2 ⟨fun hb => ?_, hp⟩,
          ih (fun r hr => hall r (List.mem_cons_of_mem p hr))
            ⟨q, hqtests, hq'⟩⟩
        exact Decidable.byContradiction fun ha =>
          hfirst ⟨hb, eq_false_of_ne_true ha⟩

-- ================================================================== rules

/-- A column in which a rule may pin a value. -/
inductive RuleColumn where
  | orderType | otdel | office | department | branch
  deriving DecidableEq, Repr

namespace RuleColumn

/-- The columns in the order in which they decide. -/
def all : List RuleColumn := [orderType, otdel, office, department, branch]

/-- The value that the rule pins. -/
def pinned (r : Rule) : RuleColumn → Option Int64
  | orderType => r.orderType
  | otdel => r.otdel
  | office => r.office
  | department => r.department
  | branch => r.branch

/-- The value that the order has. -/
def ordered (ctx : Context) : RuleColumn → Option Int64
  | orderType => some ctx.orderType
  | otdel => ctx.otdel
  | office => ctx.office
  | department => ctx.department
  | branch => ctx.branch

def pins (c : RuleColumn) (r : Rule) : Bool := (c.pinned r).isSome

theorem mem_all (c : RuleColumn) : c ∈ all := by cases c <;> decide

end RuleColumn

namespace Rule

variable {r r' : Rule} {ctx : Context}

/-- The order has every value that the rule pins. -/
def agreesWith (ctx : Context) (r : Rule) : Bool :=
  RuleColumn.all.all fun c =>
    (c.pinned r).all fun v => c.ordered ctx == some v

/-- One rule pins all columns that another one pins, and a further one. -/
def PinsMore (r' r : Rule) : Prop :=
  (∀ c : RuleColumn, c.pins r = true → c.pins r' = true)
    ∧ ∃ c : RuleColumn, c.pins r' = true ∧ c.pins r = false

/-- The rule for an order by elimination: of the rules that agree with it, each
column keeps those that pin it, if there are any; the lowest id settles what
is left. -/
def eliminate (rules : List Rule) (ctx : Context) : Option Rule :=
  lowest Rule.id
    (remaining (RuleColumn.all.map RuleColumn.pins)
      (rules.filter (agreesWith ctx)))

theorem columnAdmits_eq_all (pinned value : Option Int64) :
    columnAdmits pinned value = pinned.all fun v => value == some v := by
  cases pinned <;> rfl

/-- To match an order is to agree with it. -/
theorem fits_eq_agreesWith (r : Rule) (ctx : Context) :
    r.fits ctx = r.agreesWith ctx := by
  rw [Bool.eq_iff_iff]
  simp only [fits, columnAdmits_eq_all, agreesWith, RuleColumn.all,
    List.all_cons, List.all_nil, RuleColumn.pinned, RuleColumn.ordered,
    Bool.and_eq_true, Bool.and_true]
  constructor
  · rintro ⟨⟨⟨⟨htype, hdepartment⟩, hotdel⟩, hbranch⟩, hoffice⟩
    exact ⟨htype, hotdel, hoffice, hdepartment, hbranch⟩
  · rintro ⟨htype, hotdel, hoffice, hdepartment, hbranch⟩
    exact ⟨⟨⟨⟨htype, hdepartment⟩, hotdel⟩, hbranch⟩, hoffice⟩

theorem precedence_eq_testKey :
    precedence = testKey (RuleColumn.all.map RuleColumn.pins) Rule.id := rfl

/-- Pinning more is being preferred. -/
theorem PinsMore.precedence_lt (h : r'.PinsMore r) :
    r'.precedence < r.precedence := by
  obtain ⟨hall, c, hmore⟩ := h
  refine testKey_lt (fun p hp => ?_)
    ⟨c.pins, List.mem_map_of_mem c.mem_all, hmore⟩
  obtain ⟨c', -, rfl⟩ := List.mem_map.1 hp
  exact hall c'

/-- The rule that is selected for an order is the one that the elimination
leaves, and there is none exactly if no rule agrees with the order. No rule is
selected over another that agrees with the order too, pins every column that it
pins, and a further one. -/
theorem select_eq_eliminate (rules : List Rule) (ctx : Context) :
    select rules ctx = eliminate rules ctx
      ∧ (select rules ctx = none
          ↔ ∀ r ∈ rules, r.agreesWith ctx = false)
      ∧ ∀ r, select rules ctx = some r →
          ∀ r' ∈ rules, r'.agreesWith ctx = true → ¬ r'.PinsMore r := by
  refine ⟨?_, ?_, fun r hr r' hr' hagrees hmore => ?_⟩
  · unfold select eliminate
    rw [precedence_eq_testKey, least_testKey]
    simp only [fits_eq_agreesWith]
  · rw [select_eq_none_iff]
    simp only [fits_eq_agreesWith]
  · have hmem : r' ∈ rules.filter (·.fits ctx) :=
      List.mem_filter.2 ⟨hr', (fits_eq_agreesWith r' ctx).trans hagrees⟩
    exact (select_eq_some_iff.1 hr).not_lt r' hmem hmore.precedence_lt

/-- Three rules for one order. The first pins three columns but leaves the type
open; the other two pin the type, and of these the last pins the otdel too. -/
def rivals : List Rule :=
  [{ id := 1, otdel := some 100, office := some 7, department := some 10,
      position := 22, status := 1 },
    { id := 2, orderType := some 3, position := 22, status := 2 },
    { id := 9, orderType := some 3, otdel := some 100, position := 22,
      status := 3 }]

/-- The last is selected: the type outweighs the number of columns, and the
otdel the lower id. The second does not pin more than it. -/
theorem rivals_selected :
    (select rivals
        { orderType := 3, department := some 10, otdel := some 100,
          office := some 7 }).map Rule.id = some 9
      ∧ ¬ rivals[1].PinsMore rivals[2] := by
  obtain ⟨heq, -, hmore⟩ := select_eq_eliminate rivals
    { orderType := 3, department := some 10, otdel := some 100,
      office := some 7 }
  have hselect : eliminate rivals
      { orderType := 3, department := some 10, otdel := some 100,
        office := some 7 } = some rivals[2] := by
    decide
  rw [← heq] at hselect
  exact ⟨congrArg (Option.map Rule.id) hselect,
    hmore _ hselect _ (by decide) (by decide)⟩

end Rule

-- ================================================================ holders

namespace OrgLevel

/-- The unit that the rule pins at the level. -/
def pinned (r : Rule) : OrgLevel → Option Int64
  | department => r.department
  | otdel => r.otdel
  | branch => r.branch
  | office => r.office

/-- The unit of the order at the level. -/
def ordered (ctx : Context) : OrgLevel → Option Int64
  | department => ctx.department
  | otdel => ctx.otdel
  | branch => ctx.branch
  | office => ctx.office

/-- The unit of the holder at the level. -/
def held (holder : Actor) : OrgLevel → Option Int64
  | department => some holder.department
  | otdel => holder.otdel
  | branch => holder.branch
  | office => holder.office

/-- The levels in the order in which holders are compared. -/
def byPreference : List OrgLevel := [department, branch, otdel, office]

/-- The holders in the order's own unit, if the order has one at this level and
some holder is in it; otherwise all. -/
def narrowed (ctx : Context) (holders : List Actor) (l : OrgLevel) :
    List Actor :=
  match l.ordered ctx with
  | none => holders
  | some unit => favouring (fun h => l.held h == some unit) holders

end OrgLevel

namespace Rule

variable {r : Rule} {ctx : Context} {holders : List Actor} {a : Actor}

/-- The holder is in the department that the rule pins, if it pins one, and at
every other level that it pins without a unit or in the one pinned. Levels left
open by the rule exclude nobody. -/
def eligible (r : Rule) (holder : Actor) : Bool :=
  (r.department.all fun d => holder.department == d)
    && [OrgLevel.otdel, .branch, .office].all fun l =>
      (l.held holder).all fun unit => (l.pinned r).all fun pin => unit == pin

/-- The holder that a rule leads to by narrowing: of the eligible holders, each
level keeps those in the order's own unit, if there are any; the lowest id
settles what is left. -/
def narrowHolders (r : Rule) (ctx : Context) (holders : List Actor) :
    Option Actor :=
  lowest Actor.id
    (OrgLevel.byPreference.foldl (OrgLevel.narrowed ctx)
      (holders.filter r.eligible))

theorem unitAdmits_eq_all (pinned held : Option Int64) :
    unitAdmits pinned held
      = held.all fun unit => pinned.all fun pin => unit == pin := by
  cases pinned with
  | none => cases held <;> rfl
  | some p =>
      cases held with
      | none => rfl
      | some h => exact Bool.beq_comm

/-- Whom the rule admits is who is eligible. -/
theorem admits_eq_eligible (r : Rule) (holder : Actor) :
    r.admits holder = r.eligible holder := by
  have hdepartment : columnAdmits r.department (some holder.department)
      = r.department.all fun d => holder.department == d := by
    cases r.department <;> rfl
  simp only [admits, hdepartment, unitAdmits_eq_all, eligible, List.all_cons,
    List.all_nil, OrgLevel.held, OrgLevel.pinned, Bool.and_true,
    Bool.and_assoc]

/-- An eligible holder is in no other unit than the one pinned. -/
theorem eq_of_eligible (h : r.eligible a = true) {l : OrgLevel}
    {pin unit : Int64} (hpin : l.pinned r = some pin)
    (hheld : l.held a = some unit) : unit = pin := by
  simp only [eligible, Bool.and_eq_true, List.all_eq_true, Option.all_eq_true,
    beq_iff_eq] at h
  obtain ⟨hdepartment, hunits⟩ := h
  cases l with
  | department =>
      cases hheld
      exact hdepartment pin hpin
  | otdel => exact hunits .otdel (by decide) unit hheld pin hpin
  | branch => exact hunits .branch (by decide) unit hheld pin hpin
  | office => exact hunits .office (by decide) unit hheld pin hpin

/-- Narrowing at a level is favouring those inside the order's unit. -/
theorem narrowed_eq_favouring (ctx : Context) (holders : List Actor)
    (l : OrgLevel) :
    l.narrowed ctx holders
      = favouring (fun h => insideUnit (l.ordered ctx) (l.held h))
          holders := by
  unfold OrgLevel.narrowed
  cases l.ordered ctx with
  | none => simp [favouring, insideUnit]
  | some unit =>
      have htest : (fun h => insideUnit (some unit) (l.held h))
          = fun h => l.held h == some unit := by
        funext h
        exact Bool.beq_comm
      rw [htest]

theorem holderRank_eq_testKey (ctx : Context) :
    ctx.holderRank
      = testKey (OrgLevel.byPreference.map fun l h =>
          insideUnit (l.ordered ctx) (l.held h)) Actor.id := rfl

/-- The holder that is selected is the one that the narrowing leaves, whether
or not the rule matches the order, and there is none exactly if no holder is
eligible. Nobody is selected who is in another unit than a pinned one. -/
theorem selectHolder_eq_narrowHolders (r : Rule) (ctx : Context)
    (holders : List Actor) :
    r.selectHolder ctx holders = r.narrowHolders ctx holders
      ∧ (r.selectHolder ctx holders = none
          ↔ ∀ h ∈ holders, r.eligible h = false)
      ∧ ∀ a, r.selectHolder ctx holders = some a →
          ∀ (l : OrgLevel) (pin unit : Int64),
            l.pinned r = some pin → l.held a = some unit → unit = pin := by
  refine ⟨?_, ?_, fun a ha l pin unit hpin hheld => ?_⟩
  · unfold selectHolder narrowHolders
    rw [holderRank_eq_testKey, least_testKey, remaining, List.foldl_map]
    simp only [← narrowed_eq_favouring, funext (admits_eq_eligible r)]
  · rw [selectHolder_eq_none_iff]
    simp only [admits_eq_eligible]
  · have hmem := (selectHolder_eq_some_iff.1 ha).mem
    have heligible := (List.mem_filter.1 hmem).2
    rw [admits_eq_eligible] at heligible
    exact eq_of_eligible heligible hpin hheld

/-- A rule for one otdel, and holders of its position: the lowest id is in
another otdel, the highest serves the whole organization. -/
def deskRule : Rule :=
  { id := 1, otdel := some 100, position := 22, status := 1 }

def deskHolders : List Actor :=
  [{ id := 3, department := 10, otdel := some 200 },
    { id := 8, department := 20 },
    { id := 5, department := 20, otdel := some 100 }]

/-- For an order of department 10 the one in the rule's otdel is selected: the
holder in department 10 is not eligible, so the department decides nothing. -/
theorem desk_selected :
    (deskRule.selectHolder { orderType := 3, department := some 10 }
        deskHolders).map Actor.id = some 5
      ∧ ∀ unit, deskHolders[2].otdel = some unit → unit = 100 := by
  obtain ⟨heq, -, hpinned⟩ := selectHolder_eq_narrowHolders deskRule
    { orderType := 3, department := some 10 } deskHolders
  have hselect : deskRule.narrowHolders
      { orderType := 3, department := some 10 } deskHolders
        = some deskHolders[2] := by
    decide
  rw [← heq] at hselect
  exact ⟨congrArg (Option.map Actor.id) hselect,
    fun unit => hpinned _ hselect .otdel 100 unit rfl⟩

end Rule

end WorkRouting
