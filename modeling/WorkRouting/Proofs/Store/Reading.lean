/-
What the reads of a store return, in terms of what its rows record. A read
selects rows by a test on stored values, sorts them and reads each.

In every sound store an employee is found by id, unless the row is retired
(`Sound.activeUser_eq_some_iff`). For the reads under other tests `Recorded`
holds what is needed to say the same of the entries and rules that the rows
stand for: a sound store and, for every row, what it records.

Each read is then a choice among the entries of the active rows
(`activeEntries`), under a test of the entry in place of one of the row. No
read fails, and an answer depends on the recorded content alone:

- the reads of one employee give the one with the lowest id that passes the
  test (`Recorded.activeUser_eq`, `Recorded.searchHierarchy_eq`), because rows
  are sorted by id and no two employees have one;
- the reads of many give all that pass it, each once and in an order of their
  own (`Recorded.positionHolders_eq`, `Recorded.rulesWhere_eq`).
-/
import WorkRouting.Proofs.Routing.Agreement
import WorkRouting.Proofs.Store.Record

namespace WorkRouting

open Roster (Entry)

/-- The order of employees by id. -/
def Actor.idKey (a : Actor) : Key := [a.id.toInt]

theorem Actor.id_eq_of_idKey {a b : Actor} (h : a.idKey = b.idKey) :
    a.id = b.id :=
  Int64.toInt_inj.1 (List.cons.inj h).1

namespace Store

variable {s : Store} {u : Row} {a : Actor} {user : UserId}

-- =========================================================== sorted reading

theorem sortedBy_perm (key : Row → Key) (rows : List Row) :
    (sortedBy key rows).Perm rows :=
  List.mergeSort_perm _ _

theorem pairwise_sortedBy (key : Row → Key) (rows : List Row) :
    (sortedBy key rows).Pairwise fun a b => ¬ key b < key a := by
  have hsorted : (rows.mergeSort fun a b => !decide (key b < key a)).Pairwise
      fun a b => (!decide (key b < key a)) = true := by
    refine List.pairwise_mergeSort (fun a b c hab hbc => ?_)
      (fun a b => ?_) rows
    · simp only [Bool.not_eq_true', decide_eq_false_iff_not] at hab hbc ⊢
      exact List.le_trans hab hbc
    · by_cases hab : key b < key a
      · simp [hab, List.lt_asymm hab]
      · simp [hab]
  simpa [sortedBy] using hsorted

/-- Rows of employees are sorted as the employees are. -/
theorem Records.idKey_eq {e : Entry} (h : s.Records u e) :
    Row.idKey u = e.actor.idKey := by
  rw [Row.idKey, h.id]
  rfl

/-- The active rows under a test, before they are sorted. -/
theorem activeUsers_perm (s : Store) (test : Row → Bool) :
    (s.activeUsers test).Perm
      ((s.rows .users).filter fun u => isActive u && test u) :=
  sortedBy_perm _ _

theorem mem_rows_of_mem_activeUsers {test : Row → Bool}
    (h : u ∈ s.activeUsers test) : u ∈ s.rows .users :=
  List.mem_of_mem_filter ((s.activeUsers_perm test).mem_iff.1 h)

/-- The first of some employees is read as the first of what they record. -/
theorem firstActor_eq {actor : Row → Actor} {rows : List Row}
    (h : ∀ u ∈ rows, s.actorOf u = .ok (actor u)) :
    s.firstActor rows = .ok (rows.map actor).head? := by
  cases rows with
  | nil => rfl
  | cons u rest =>
      rw [firstActor, h u List.mem_cons_self]
      rfl

-- ========================================================== one employee

theorem isActive_eq_true_iff : isActive u = true ↔ u .deletedAt = .null :=
  beq_iff_eq

theorem mem_activeUsers_iff {test : Row → Bool} :
    u ∈ s.activeUsers test
      ↔ u ∈ s.rows .users ∧ u .deletedAt = .null ∧ test u = true := by
  rw [(s.activeUsers_perm test).mem_iff, List.mem_filter, Bool.and_eq_true,
    isActive_eq_true_iff]

/-- The row with this id is not retired and records the employee. -/
def Employs (s : Store) (user : UserId) (a : Actor) : Prop :=
  ∃ u ∈ s.rows .users, u .id = .integer user ∧ u .deletedAt = .null
    ∧ ∃ e, s.Records u e ∧ e.actor = a

/-- There is no row with this id, or a retired one. -/
def Lacks (s : Store) (user : UserId) : Prop :=
  ∀ u ∈ s.rows .users, u .id = .integer user → u .deletedAt ≠ .null

/-- The first row read with an id is the only one with it. -/
theorem Sound.activeUser_eq (h : s.Sound)
    (hu : u ∈ s.activeUsers (· .id == .integer user)) :
    s.activeUser user = (s.actorOf u).map some := by
  obtain ⟨hmem, -, hid⟩ := mem_activeUsers_iff.1 hu
  unfold activeUser
  cases hrows : s.activeUsers (· .id == .integer user) with
  | nil =>
      rw [hrows] at hu
      cases hu
  | cons v rest =>
      have hv : v ∈ s.activeUsers (· .id == .integer user) := by
        rw [hrows]
        exact List.mem_cons_self
      obtain ⟨hmem', -, hid'⟩ := mem_activeUsers_iff.1 hv
      have hsame := (beq_iff_eq.1 hid').trans (beq_iff_eq.1 hid).symm
      rw [firstActor, h.eq_of_id_eq rfl hmem' hmem hsame]

theorem Sound.activeUser_of_employs (h : s.Sound) (ha : s.Employs user a) :
    s.activeUser user = .ok (some a) := by
  obtain ⟨u, hmem, hid, hactive, e, he, rfl⟩ := ha
  have hu : u ∈ s.activeUsers (· .id == .integer user) :=
    mem_activeUsers_iff.2 ⟨hmem, hactive, beq_iff_eq.2 hid⟩
  rw [h.activeUser_eq hu, actorOf_eq h he]
  rfl

theorem activeUser_of_lacks (h : s.Lacks user) :
    s.activeUser user = .ok none := by
  have hnil : s.activeUsers (· .id == .integer user) = [] := by
    rw [List.eq_nil_iff_forall_not_mem]
    intro u hu
    obtain ⟨hmem, hactive, hid⟩ := mem_activeUsers_iff.1 hu
    exact h u hmem (beq_iff_eq.1 hid) hactive
  rw [activeUser, hnil]
  rfl

/-- An id is that of an employee or of nobody. -/
theorem Sound.employs_or_lacks (h : s.Sound) (user : UserId) :
    (∃ a, s.Employs user a) ∨ s.Lacks user := by
  by_cases hrow : ∃ u ∈ s.rows .users,
      u .id = .integer user ∧ u .deletedAt = .null
  · obtain ⟨u, hmem, hid, hactive⟩ := hrow
    obtain ⟨e, he, -⟩ := h.exists_entry hmem
    exact Or.inl ⟨e.actor, u, hmem, hid, hactive, e, he, rfl⟩
  · exact Or.inr fun u hmem hid hactive => hrow ⟨u, hmem, hid, hactive⟩

theorem Employs.not_lacks (h : s.Employs user a) : ¬ s.Lacks user := by
  obtain ⟨u, hmem, hid, hactive, -⟩ := h
  exact fun hlacks => hlacks u hmem hid hactive

/-- An id is that of one employee. -/
theorem Sound.eq_of_employs (h : s.Sound) {b : Actor} (ha : s.Employs user a)
    (hb : s.Employs user b) : a = b := by
  have hread := (h.activeUser_of_employs ha).symm.trans
    (h.activeUser_of_employs hb)
  exact Option.some.inj (Except.ok.inj hread)

/-- Who is found under an id is who has it. -/
theorem Sound.activeUser_eq_some_iff (h : s.Sound) :
    s.activeUser user = .ok (some a) ↔ s.Employs user a := by
  refine ⟨fun hread => ?_, h.activeUser_of_employs⟩
  rcases h.employs_or_lacks user with ⟨b, hb⟩ | hlacks
  · rw [h.activeUser_of_employs hb] at hread
    cases hread
    exact hb
  · rw [activeUser_of_lacks hlacks] at hread
    cases hread

-- ========================================================= recorded content

/-- A sound store together with what its rows record. -/
structure Recorded (s : Store) (entry : Row → Entry) (rule : Row → Rule) :
    Prop where
  sound : s.Sound
  entries : ∀ u ∈ s.rows .users, s.Records u (entry u)
  rules : ∀ r ∈ s.rows .orderRoutingRules, Row.RecordsRule r (rule r)

/-- The entries of the active rows. -/
def activeEntries (s : Store) (entry : Row → Entry) : List Entry :=
  ((s.rows .users).filter isActive).map entry

/-- The active employees whose entries pass a test. -/
def actorsWhere (s : Store) (entry : Row → Entry) (test : Entry → Bool) :
    List Actor :=
  ((s.activeEntries entry).filter test).map (·.actor)

/-- The rules that the rows record. -/
def recordedRules (s : Store) (rule : Row → Rule) : List Rule :=
  (s.rows .orderRoutingRules).map rule

namespace Recorded

variable {entry : Row → Entry} {rule : Row → Rule} {test : Row → Bool}

-- ================================================================ employees

/-- No two active employees have one id. -/
theorem actorsWhere_nodup (h : s.Recorded entry rule) (test' : Entry → Bool) :
    ((s.actorsWhere entry test').map Actor.id).Nodup := by
  have hids : ((s.rows .users).map fun u => (entry u).actor.id).Nodup :=
    h.sound.nodup_of_id_eq rfl fun u hu => (h.entries u hu).id
  have hactive : ((s.activeEntries entry).map fun e => e.actor.id).Nodup := by
    rw [activeEntries, List.map_map]
    exact hids.sublist (List.filter_sublist.map _)
  rw [actorsWhere, List.map_map]
  exact hactive.sublist (List.filter_sublist.map _)

/-- Rows read under a test record the active employees under that test. -/
theorem actors_perm {test' : Entry → Bool}
    (htest : ∀ u ∈ s.rows .users, test u = test' (entry u)) :
    (s.actorsWhere entry test').Perm
      ((s.activeUsers test).map fun u => (entry u).actor) := by
  have hrows : (s.rows .users).filter (fun u => isActive u && test u)
      = ((s.rows .users).filter isActive).filter (test' ∘ entry) := by
    rw [List.filter_filter]
    refine List.filter_congr fun u hu => ?_
    rw [htest u hu, Bool.and_comm]
    rfl
  have hentries : s.actorsWhere entry test'
      = (((s.rows .users).filter isActive).filter (test' ∘ entry)).map
          fun u => (entry u).actor := by
    rw [actorsWhere, activeEntries, List.filter_map, List.map_map]
    rfl
  rw [hentries, ← hrows]
  exact (s.activeUsers_perm test).symm.map _

/-- Employees are read in the order of their ids. -/
theorem pairwise_actors (h : s.Recorded entry rule) (test : Row → Bool) :
    ((s.activeUsers test).map fun u => (entry u).actor).Pairwise
      fun a b => ¬ b.idKey < a.idKey := by
  have hkey : ∀ u ∈ s.activeUsers test,
      Row.idKey u = (entry u).actor.idKey :=
    fun u hu => (h.entries u (mem_rows_of_mem_activeUsers hu)).idKey_eq
  rw [List.pairwise_map]
  refine (pairwise_sortedBy _ _).imp_of_mem fun {u v} hu hv huv => ?_
  rw [hkey u hu, hkey v hv] at huv
  exact huv

theorem actorOf_of_mem (h : s.Recorded entry rule) {u : Row}
    (hu : u ∈ s.activeUsers test) : s.actorOf u = .ok (entry u).actor :=
  actorOf_eq h.sound (h.entries u (mem_rows_of_mem_activeUsers hu))

/-- The first of the rows read records the employee with the lowest id. -/
theorem firstActor_eq_least (h : s.Recorded entry rule)
    (test' : Entry → Bool)
    (htest : ∀ u ∈ s.rows .users, test u = test' (entry u)) :
    s.firstActor (s.activeUsers test)
      = .ok (least Actor.idKey (s.actorsWhere entry test')) := by
  have hsame : SameUpToOrder Actor.id (s.actorsWhere entry test')
      ((s.activeUsers test).map fun u => (entry u).actor) :=
    ⟨actors_perm htest, h.actorsWhere_nodup test'⟩
  rw [firstActor_eq fun u hu => h.actorOf_of_mem hu,
    ← least_eq_head? (h.pairwise_actors test),
    hsame.least_eq fun _ _ => Actor.id_eq_of_idKey]

theorem activeUser_eq (h : s.Recorded entry rule) (user : UserId) :
    s.activeUser user
      = .ok (least Actor.idKey
          (s.actorsWhere entry (·.actor.id == user))) := by
  refine h.firstActor_eq_least _ fun u hu => ?_
  rw [(h.entries u hu).id, Bool.eq_iff_iff]
  simp

theorem searchHierarchy_eq (h : s.Recorded entry rule) (q : HierarchyQuery) :
    s.searchHierarchy q
      = .ok (least Actor.idKey (s.actorsWhere entry (·.soughtBy q))) :=
  h.firstActor_eq_least _ fun u hu => (h.entries u hu).sought_eq h.sound q

theorem positionHolders_eq (h : s.Recorded entry rule) (p : PositionId) :
    ∃ holders, s.positionHolders p = .ok holders
      ∧ (s.actorsWhere entry (·.actor.position == some p)).Perm holders := by
  refine ⟨_, mapM_eq_ok fun u hu => h.actorOf_of_mem hu,
    actors_perm fun u hu => ?_⟩
  rw [(h.entries u hu).position, Bool.eq_iff_iff]
  simp [Value.ofOptionalId_eq_integer_iff]

-- ==================================================================== rules

/-- No two rules have one id. -/
theorem recordedRules_nodup (h : s.Recorded entry rule) :
    ((s.recordedRules rule).map Rule.id).Nodup := by
  rw [recordedRules, List.map_map]
  exact h.sound.nodup_of_id_eq rfl fun r hr => (h.rules r hr).id

/-- Rows of rules read under a test record the rules under that test. -/
theorem rulesWhere_eq (h : s.Recorded entry rule) (test' : Rule → Bool)
    (htest : ∀ r ∈ s.rows .orderRoutingRules, test r = test' (rule r)) :
    ∃ rules, s.rulesWhere test = .ok rules
      ∧ ((s.recordedRules rule).filter test').Perm rules := by
  have hread := sortedBy_perm rulePrecedence
    ((s.rows .orderRoutingRules).filter test)
  have hfilter : (s.recordedRules rule).filter test'
      = ((s.rows .orderRoutingRules).filter test).map rule := by
    rw [recordedRules, List.filter_map]
    exact congrArg (List.map rule) (List.filter_congr htest).symm
  refine ⟨_, mapM_eq_ok fun r hr => ruleOf_eq (h.rules r ?_), ?_⟩
  · exact List.mem_of_mem_filter (hread.mem_iff.1 hr)
  · rw [hfilter]
    exact hread.symm.map rule

theorem matchingRules_eq (h : s.Recorded entry rule) (ctx : Context) :
    ∃ rules, s.matchingRules ctx = .ok rules
      ∧ ((s.recordedRules rule).filter (·.fits ctx)).Perm rules :=
  h.rulesWhere_eq _ fun r hr => (h.rules r hr).admits_eq ctx

theorem rulesForOrderType_eq (h : s.Recorded entry rule) (t : OrderTypeId) :
    ∃ rules, s.rulesForOrderType t = .ok rules
      ∧ ((s.recordedRules rule).filter (·.orderType == some t)).Perm
          rules := by
  refine h.rulesWhere_eq _ fun r hr => ?_
  rw [(h.rules r hr).orderType, Bool.eq_iff_iff]
  simp [Value.same_integer_iff]

end Recorded

-- ================================================================ existence

/-- Every sound store that identifies the order types and statuses of its rules
records something in every row. -/
theorem Sound.exists_recorded (h : s.Sound) (hid : s.Identifies) :
    ∃ entry rule, s.Recorded entry rule
      ∧ ∀ u ∈ s.rows .users, (entry u).active = true := by
  have hentry : ∀ u, ∃ e,
      u ∈ s.rows .users → s.Records u e ∧ e.active = true := by
    intro u
    by_cases hu : u ∈ s.rows .users
    · obtain ⟨e, he⟩ := h.exists_entry hu
      exact ⟨e, fun _ => he⟩
    · exact ⟨{ actor := { id := 0, department := 0 } },
        fun hu' => absurd hu' hu⟩
  have hrule : ∀ r, ∃ rule,
      r ∈ s.rows .orderRoutingRules → Row.RecordsRule r rule := by
    intro r
    by_cases hr : r ∈ s.rows .orderRoutingRules
    · obtain ⟨rule, hrule⟩ := h.exists_rule hid hr
      exact ⟨rule, fun _ => hrule⟩
    · exact ⟨{ id := 0, position := 0, status := 0 }, fun hr' => absurd hr' hr⟩
  choose entry hentry using hentry
  choose rule hrule using hrule
  exact ⟨entry, rule, ⟨h, fun u hu => (hentry u hu).1, hrule⟩,
    fun u hu => (hentry u hu).2⟩

end Store

end WorkRouting
