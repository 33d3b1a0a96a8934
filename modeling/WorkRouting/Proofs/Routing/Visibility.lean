/-
Who can be seen by routing. A directory shows an employee in four ways: a
lookup by id, the holders of a position, the head found by a search, and the
executor of a decision. `Directory.Shows` collects them, and `Shows.of_lookups`
leaves three: a decision names nobody whom a lookup did not return.

Being inactive is recorded differently on the two sides, so the argument is
made twice. A roster is judged by its history: an employee stands
(`Roster.Stands`) when a call registered the employee and no later call retired
the id. A later registration does not bring an earlier one back, and a
retirement reaches all registrations before it, so the position of the calls is
what counts. A store is judged by its rows: an employee serves (`Store.Serves`)
when the row read is there and no row with the id is retired. Ids occur once,
so the row that was read is the only one to look at.
-/
import WorkRouting.Proofs.Routing.Decision
import WorkRouting.Proofs.Store.Mirror

namespace WorkRouting

open Roster (Call Entry run survivors)

-- ===================================================================== shown

/-- An employee that a lookup returns or a decision names. -/
inductive Directory.Shows (d : Directory) : Actor → Prop
  | user {user : UserId} {a : Actor} :
      d.findActiveUser user = .ok (some a) → Shows d a
  | holder {p : PositionId} {holders : List Actor} {a : Actor} :
      d.positionHolders p = .ok holders → a ∈ holders → Shows d a
  | head {q : HierarchyQuery} {a : Actor} :
      d.findByHierarchy q = .ok (some a) → Shows d a
  | executor {ctx : Context} {explicit : Option UserId} {r : Resolution} :
      (d.resolve ctx explicit).answer = .ok r → Shows d r.executor

/-- What holds of everybody that the lookups return holds of everybody shown:
each step of a decision takes its executor from a lookup. -/
theorem Directory.Shows.of_lookups {d : Directory} {P : Actor → Prop}
    (huser : ∀ user a, d.findActiveUser user = .ok (some a) → P a)
    (hholder : ∀ p holders, d.positionHolders p = .ok holders →
      ∀ a ∈ holders, P a)
    (hhead : ∀ q a, d.findByHierarchy q = .ok (some a) → P a)
    {a : Actor} (h : d.Shows a) : P a := by
  cases h with
  | user hread => exact huser _ _ hread
  | holder hread ha => exact hholder _ _ hread _ ha
  | head hread => exact hhead _ _ hread
  | executor hanswer =>
      cases Directory.decides_of_answer_eq_ok hanswer with
      | named hread => exact huser _ _ hread
      | held _ _ hread hprefers =>
          exact hholder _ _ hread _ (List.mem_filter.1 hprefers.mem).1
      | headed _ _ _ hread => exact hhead _ _ hread

-- ================================================================== a roster

namespace Roster

variable {r : Roster} {calls : List Call} {a : Actor} {user : UserId}

/-- A call registers the employee and no later call retires the id. -/
def Stands (calls : List Call) (a : Actor) : Prop :=
  ∃ before kind rest, calls = before ++ .register a kind :: rest
    ∧ .deactivate a.id ∉ rest

theorem Stands.cons {call : Call} (h : Stands calls a) :
    Stands (call :: calls) a := by
  obtain ⟨before, kind, rest, rfl, hrest⟩ := h
  exact ⟨call :: before, kind, rest, rfl, hrest⟩

/-- Who stands after a first call stood before or was registered by it. -/
theorem stands_cons_iff {call : Call} :
    Stands (call :: calls) a
      ↔ ((∃ kind, call = .register a kind) ∧ .deactivate a.id ∉ calls)
        ∨ Stands calls a := by
  constructor
  · rintro ⟨before, kind, rest, heq, hrest⟩
    cases before with
    | nil =>
        obtain ⟨rfl, rfl⟩ := List.cons.inj heq
        exact Or.inl ⟨⟨kind, rfl⟩, hrest⟩
    | cons first before =>
        obtain ⟨rfl, rfl⟩ := List.cons.inj heq
        exact Or.inr ⟨before, kind, rest, rfl, hrest⟩
  · rintro (⟨⟨kind, rfl⟩, hcalls⟩ | h)
    · exact ⟨[], kind, calls, rfl, hcalls⟩
    · exact h.cons

/-- The survivors of the calls are the employees who stand. -/
theorem exists_survivor_iff :
    (∃ e ∈ survivors calls, e.actor = a) ↔ Stands calls a := by
  induction calls with
  | nil => simp [survivors, Stands]
  | cons call rest ih =>
      rw [stands_cons_iff, ← ih]
      cases call with
      | register actor kind =>
          rw [survivors]
          by_cases hretired : .deactivate actor.id ∈ rest
          · rw [if_pos hretired]
            refine ⟨Or.inr, ?_⟩
            rintro (⟨⟨_, heq⟩, hnot⟩ | h)
            · cases heq
              exact absurd hretired hnot
            · exact h
          · rw [if_neg hretired]
            simp only [List.mem_cons, exists_eq_or_imp, Call.register.injEq]
            refine or_congr_left ⟨?_, ?_⟩
            · rintro rfl
              exact ⟨⟨kind, rfl, rfl⟩, hretired⟩
            · rintro ⟨⟨_, rfl, -⟩, -⟩
              rfl
      | addRule rule => simp [survivors]
      | deactivate user => simp [survivors]

theorem exists_mem_active_of_mem_activeWhere {test : Entry → Bool}
    (h : a ∈ r.activeWhere test) : ∃ e ∈ r.active, e.actor = a := by
  obtain ⟨e, he, rfl⟩ := List.mem_map.1 h
  exact ⟨e, (List.mem_filter.1 he).1, rfl⟩

/-- The lookups of a roster read its active entries and no others. -/
theorem exists_mem_active_of_shows (h : r.directory.Shows a) :
    ∃ e ∈ r.active, e.actor = a := by
  refine h.of_lookups (P := fun a => ∃ e ∈ r.active, e.actor = a) ?_ ?_ ?_
  · intro user a hread
    have hhead := Except.ok.inj hread
    exact exists_mem_active_of_mem_activeWhere (List.mem_of_mem_head? hhead)
  · intro p holders hread a ha
    cases hread
    exact exists_mem_active_of_mem_activeWhere (List.mem_mergeSort.1 ha)
  · intro q a hread
    have hleast := firstLeast_of_least (Except.ok.inj hread)
    exact exists_mem_active_of_mem_activeWhere hleast.mem

/-- Whom a roster shows stands by its history. -/
theorem stands_of_shows (h : (run calls).directory.Shows a) :
    Stands calls a := by
  have hactive := exists_mem_active_of_shows h
  rw [active_run] at hactive
  exact exists_survivor_iff.1 hactive

/-- An id is found as soon as one registration of it stands. -/
theorem exists_findActiveUser_iff :
    (∃ a, (run calls).directory.findActiveUser user = .ok (some a))
      ↔ ∃ a, a.id = user ∧ Stands calls a := by
  constructor
  · rintro ⟨a, hread⟩
    have hmem := List.mem_of_mem_head? (Except.ok.inj hread)
    obtain ⟨e, he, rfl⟩ := List.mem_map.1 hmem
    refine ⟨e.actor, by simpa using (List.mem_filter.1 he).2, ?_⟩
    exact stands_of_shows (.user hread)
  · rintro ⟨a, rfl, hstands⟩
    obtain ⟨e, he, rfl⟩ := exists_survivor_iff.2 hstands
    rw [← active_run] at he
    have hmem : e.actor ∈ (run calls).activeWhere
        (·.actor.id == e.actor.id) :=
      List.mem_map.2 ⟨e, List.mem_filter.2 ⟨he, by simp⟩, rfl⟩
    cases hhead : ((run calls).activeWhere
        (·.actor.id == e.actor.id)).head? with
    | none =>
        rw [List.head?_eq_none_iff.1 hhead] at hmem
        cases hmem
    | some b => exact ⟨b, congrArg Except.ok hhead⟩

end Roster

-- =================================================================== a store

namespace Store

variable {s : Store} {u : Row} {a : Actor} {user : UserId}

/-- The employee is read from a row, and no row with the id is retired. -/
def Serves (s : Store) (a : Actor) : Prop :=
  (∃ u ∈ s.rows .users, s.actorOf u = .ok a)
    ∧ ∀ u ∈ s.rows .users, u .id = .integer a.id → u .deletedAt = .null

/-- An employee who is read has the id of the row. -/
theorem id_eq_of_actorOf (h : s.actorOf u = .ok a) :
    u .id = .integer a.id := by
  unfold actorOf at h
  obtain ⟨kind, -, h⟩ := bind_eq_ok_iff.1 h
  obtain ⟨id, hid, h⟩ := bind_eq_ok_iff.1 h
  obtain ⟨department, -, h⟩ := bind_eq_ok_iff.1 h
  obtain ⟨otdel, -, h⟩ := bind_eq_ok_iff.1 h
  obtain ⟨branch, -, h⟩ := bind_eq_ok_iff.1 h
  obtain ⟨office, -, h⟩ := bind_eq_ok_iff.1 h
  obtain ⟨position, -, h⟩ := bind_eq_ok_iff.1 h
  cases h
  unfold Row.idAt at hid
  split at hid
  · next n hn =>
      cases hid
      exact hn
  · cases hid

/-- Who is read from an active row serves, since no other row has the id. -/
theorem Sound.serves (h : s.Sound) {test : Row → Bool}
    (hu : u ∈ s.activeUsers test) (ha : s.actorOf u = .ok a) : s.Serves a := by
  obtain ⟨hmem, hactive, -⟩ := mem_activeUsers_iff.1 hu
  refine ⟨⟨u, hmem, ha⟩, fun v hv hid => ?_⟩
  rw [h.eq_of_id_eq rfl hv hmem (hid.trans (id_eq_of_actorOf ha).symm)]
  exact hactive

theorem exists_mem_of_firstActor {rows : List Row}
    (h : s.firstActor rows = .ok (some a)) :
    ∃ u ∈ rows, s.actorOf u = .ok a := by
  cases rows with
  | nil => cases h
  | cons u rest =>
      obtain ⟨b, hb, hsome⟩ := map_eq_ok_iff.1 h
      cases hsome
      exact ⟨u, List.mem_cons_self, hb⟩

/-- Whom a store shows serves. -/
theorem Sound.serves_of_shows (h : s.Sound)
    (hshows : (Database.ready s).directory.Shows a) : s.Serves a := by
  refine hshows.of_lookups ?_ ?_ ?_
  · intro user a hread
    obtain ⟨u, hu, ha⟩ := exists_mem_of_firstActor (mapError_eq_ok_iff.1 hread)
    exact h.serves hu ha
  · intro p holders hread a ha
    obtain ⟨u, hu, ha⟩ := exists_of_mem_mapM (mapError_eq_ok_iff.1 hread) ha
    exact h.serves hu ha
  · intro q a hread
    obtain ⟨u, hu, ha⟩ := exists_mem_of_firstActor (mapError_eq_ok_iff.1 hread)
    exact h.serves hu ha

/-- An id is found exactly where its row is not retired. -/
theorem Sound.exists_findActiveUser_iff (h : s.Sound) :
    (∃ a, (Database.ready s).directory.findActiveUser user = .ok (some a))
      ↔ ∃ u ∈ s.rows .users,
          u .id = .integer user ∧ u .deletedAt = .null := by
  constructor
  · rintro ⟨a, hread⟩
    obtain ⟨u, hmem, hid, hactive, -⟩ :=
      h.activeUser_eq_some_iff.1 (mapError_eq_ok_iff.1 hread)
    exact ⟨u, hmem, hid, hactive⟩
  · rintro ⟨u, hmem, hid, hactive⟩
    obtain ⟨e, he, -⟩ := h.exists_entry hmem
    exact ⟨e.actor, mapError_eq_ok_iff.2
      (h.activeUser_of_employs ⟨u, hmem, hid, hactive, e, he, rfl⟩)⟩

end Store

-- ================================================================ visibility

/-- Whoever is inactive is never seen. Over a roster, whatever calls filled it,
everybody who is shown was registered by a call after which no call retired
the id; over every store that accepted writes lead to, nobody who is shown has
a row that is retired. And nobody else is hidden: the lookup by id finds
exactly the ids with such a registration, or with such a row. -/
theorem inactive_never_shown :
    (∀ calls : List Call,
        (∀ a, (run calls).directory.Shows a → Roster.Stands calls a)
          ∧ ∀ user,
              (∃ a, (run calls).directory.findActiveUser user = .ok (some a))
                ↔ ∃ a, a.id = user ∧ Roster.Stands calls a)
      ∧ ∀ s : Store, s.Reachable →
          (∀ a, (Database.ready s).directory.Shows a → s.Serves a)
          ∧ ∀ user,
              (∃ a, (Database.ready s).directory.findActiveUser user
                = .ok (some a))
                ↔ ∃ u ∈ s.rows .users,
                    u .id = .integer user ∧ u .deletedAt = .null :=
  ⟨fun _ => ⟨fun _ => Roster.stands_of_shows,
      fun _ => Roster.exists_findActiveUser_iff⟩,
    fun _ h => ⟨fun _ => h.sound.serves_of_shows,
      fun _ => h.sound.exists_findActiveUser_iff⟩⟩

/-- A department's specialist who leaves and comes back to another one. -/
def Roster.returning : List Call :=
  [.register { id := 5, department := 10 } (some .specialist), .deactivate 5,
    .register { id := 5, department := 20 } (some .specialist)]

/-- The roster shows the employee as registered after the retirement, and the
sample store sends an order to a specialist who is not retired. -/
theorem returning_stands :
    (run Roster.returning).directory.Shows { id := 5, department := 20 }
      ∧ Roster.Stands Roster.returning { id := 5, department := 20 }
      ∧ Store.sample.Reachable
      ∧ (Database.ready Store.sample).directory.Shows
          { id := 5, department := 1, position := some 11 }
      ∧ Store.sample.Serves
          { id := 5, department := 1, position := some 11 } := by
  have hfound : (run Roster.returning).directory.findActiveUser 5
      = .ok (some { id := 5, department := 20 }) := rfl
  have hanswer : ((Database.ready Store.sample).directory.resolve
        { orderType := 7, department := some 1 } none).answer
      = .ok { executor := { id := 5, department := 1, position := some 11 }
              status := some 4
              ruleFound := true } := by
    decide +kernel
  have hroster : (run Roster.returning).directory.Shows
      { id := 5, department := 20 } := .user hfound
  have hstore : (Database.ready Store.sample).directory.Shows
      { id := 5, department := 1, position := some 11 } := .executor hanswer
  exact ⟨hroster, (inactive_never_shown.1 _).1 _ hroster,
    Store.sample_reachable, hstore,
    (inactive_never_shown.2 _ Store.sample_reachable).1 _ hstore⟩

end WorkRouting
