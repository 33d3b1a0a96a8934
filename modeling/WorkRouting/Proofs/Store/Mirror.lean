/-
A store and a roster with the same content route alike. `Store.MirroredBy` says
when calls fill a roster with what a store holds: they register the employee of
every row and add the rule of every row, once and in any order, and retire an
id after its registration where the row is retired and never where it is not.
The two sides have little code in common. One sorts, searches a second table
and may fail to read a value; the other filters entries in the order of the
calls and folds a minimum.

The comparison goes through the active content. What a store reads is a choice
among the entries of its active rows, and by the history of the calls these
are, up to order, the active entries of the roster (`MirroredBy.active_perm`).
So the two answer with the same employees and rules up to order
(`MirroredBy.agrees`), which is all that decisions look at.
-/
import WorkRouting.Proofs.Roster.History
import WorkRouting.Proofs.Store.Reading

namespace WorkRouting

open Roster (Call Entry run spares survivors)

-- ================================================================ the mirror

/-- Calls that fill a roster with what a store holds. -/
structure Store.MirroredBy (s : Store) (entry : Row → Entry)
    (rule : Row → Rule) (calls : List Call) : Prop where
  entries : ∀ u ∈ s.rows .users, s.Records u (entry u)
  rules : ∀ r ∈ s.rows .orderRoutingRules, Row.RecordsRule r (rule r)
  /-- One registration for every employee, in any order. -/
  registered : (calls.filterMap Call.registered?).Perm
    ((s.rows .users).map entry)
  /-- One addition for every rule, in any order. -/
  added : (calls.filterMap Call.added?).Perm
    ((s.rows .orderRoutingRules).map rule)
  /-- Who is retired in the store is retired after being registered. -/
  retired : ∀ u ∈ s.rows .users, u .deletedAt ≠ .null → ∀ before rest,
    calls = before ++ .register (entry u).actor (entry u).kind :: rest →
      .deactivate (entry u).actor.id ∈ rest
  /-- Nobody else is retired. -/
  spared : ∀ u ∈ s.rows .users, u .deletedAt = .null →
    .deactivate (entry u).actor.id ∉ calls

/-- Of entries with one id each is the first by id. -/
theorem Roster.least_activeWhere_id (r : Roster) (user : UserId) :
    least Actor.idKey (r.activeWhere (·.actor.id == user))
      = (r.activeWhere (·.actor.id == user)).head? := by
  have hid : ∀ a ∈ r.activeWhere (·.actor.id == user), a.id = user := by
    intro a ha
    obtain ⟨e, he, rfl⟩ := List.mem_map.1 ha
    simpa using (List.mem_filter.1 he).2
  refine least_eq_head? (List.pairwise_of_forall_mem_list fun a ha b hb => ?_)
  rw [Actor.idKey, Actor.idKey, hid a ha, hid b hb]
  exact List.lt_irrefl _

namespace Store.MirroredBy

variable {s : Store} {entry : Row → Entry} {rule : Row → Rule}
  {calls : List Call}

theorem recorded (h : s.MirroredBy entry rule calls) (hs : s.Sound) :
    s.Recorded entry rule :=
  ⟨hs, h.entries, h.rules⟩

-- ======================================================= the active entries

/-- What the calls register is the entry of a row. -/
theorem exists_row (h : s.MirroredBy entry rule calls) {actor : Actor}
    {kind : Option PositionType} (hcall : .register actor kind ∈ calls) :
    ∃ u ∈ s.rows .users, entry u = ⟨actor, kind, true⟩ := by
  have hmem : ⟨actor, kind, true⟩ ∈ calls.filterMap Call.registered? :=
    List.mem_filterMap.2 ⟨_, hcall, rfl⟩
  exact List.mem_map.1 (h.registered.mem_iff.1 hmem)

/-- The entry of a row is one that the calls register. -/
theorem register_mem (h : s.MirroredBy entry rule calls) {u : Row}
    (hu : u ∈ s.rows .users) :
    .register (entry u).actor (entry u).kind ∈ calls := by
  have hmem := h.registered.mem_iff.2 (List.mem_map.2 ⟨u, hu, rfl⟩)
  obtain ⟨call, hcall, hentry⟩ := List.mem_filterMap.1 hmem
  cases call with
  | register actor kind =>
      have heq : (⟨actor, kind, true⟩ : Entry) = entry u :=
        Option.some.inj hentry
      rw [← heq]
      exact hcall
  | addRule rule => cases hentry
  | deactivate user => cases hentry

/-- An active row is spared by all calls. -/
theorem spares_of_active (h : s.MirroredBy entry rule calls) {u : Row}
    (hu : u ∈ s.rows .users) (hactive : isActive u = true) :
    spares calls (entry u) = true :=
  decide_eq_true (h.spared u hu (isActive_eq_true_iff.1 hactive))

/-- A retired row is not spared by what follows its registration. -/
theorem deactivate_mem_of_retired (h : s.MirroredBy entry rule calls) {u : Row}
    (hu : u ∈ s.rows .users) (hretired : isActive u ≠ true)
    {before rest : List Call}
    (hcalls : calls
      = before ++ .register (entry u).actor (entry u).kind :: rest) :
    .deactivate (entry u).actor.id ∈ rest :=
  h.retired u hu (mt isActive_eq_true_iff.2 hretired) before rest hcalls

/-- The calls spare the entries of the active rows and no others. -/
theorem spares_eq_isActive (h : s.MirroredBy entry rule calls) {u : Row}
    (hu : u ∈ s.rows .users) : spares calls (entry u) = isActive u := by
  by_cases hactive : isActive u = true
  · rw [h.spares_of_active hu hactive, hactive]
  · obtain ⟨before, rest, hcalls⟩ := List.append_of_mem (h.register_mem hu)
    have hrest := h.deactivate_mem_of_retired hu hactive hcalls
    have hmem : .deactivate (entry u).actor.id ∈ calls := by
      rw [hcalls]
      exact List.mem_append_right before (List.mem_cons_of_mem _ hrest)
    rw [eq_false_of_ne_true hactive]
    exact decide_eq_false (not_not_intro hmem)

/-- No id is retired before it is registered, so sparing by the later calls is
sparing by all of them. -/
theorem survivors_eq (h : s.MirroredBy entry rule calls) :
    survivors calls
      = (calls.filterMap Call.registered?).filter (spares calls) := by
  refine Roster.survivors_eq_filter fun before actor kind rest hcalls => ?_
  have hcall : .register actor kind ∈ calls := by
    rw [hcalls]
    exact List.mem_append_right before List.mem_cons_self
  obtain ⟨u, hu, hentry⟩ := h.exists_row hcall
  have hactor : actor = (entry u).actor := by
    rw [hentry]
  have hkind : kind = (entry u).kind := by
    rw [hentry]
  subst hactor hkind
  rw [← hentry, h.spares_eq_isActive hu]
  constructor
  · intro hactive hmem
    have hspares := h.spares_of_active hu hactive
    have hall : .deactivate (entry u).actor.id ∈ calls := by
      rw [hcalls]
      exact List.mem_append_right before (List.mem_cons_of_mem _ hmem)
    exact of_decide_eq_true hspares hall
  · intro hmem
    by_contra hretired
    exact hmem (h.deactivate_mem_of_retired hu hretired hcalls)

/-- Up to order, the active entries are those of the active rows. -/
theorem active_perm (h : s.MirroredBy entry rule calls) :
    (run calls).active.Perm (s.activeEntries entry) := by
  have hfilter : ((s.rows .users).map entry).filter (spares calls)
      = s.activeEntries entry := by
    rw [List.filter_map, activeEntries]
    refine congrArg (List.map entry) (List.filter_congr fun u hu => ?_)
    exact h.spares_eq_isActive hu
  rw [Roster.active_run, h.survivors_eq, ← hfilter]
  exact h.registered.filter (spares calls)

-- ============================================================= the lookups

/-- The active employees under a test are the same on both sides. -/
theorem actors_same (h : s.MirroredBy entry rule calls) (hs : s.Sound)
    (test : Entry → Bool) :
    SameUpToOrder Actor.id (s.actorsWhere entry test)
      ((run calls).activeWhere test) :=
  ⟨((h.active_perm.filter test).map Entry.actor).symm,
    (h.recorded hs).actorsWhere_nodup test⟩

/-- So are the rules under a test. -/
theorem rules_same (h : s.MirroredBy entry rule calls) (hs : s.Sound)
    (test : Rule → Bool) :
    SameUpToOrder Rule.id ((s.recordedRules rule).filter test)
      ((run calls).rules.filter test) := by
  have hall : SameUpToOrder Rule.id (s.recordedRules rule)
      (run calls).rules := by
    rw [Roster.rules_run]
    exact ⟨h.added.symm, (h.recorded hs).recordedRules_nodup⟩
  exact hall.filter test

/-- A store and a roster with its content tell routing the same. -/
theorem agrees (h : s.MirroredBy entry rule calls) (hs : s.Sound) :
    (Database.ready s).directory.Agrees (run calls).directory where
  users user := by
    have hread := (h.recorded hs).activeUser_eq user
    have hleast := (h.actors_same hs (·.actor.id == user)).least_eq
      fun _ _ => Actor.id_eq_of_idKey
    rw [hleast, (run calls).least_activeWhere_id] at hread
    simp only [Database.directory, Database.activeUser, Database.reading,
      hread]
    rfl
  heads q := by
    have hread := (h.recorded hs).searchHierarchy_eq q
    have hleast := (h.actors_same hs (·.soughtBy q)).least_eq
      fun _ _ => Actor.id_eq_of_idKey
    rw [hleast] at hread
    simp only [Database.directory, Database.reading, hread]
    rfl
  holders p := by
    obtain ⟨holders, hread, hperm⟩ := (h.recorded hs).positionHolders_eq p
    have hsame := h.actors_same hs (·.actor.position == some p)
    simp only [Database.directory, Database.reading, hread]
    exact hsame.perm hperm (List.mergeSort_perm _ _).symm
  matching ctx := by
    obtain ⟨rules, hread, hperm⟩ := (h.recorded hs).matchingRules_eq ctx
    have hsame := h.rules_same hs (·.fits ctx)
    simp only [Database.directory, Database.matchingRules, Database.reading,
      hread]
    exact (hsame.perm hperm (List.Perm.refl _)).filter _
  typed t := by
    obtain ⟨rules, hread, hperm⟩ := (h.recorded hs).rulesForOrderType_eq t
    have hsame := h.rules_same hs (·.orderType == some t)
    simp only [Database.directory, Database.reading, hread]
    exact (hsame.perm hperm (List.Perm.refl _)).filter _

end Store.MirroredBy

-- ============================================================= a roster copy

namespace Store

variable {s : Store} {entry : Row → Entry} {rule : Row → Rule}

/-- The retirement of everybody who is retired in the store. -/
def retirements (s : Store) (entry : Row → Entry) : List Call :=
  ((s.rows .users).filter (!isActive ·)).map
    fun u => .deactivate (entry u).actor.id

/-- The calls that copy a store row by row, retirements last. -/
def copyCalls (s : Store) (entry : Row → Entry) (rule : Row → Rule) :
    List Call :=
  (s.rows .users).map (fun u => .register (entry u).actor (entry u).kind)
    ++ (s.rows .orderRoutingRules).map (fun r => .addRule (rule r))
    ++ s.retirements entry

theorem deactivate_mem_copyCalls_iff {user : UserId} :
    .deactivate user ∈ s.copyCalls entry rule
      ↔ .deactivate user ∈ s.retirements entry := by
  simp [copyCalls]

/-- A copy mirrors the store. -/
theorem Recorded.mirroredBy_copyCalls (h : s.Recorded entry rule)
    (hactive : ∀ u ∈ s.rows .users, (entry u).active = true) :
    s.MirroredBy entry rule (s.copyCalls entry rule) where
  entries := h.entries
  rules := h.rules
  registered := by
    have hregister : ((s.rows .users).map fun u =>
          Call.register (entry u).actor (entry u).kind).filterMap
            Call.registered?
        = (s.rows .users).map entry := by
      rw [List.filterMap_map, ← List.filterMap_eq_map]
      refine List.filterMap_congr fun u hu => ?_
      exact Roster.registered?_register (hactive u hu)
    rw [copyCalls, List.filterMap_append, List.filterMap_append, hregister]
    simp [retirements, List.filterMap_map, Function.comp_def,
      Call.registered?]
  added := by
    simp [copyCalls, retirements, List.filterMap_append, List.filterMap_map,
      Function.comp_def, Call.added?]
  retired u hu hretired before rest hcalls := by
    have hmem : .deactivate (entry u).actor.id ∈ s.retirements entry :=
      List.mem_map.2 ⟨u, by simpa [isActive] using ⟨hu, hretired⟩, rfl⟩
    have hnone : .register (entry u).actor (entry u).kind
        ∉ s.retirements entry := by
      simp [retirements]
    -- the registration is no retirement, so all retirements follow it
    rcases List.append_eq_append_iff.1 hcalls with
      ⟨m, -, hsplit⟩ | ⟨m, -, hsplit⟩
    · rw [hsplit] at hnone
      exact absurd (List.mem_append_right m List.mem_cons_self) hnone
    · cases m with
      | nil =>
          rw [← List.nil_append (s.retirements entry), ← hsplit] at hnone
          exact absurd List.mem_cons_self hnone
      | cons call m =>
          rw [(List.cons.inj hsplit).2]
          exact List.mem_append_right m hmem
  spared u hu hactive hmem := by
    obtain ⟨v, hv, hid⟩ := List.mem_map.1 (deactivate_mem_copyCalls_iff.1 hmem)
    obtain ⟨hv, hretired⟩ := List.mem_filter.1 hv
    have huv : u .id = v .id := by
      rw [(h.entries u hu).id, (h.entries v hv).id, Call.deactivate.inj hid]
    rw [← h.sound.eq_of_id_eq rfl hu hv huv, isActive, hactive] at hretired
    cases hretired

theorem Sound.exists_mirroredBy (h : s.Sound) (hid : s.Identifies) :
    ∃ entry rule calls, s.MirroredBy entry rule calls := by
  obtain ⟨entry, rule, hrecorded, hactive⟩ := h.exists_recorded hid
  exact ⟨entry, rule, _, hrecorded.mirroredBy_copyCalls hactive⟩

end Store

-- ============================================================= the decisions

/-- Over every store that accepted writes lead to, routing decides as over a
roster with the same content, however that roster was filled. Such a roster
exists as soon as the rules identify their order types and statuses; every
other column of the content that should hold an identifier does. -/
theorem Database.decisions_eq_of_mirroredBy {s : Store} (h : s.Reachable)
    (hid : s.Identifies) :
    (∃ entry rule calls, s.MirroredBy entry rule calls)
      ∧ ∀ entry rule calls, s.MirroredBy entry rule calls →
          (∀ ctx explicit, (Database.ready s).directory.resolve ctx explicit
            = (run calls).directory.resolve ctx explicit)
          ∧ ∀ t, (Database.ready s).directory.predefinedRoute t
            = (run calls).directory.predefinedRoute t := by
  refine ⟨h.sound.exists_mirroredBy hid, ?_⟩
  intro entry rule calls hmirror
  have hagrees := hmirror.agrees h.sound
  exact ⟨hagrees.resolve_eq, hagrees.predefinedRoute_eq⟩

/-- A department with a head and a rule that leads to its specialists, one of
them retired. -/
def Store.sampleStatements : List Statement :=
  [.insert "departments" [("id", .integer 1), ("name", .text "IT")],
    .insert "positions"
      [("id", .integer 10), ("name", .text "Head"),
        ("position_type", .text "HEAD_OF_DEPARTMENT")],
    .insert "positions"
      [("id", .integer 11), ("name", .text "Specialist"),
        ("position_type", .text "SPECIALIST")],
    .insert "users"
      [("id", .integer 5), ("fio", .text "A"), ("department_id", .integer 1),
        ("position_id", .integer 11)],
    .insert "users"
      [("id", .integer 2), ("fio", .text "B"), ("department_id", .integer 1),
        ("position_id", .integer 10)],
    .insert "users"
      [("id", .integer 3), ("fio", .text "C"), ("department_id", .integer 1),
        ("position_id", .integer 11), ("deleted_at", .text "2024-01-01")],
    .insert "order_routing_rules"
      [("id", .integer 1), ("order_type_id", .integer 7),
        ("department_id", .integer 1), ("assign_to_position_id", .integer 11),
        ("status_id", .integer 4)]]

def Store.sample : Store :=
  (Store.sampleStatements.foldl Database.attempt (.ready .empty)).store

theorem Store.sample_reachable : Store.sample.Reachable :=
  (Database.Reachable.migrated.foldl_attempt
    sampleStatements).reachable_store.2

/-- A roster with this content sends the department's orders to the specialist
who is still there, since the database does. -/
theorem Store.sample_decisions_eq :
    ∃ entry rule calls, Store.sample.MirroredBy entry rule calls
      ∧ ((run calls).directory.resolve
          { orderType := 7, department := some 1 } none).answer
        = .ok {
            executor := { id := 5, department := 1, position := some 11 }
            status := some 4
            ruleFound := true } := by
  obtain ⟨⟨entry, rule, calls, hmirror⟩, hsame⟩ :=
    Database.decisions_eq_of_mirroredBy sample_reachable (by decide)
  refine ⟨entry, rule, calls, hmirror, ?_⟩
  rw [← (hsame entry rule calls hmirror).1]
  decide +kernel

end WorkRouting
