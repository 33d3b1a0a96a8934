/-
What an accepted statement did to the store, statement by statement. Each
writing operation is a sequence of checks that ends in the new rows; here every
one of them is turned around, so that a proof about stores takes an accepted
write apart by `obtain` and never opens the operation again:

- `conforms_eq_ok_iff`: a row conforms when nothing mandatory is missing, its
  values are allowed, and it is apart from the others in every key;
- `insert_eq_ok_iff`, `update_eq_ok_iff`, `delete_eq_ok_iff`: the rows that a
  statement leaves, and the checks that it passed;
- `changeRows_induction`: what every single change keeps, an update keeps, and
  `changeRows_eq_of_single`: an update of one row is a single change;
- `Store.Reachable`: the stores that accepted writes make of the empty one, so
  that what every write keeps is shown once, by induction over the writes.
  They include every state that a migrated database can come to by statements
  (`Database.Reachable.reachable_store`).
-/
import WorkRouting.Proofs.Except
import WorkRouting.Store.Database

namespace WorkRouting

-- ============================================================== one row

/-- No key has the same values in both rows. -/
def Table.Apart (t : Table) (a b : Row) : Prop :=
  ∀ key ∈ t.keys, ∃ c ∈ key, (a c).same (b c) = false

theorem Table.Apart.symm {t : Table} {a b : Row} (h : t.Apart a b) :
    t.Apart b a := by
  intro key hkey
  obtain ⟨c, hc, hne⟩ := h key hkey
  rw [Value.same_comm] at hne
  exact ⟨c, hc, hne⟩

/-- Where a table has ids, they are a key. -/
theorem Table.Apart.id_ne {t : Table} {a b : Row} (h : t.Apart a b)
    (ht : t.hasId = true) : a .id ≠ b .id := by
  have hkey : [Column.id] ∈ t.keys := by
    revert ht
    cases t <;> decide
  obtain ⟨c, hc, hne⟩ := h [.id] hkey
  rw [List.mem_singleton.1 hc] at hne
  intro hid
  rw [hid, Value.same_self] at hne
  cases hne

namespace Store

variable {s s' : Store} {t u : Table} {rows others : List Row} {r r' : Row}

theorem conforms_eq_ok_iff :
    conforms t others r = .ok ()
      ↔ (∀ c ∈ t.mandatory, r c ≠ .null) ∧ t.permits r = true
          ∧ ∀ o ∈ others, t.Apart o r := by
  unfold conforms
  cases hmissing : t.mandatory.find? (r · == .null) with
  | some c =>
      have hnull : r c = .null := by
        simpa using List.find?_some hmissing
      constructor
      · intro h
        cases h
      · rintro ⟨hpresent, -, -⟩
        exact absurd hnull (hpresent c (List.mem_of_find?_eq_some hmissing))
  | none =>
      have hpresent : ∀ c ∈ t.mandatory, r c ≠ .null := by
        simpa using List.find?_eq_none.1 hmissing
      by_cases hpermits : t.permits r = true
      · rw [hpermits]
        dsimp only
        cases hkey : t.keys.find? fun key =>
            others.any fun o => key.all fun c => (o c).same (r c) with
        | some key =>
            have hshared := List.find?_some hkey
            simp only [List.any_eq_true, List.all_eq_true] at hshared
            obtain ⟨o, ho, hall⟩ := hshared
            constructor
            · intro h
              cases h
            · rintro ⟨-, -, hapart⟩
              obtain ⟨c, hc, hne⟩ :=
                hapart o ho key (List.mem_of_find?_eq_some hkey)
              rw [hall c hc] at hne
              cases hne
        | none =>
            have hnone := List.find?_eq_none.1 hkey
            simp only [List.any_eq_true, List.all_eq_true, not_exists,
              not_and, Classical.not_forall, Bool.not_eq_true] at hnone
            refine ⟨fun _ => ⟨hpresent, rfl, ?_⟩, fun _ => rfl⟩
            intro o ho key hk
            obtain ⟨c, hc, hne⟩ := hnone key hk o ho
            exact ⟨c, hc, hne⟩
      · simp [hpermits]

-- =========================================================== statements

theorem rows_withRows_self : (s.withRows t rows).rows t = rows :=
  if_pos rfl

theorem rows_withRows_of_ne (h : u ≠ t) :
    (s.withRows t rows).rows u = s.rows u :=
  if_neg h

theorem settled_eq_ok_iff :
    s.settled = .ok s' ↔ s' = s ∧ s'.referencesHold = true := by
  unfold settled
  constructor
  · intro h
    split at h
    · next hholds =>
        cases h
        exact ⟨rfl, hholds⟩
    · cases h
  · rintro ⟨rfl, hholds⟩
    rw [if_pos hholds]

/-- A row under an id of its own is the row given, except for an id that was
missing. -/
theorem identified_eq_ok (h : s.identified t r = .ok r') :
    (t.hasId = true → ∃ n, r' .id = .integer n)
      ∧ ∀ c, c ≠ .id → r' c = r c := by
  unfold identified at h
  cases hid : t.hasId with
  | true =>
      rw [hid, Bool.not_true, if_neg Bool.false_ne_true] at h
      cases hvalue : r .id with
      | null =>
          rw [hvalue] at h
          cases h
          exact ⟨fun _ => ⟨_, if_pos rfl⟩, fun c hc => if_neg hc⟩
      | integer n =>
          rw [hvalue] at h
          cases h
          exact ⟨fun _ => ⟨n, hvalue⟩, fun _ _ => rfl⟩
      | real _ | text _ | garbled _ | blob _ =>
          rw [hvalue] at h
          cases h
  | false =>
      rw [hid, Bool.not_false, if_pos rfl] at h
      cases h
      exact ⟨fun hid => absurd hid Bool.false_ne_true, fun _ _ => rfl⟩

theorem insert_eq_ok_iff {given : List (Column × Value)} :
    s.insert t given = .ok s'
      ↔ ∃ r, s.identified t (newRow t given) = .ok r
          ∧ ¬ (t = .users ∧ s.takesOccupied r (s.rows .users) = true)
          ∧ conforms t (s.rows t) r = .ok ()
          ∧ s' = s.withRows t (s.rows t ++ [r])
          ∧ s'.referencesHold = true := by
  unfold insert
  rw [bind_eq_ok_iff]
  refine exists_congr fun r => and_congr_right fun _ => ?_
  rw [guard_eq_ok_iff, check_eq_ok_iff, settled_eq_ok_iff, Bool.and_eq_true,
    decide_eq_true_iff]

theorem update_eq_ok_iff {changes : List (Column × Value)}
    {selects : Row → Bool} :
    s.update t changes selects = .ok s'
      ↔ ∃ rows, s.changeRows t changes selects [] (s.visited t) = .ok rows
          ∧ s' = s.withRows t rows ∧ s'.referencesHold = true := by
  unfold update
  simp only [bind_eq_ok_iff, settled_eq_ok_iff]

theorem delete_eq_ok_iff {selects : Row → Bool} :
    s.delete t selects = .ok s'
      ↔ (s' = ⟨fun u =>
            ((s.withRows t ((s.rows t).filter (!selects ·))).rows u).filter
              (!goesWith t ((s.rows t).filter selects) u ·)⟩)
          ∧ s'.referencesHold = true :=
  settled_eq_ok_iff

/-- A deletion only takes rows away, in every table. -/
theorem delete_sublist {selects : Row → Bool}
    (h : s.delete t selects = .ok s') (u : Table) :
    (s'.rows u).Sublist (s.rows u) := by
  obtain ⟨rfl, -⟩ := delete_eq_ok_iff.1 h
  refine List.filter_sublist.trans ?_
  by_cases hu : u = t
  · subst hu
    rw [rows_withRows_self]
    exact List.filter_sublist
  · simp only [rows_withRows_of_ne hu, List.Sublist.refl]

/-- Every change that an update makes is admitted at its turn, the rows before
it changed and those after it not. -/
theorem admitChange_eq_ok_iff {changes : List (Column × Value)}
    {all : List Row} :
    s.admitChange t changes all others r = .ok ()
      ↔ (t.hasId = true → ∃ n, r .id = .integer n)
        ∧ ¬ (t = .users ∧ touchesHolding changes = true
              ∧ s.takesOccupied r (all.filter fun u => u .id != r .id) = true)
        ∧ conforms t others r = .ok () := by
  have hguard : (do
      if t = .users && touchesHolding changes
          && s.takesOccupied r (all.filter fun u => u .id != r .id) then
        throw .occupiedPosition
      conforms t others r) = Except.ok ()
        ↔ ¬ (t = .users ∧ touchesHolding changes = true
              ∧ s.takesOccupied r (all.filter fun u => u .id != r .id) = true)
          ∧ conforms t others r = .ok () := by
    rw [guard_eq_ok_iff, Bool.and_eq_true, Bool.and_eq_true,
      decide_eq_true_iff, and_assoc]
  rw [← hguard]
  unfold admitChange
  dsimp only
  split
  · next hid =>
      split
      · next n hn => exact (and_iff_right fun _ => ⟨n, hn⟩).symm
      · next hnot =>
          refine iff_of_false nofun fun h => ?_
          obtain ⟨n, hn⟩ := h.1 hid
          exact hnot n hn
  · next hid => exact (and_iff_right fun hid' => absurd hid' hid).symm

/-- What every admitted change keeps, an update keeps. -/
theorem changeRows_induction {changes : List (Column × Value)}
    {selects : Row → Bool} {P : List Row → Prop}
    (hstep : ∀ before r rest, P (before ++ r :: rest) →
      s.admitChange t changes (before ++ r :: rest) (before ++ rest)
        (changed changes r) = .ok () →
      P (before ++ changed changes r :: rest)) :
    ∀ {rest before rows},
      s.changeRows t changes selects before rest = .ok rows →
      P (before ++ rest) → P rows := by
  intro rest
  induction rest with
  | nil =>
      intro before rows h hP
      cases h
      rwa [List.append_nil] at hP
  | cons r rest ih =>
      intro before rows h hP
      unfold changeRows at h
      split at h
      · dsimp only at h
        split at h
        · cases h
        · next hadmit =>
            refine ih h ?_
            rw [List.append_assoc]
            exact hstep before r rest hP hadmit
      · refine ih h ?_
        rwa [List.append_assoc]

/-- Rows that are not selected are passed over. -/
theorem changeRows_append_of_unselected {changes : List (Column × Value)}
    {selects : Row → Bool} {passed before rest : List Row}
    (h : ∀ x ∈ passed, selects x = false) :
    s.changeRows t changes selects before (passed ++ rest)
      = s.changeRows t changes selects (before ++ passed) rest := by
  induction passed generalizing before with
  | nil => rw [List.nil_append, List.append_nil]
  | cons x passed ih =>
      rw [List.cons_append, changeRows, h x List.mem_cons_self,
        if_neg Bool.false_ne_true,
        ih fun y hy => h y (List.mem_cons_of_mem x hy), List.append_assoc,
        List.singleton_append]

/-- An update that selects one row changes that row, if the change is
admitted. -/
theorem changeRows_eq_of_single {changes : List (Column × Value)}
    {selects : Row → Bool} {before rest : List Row}
    (hr : selects r = true) (hbefore : ∀ x ∈ before, selects x = false)
    (hrest : ∀ x ∈ rest, selects x = false) :
    s.changeRows t changes selects [] (before ++ r :: rest)
      = (s.admitChange t changes (before ++ r :: rest) (before ++ rest)
          (changed changes r)).map
            fun _ => before ++ changed changes r :: rest := by
  rw [changeRows_append_of_unselected hbefore, List.nil_append, changeRows,
    if_pos hr]
  dsimp only
  cases s.admitChange t changes (before ++ r :: rest) (before ++ rest)
      (changed changes r) with
  | error e => rfl
  | ok _ =>
      dsimp only
      have hend : s.changeRows t changes selects
            (before ++ [changed changes r]) (rest ++ [])
          = s.changeRows t changes selects
              (before ++ [changed changes r] ++ rest) [] :=
        changeRows_append_of_unselected hrest
      rw [List.append_nil] at hend
      rw [hend, changeRows, List.append_assoc]
      rfl

end Store

-- ====================================================== accepted statements

/-- One accepted write to a table, whatever rows it selects. -/
inductive Store.Wrote (s : Store) (t : Table) : Store → Prop
  | inserted {given : List (Column × Value)} {s' : Store} :
      s.insert t given = .ok s' → Wrote s t s'
  | updated {changes : List (Column × Value)} {selects : Row → Bool}
      {s' : Store} :
      s.update t changes selects = .ok s' → Wrote s t s'
  | deleted {selects : Row → Bool} {s' : Store} :
      s.delete t selects = .ok s' → Wrote s t s'

/-- An insertion or an update leaves the other tables alone, and a deletion
only takes rows away. -/
theorem Store.Wrote.frame {s s' : Store} {t : Table} (hw : s.Wrote t s') :
    (∀ u, u ≠ t → s'.rows u = s.rows u)
      ∨ ∀ u, (s'.rows u).Sublist (s.rows u) := by
  cases hw with
  | inserted hinsert =>
      obtain ⟨r, -, -, -, rfl, -⟩ := insert_eq_ok_iff.1 hinsert
      exact Or.inl fun u hu => rows_withRows_of_ne hu
  | updated hupdate =>
      obtain ⟨rows, -, rfl, -⟩ := update_eq_ok_iff.1 hupdate
      exact Or.inl fun u hu => rows_withRows_of_ne hu
  | deleted hdelete => exact Or.inr (delete_sublist hdelete)

/-- A write to one table adds no row to another. -/
theorem Store.Wrote.sublist {s s' : Store} {t u : Table} (hw : s.Wrote t s')
    (hu : u ≠ t) : (s'.rows u).Sublist (s.rows u) := by
  rcases hw.frame with hsame | hsub
  · simp only [hsame u hu, List.Sublist.refl]
  · exact hsub u

/-- The stores that accepted writes make of the empty one. A write may select
its rows by any condition, so this is at least what statements can do. -/
inductive Store.Reachable : Store → Prop
  | empty : Reachable .empty
  | wrote {s s' : Store} {t : Table} :
      Reachable s → s.Wrote t s' → Reachable s'

namespace Database

/-- How a statement takes one store to the next: what it names becomes columns
of a table, and the table is written. -/
inductive Executes (s s' : Store) : Statement → Prop
  | inserted {t : Table} {table : String} {row : List (String × Value)}
      {given : List (Column × Value)} :
      columns t true row = .ok given → s.insert t given = .ok s' →
      Executes s s' (.insert table row)
  | updated {t : Table} {table : String}
      {changes condition : List (String × Value)}
      {given : List (Column × Value)} {selects : Row → Bool} :
      columns t false changes = .ok given →
      s.update t given selects = .ok s' →
      Executes s s' (.update table changes condition)
  | deleted {t : Table} {table : String} {condition : List (String × Value)}
      {selects : Row → Bool} :
      s.delete t selects = .ok s' → Executes s s' (.delete table condition)

/-- An executed statement wrote to a database that had its tables. -/
theorem executes_of_execute {db db' : Database} {st : Statement} {n : Nat}
    (h : db.execute st = .ok (db', n)) :
    ∃ s s', db = .ready s ∧ db' = .ready s' ∧ Executes s s' st := by
  unfold execute at h
  obtain ⟨s, hs, h⟩ := bind_eq_ok_iff.1 h
  have hdb : db = .ready s := by
    cases db with
    | blank => cases hs
    | ready s₀ =>
        cases hs
        rfl
  split at h
  · cases h
  · next t ht =>
      split at h
      · obtain ⟨given, hgiven, h⟩ := bind_eq_ok_iff.1 h
        obtain ⟨s', hs', h⟩ := bind_eq_ok_iff.1 h
        cases h
        exact ⟨s, s', hdb, rfl, .inserted hgiven hs'⟩
      · obtain ⟨changes, hchanges, h⟩ := bind_eq_ok_iff.1 h
        obtain ⟨condition, hcondition, h⟩ := bind_eq_ok_iff.1 h
        obtain ⟨s', hs', h⟩ := bind_eq_ok_iff.1 h
        cases h
        exact ⟨s, s', hdb, rfl, .updated hchanges hs'⟩
      · obtain ⟨condition, hcondition, h⟩ := bind_eq_ok_iff.1 h
        obtain ⟨s', hs', h⟩ := bind_eq_ok_iff.1 h
        cases h
        exact ⟨s, s', hdb, rfl, .deleted hs'⟩

theorem Executes.exists_wrote {s s' : Store} {st : Statement}
    (h : Executes s s' st) : ∃ t, s.Wrote t s' := by
  cases h with
  | inserted _ hinsert => exact ⟨_, .inserted hinsert⟩
  | updated _ hupdate => exact ⟨_, .updated hupdate⟩
  | deleted hdelete => exact ⟨_, .deleted hdelete⟩

theorem wrote_of_execute {db db' : Database} {st : Statement} {n : Nat}
    (h : db.execute st = .ok (db', n)) :
    ∃ s t s', db = .ready s ∧ db' = .ready s' ∧ s.Wrote t s' := by
  obtain ⟨s, s', hs, hs', hexecutes⟩ := executes_of_execute h
  obtain ⟨t, hwrote⟩ := hexecutes.exists_wrote
  exact ⟨s, t, s', hs, hs', hwrote⟩

/-- A column gets its value under its own title. -/
theorem mem_of_mem_columns {t : Table} {inserting : Bool}
    {named : List (String × Value)} {given : List (Column × Value)}
    {c : Column} {v : Value} (h : columns t inserting named = .ok given)
    (hc : (c, v) ∈ given) : (c.title, v) ∈ named := by
  obtain ⟨⟨name, w⟩, hmem, hread⟩ := exists_of_mem_mapM h hc
  obtain ⟨c', hcolumn, hread⟩ := bind_eq_ok_iff.1 hread
  cases hread
  unfold column at hcolumn
  split at hcolumn
  · next hfind =>
      cases hcolumn
      have htitle : c.title = name := by
        simpa using List.find?_some hfind
      rw [htitle]
      exact hmem
  · cases hcolumn

/-- The database after a statement; a refused one leaves it as it was. -/
def attempt (db : Database) (st : Statement) : Database :=
  match db.execute st with
  | .ok (db', _) => db'
  | .error _ => db

/-- The store of a database, the empty one before there are tables. -/
def store : Database → Store
  | blank => .empty
  | ready s => s

/-- A database that can be reached has its tables, and its store is one that
accepted writes lead to. -/
theorem Reachable.reachable_store {db : Database} (h : db.Reachable) :
    ready db.store = db ∧ db.store.Reachable := by
  induction h with
  | migrated => exact ⟨rfl, .empty⟩
  | wrote _ hexecute ih =>
      obtain ⟨s, t, s', rfl, rfl, hwrote⟩ := wrote_of_execute hexecute
      exact ⟨rfl, ih.2.wrote hwrote⟩

theorem Reachable.attempt {db : Database} (h : db.Reachable) (st : Statement) :
    (db.attempt st).Reachable := by
  unfold Database.attempt
  split
  · next hexecute => exact h.wrote hexecute
  · exact h

/-- Whatever statements are attempted on it, a reachable database stays one. -/
theorem Reachable.foldl_attempt {db : Database} (h : db.Reachable)
    (sts : List Statement) :
    (sts.foldl Database.attempt db).Reachable := by
  induction sts generalizing db with
  | nil => exact h
  | cons st rest ih => exact ih (h.attempt st)

end Database

end WorkRouting
