/-
Every read of a store gives an answer, as long as what is written is of the
kind of its column. A read fails over a value that is not what its column
should hold, and most columns cannot hold such a value: ids and references are
checked against rows, and the kinds of positions against a list. The columns
that refer to nothing hold what was written to them, so the condition is on the
statements: `Statement.Typed` asks of every value that its column stores it as
a value of the column's kind, or as null.

`Store.Typed` is the invariant that follows, for all tables and columns alike:
`Store.Typed.executes` is the step, one case per statement, and
`Database.TypedReachable` the run, loadings of the demo organization included.
With it every row can be read (`Sound.readable`).

What is read is also right about heads. Whoever is shown is a head exactly
where the position has a type that the guard on head positions looks for
(`Sound.isHead_iff`), and the guard looks for four texts (`guardedTypes`).
-/
import WorkRouting.Proofs.Routing.Visibility
import WorkRouting.Proofs.Store.Seeding

namespace WorkRouting

-- ============================================================== vocabulary

/-- The value is a text, one that can be read or not, or null. -/
def Value.IsOptionalText (v : Value) : Prop :=
  v = .null ∨ (∃ x, v = .text x) ∨ ∃ g, v = .garbled g

/-- A value of the kind that columns of the affinity are for, or null. -/
def Affinity.Holds : Affinity → Value → Prop
  | .integer, v => v.IsOptionalId
  | .text, v => v.IsOptionalText

/-- The column stores the value as one of its kind, or as null. -/
def Column.Suits (c : Column) (v : Value) : Prop :=
  c.affinity.Holds (c.affinity.apply v)

/-- Every column holds a value of its kind, or null. -/
def Row.Typed (r : Row) : Prop := ∀ c : Column, c.affinity.Holds (r c)

def Store.Typed (s : Store) : Prop := ∀ t, ∀ r ∈ s.rows t, Row.Typed r

namespace Statement

/-- The values that a statement writes, under the titles of their columns. -/
def given : Statement → List (String × Value)
  | insert _ row => row
  | update _ changes _ => changes
  | delete .. => []

/-- Every value that is written suits its column. -/
def Typed (st : Statement) : Prop :=
  ∀ (c : Column) (v : Value), (c.title, v) ∈ st.given → c.Suits v

end Statement

/-- The databases that accepted typed statements and loadings of the demo
organization make of a migrated one. -/
inductive Database.TypedReachable : Database → Prop
  | migrated : TypedReachable (ready .empty)
  | wrote {db db' : Database} {st : Statement} {n : Nat} :
      TypedReachable db → st.Typed → db.execute st = .ok (db', n) →
      TypedReachable db'
  | loaded {db db' : Database} {summary : DemoSummary} :
      TypedReachable db → db.seedDemo.answer = .ok (db', summary) →
      TypedReachable db'

/-- Every read of a store gives an answer. -/
structure Store.Readable (s : Store) : Prop where
  users : ∀ user, ∃ a, s.activeUser user = .ok a
  rules : ∀ ctx, ∃ l, s.matchingRules ctx = .ok l
  typedRules : ∀ t, ∃ l, s.rulesForOrderType t = .ok l
  holders : ∀ p, ∃ l, s.positionHolders p = .ok l
  heads : ∀ q, ∃ a, s.searchHierarchy q = .ok a

/-- The texts that the guard on head positions looks for. -/
def guardedTypes : List String :=
  ["HEAD_OF_DEPARTMENT", "MANAGER_OF_OTDEL", "BRANCH_DIRECTOR",
    "HEAD_OF_OFFICE"]

-- ================================================================= suiting

instance (v : Value) : Decidable v.IsOptionalText :=
  match v with
  | .null => isTrue (Or.inl rfl)
  | .text x => isTrue (Or.inr (Or.inl ⟨x, rfl⟩))
  | .garbled g => isTrue (Or.inr (Or.inr ⟨g, rfl⟩))
  | .integer _ | .real _ | .blob _ =>
      isFalse (by simp [Value.IsOptionalText])

instance (a : Affinity) (v : Value) : Decidable (a.Holds v) :=
  match a with
  | .integer => inferInstanceAs (Decidable v.IsOptionalId)
  | .text => inferInstanceAs (Decidable v.IsOptionalText)

instance (c : Column) (v : Value) : Decidable (c.Suits v) :=
  inferInstanceAs (Decidable (c.affinity.Holds _))

/-- Ids suit every column: one of text stores them by their digits. -/
theorem Column.suits_of_isOptionalId {c : Column} {v : Value}
    (h : v.IsOptionalId) : c.Suits v := by
  unfold Column.Suits
  rcases h with rfl | ⟨n, rfl⟩
  · cases c.affinity <;> exact Or.inl rfl
  · cases c.affinity with
    | integer => exact Or.inr ⟨n, rfl⟩
    | text => exact Or.inr (Or.inl ⟨_, rfl⟩)

-- ============================================================== typed rows

theorem Affinity.holds_null (a : Affinity) : a.Holds .null := by
  cases a <;> exact Or.inl rfl

theorem Affinity.apply_null (a : Affinity) : a.apply .null = .null := by
  cases a <;> rfl

/-- What a column holds where a new row gives it no value. -/
theorem Column.suits_absent (c : Column) : c.Suits (Table.absent c) := by
  unfold Table.absent
  split
  · exact Or.inr (Or.inl ⟨_, rfl⟩)
  · rw [Column.Suits, Affinity.apply_null]
    exact c.affinity.holds_null

namespace Row

variable {t : Table} {given : List (Column × Value)} {r : Row}

theorem typed_newRow (h : ∀ c v, (c, v) ∈ given → Column.Suits c v) :
    Row.Typed (Store.newRow t given) := by
  intro c
  unfold Store.newRow
  split
  · cases hlookup : given.lookup c with
    | none => exact c.suits_absent
    | some v =>
        obtain ⟨before, rest, rfl, -⟩ := List.lookup_eq_some_iff.1 hlookup
        exact h c v (by simp)
  · exact c.affinity.holds_null

theorem Typed.identified {s : Store} {r' : Row} (h : Row.Typed r)
    (hid : s.identified t r = .ok r') : Row.Typed r' := by
  intro c
  obtain ⟨hnumber, hsame⟩ := Store.identified_eq_ok hid
  by_cases hc : c = .id
  · subst hc
    by_cases ht : t.hasId = true
    · exact Or.inr (hnumber ht)
    · unfold Store.identified at hid
      rw [eq_false_of_ne_true ht, Bool.not_false, if_pos rfl] at hid
      cases hid
      exact h .id
  · rw [hsame c hc]
    exact h c

theorem Typed.changed (h : Row.Typed r)
    (hgiven : ∀ c v, (c, v) ∈ given → Column.Suits c v) :
    Row.Typed (Store.changed given r) := by
  intro c
  unfold Store.changed
  split
  · next v hlookup =>
      obtain ⟨before, rest, rfl, -⟩ := List.lookup_eq_some_iff.1 hlookup
      exact hgiven c v (by simp)
  · exact h c

end Row

-- =============================================================== all rows

namespace Store

variable {s s' : Store} {t : Table} {P : Table → Row → Prop}

/-- What the new row and all rows before have, all rows have after. -/
theorem forall_rows_of_insert {given : List (Column × Value)}
    (hnew : ∀ r, s.identified t (newRow t given) = .ok r → P t r)
    (hinsert : s.insert t given = .ok s') (h : ∀ u, ∀ r ∈ s.rows u, P u r) :
    ∀ u, ∀ r ∈ s'.rows u, P u r := by
  intro u x hx
  by_cases hu : u = t
  · subst hu
    obtain ⟨r, hid, -, -, rfl, -⟩ := insert_eq_ok_iff.1 hinsert
    rw [rows_withRows_self] at hx
    rcases List.mem_append.1 hx with hold | hadded
    · exact h u x hold
    · rw [List.mem_singleton.1 hadded]
      exact hnew r hid
  · exact h u x (((Wrote.inserted hinsert).sublist hu).subset hx)

/-- What the changes keep and all rows before have, all rows have after. -/
theorem forall_rows_of_update {changes : List (Column × Value)}
    {selects : Row → Bool}
    (hchanged : ∀ r, P t r → P t (changed changes r))
    (hupdate : s.update t changes selects = .ok s')
    (h : ∀ u, ∀ r ∈ s.rows u, P u r) : ∀ u, ∀ r ∈ s'.rows u, P u r := by
  intro u
  by_cases hu : u = t
  · subst hu
    obtain ⟨rows, hchange, rfl, -⟩ := update_eq_ok_iff.1 hupdate
    rw [rows_withRows_self]
    refine changeRows_induction (P := fun rows => ∀ x ∈ rows, P u x)
      ?_ hchange fun x hx => h u x ((s.visited_perm u).mem_iff.1 hx)
    intro before r rest hrows _ x hx
    rcases List.mem_append.1 hx with hx | hx
    · exact hrows x (List.mem_append_left _ hx)
    · rcases List.mem_cons.1 hx with rfl | hx
      · exact hchanged r (hrows r (by simp))
      · exact hrows x (by simp [hx])
  · intro x hx
    exact h u x (((Wrote.updated hupdate).sublist hu).subset hx)

theorem forall_rows_of_delete {selects : Row → Bool}
    (hdelete : s.delete t selects = .ok s') (h : ∀ u, ∀ r ∈ s.rows u, P u r) :
    ∀ u, ∀ r ∈ s'.rows u, P u r :=
  fun u r hr => h u r ((delete_sublist hdelete u).subset hr)

end Store

-- ============================================================ typed stores

namespace Store

variable {s s' : Store} {st : Statement}

theorem Typed.insert {t : Table} {given : List (Column × Value)}
    (h : s.Typed) (hgiven : ∀ c v, (c, v) ∈ given → Column.Suits c v)
    (hinsert : s.insert t given = .ok s') : s'.Typed :=
  forall_rows_of_insert (P := fun _ r => Row.Typed r)
    (fun _ hid => (Row.typed_newRow hgiven).identified hid) hinsert h

theorem Typed.update {t : Table} {given : List (Column × Value)}
    {selects : Row → Bool} (h : s.Typed)
    (hgiven : ∀ c v, (c, v) ∈ given → Column.Suits c v)
    (hupdate : s.update t given selects = .ok s') : s'.Typed :=
  forall_rows_of_update (P := fun _ r => Row.Typed r)
    (fun _ hr => hr.changed hgiven) hupdate h

theorem Typed.delete {t : Table} {selects : Row → Bool} (h : s.Typed)
    (hdelete : s.delete t selects = .ok s') : s'.Typed :=
  forall_rows_of_delete (P := fun _ r => Row.Typed r) hdelete h

/-- A typed statement leaves every row typed. -/
theorem Typed.executes (h : s.Typed) (hst : st.Typed)
    (hexecutes : Database.Executes s s' st) : s'.Typed := by
  cases hexecutes with
  | inserted hcolumns hinsert =>
      exact h.insert (fun c v hmem =>
        hst c v (Database.mem_of_mem_columns hcolumns hmem)) hinsert
  | updated hcolumns hupdate =>
      exact h.update (fun c v hmem =>
        hst c v (Database.mem_of_mem_columns hcolumns hmem)) hupdate
  | deleted hdelete => exact h.delete hdelete

/-- So does a loading: the values of the demo organization suit their
columns. -/
theorem Typed.seedDemo (h : s.Typed) (hseed : s.seedDemo = .ok s') :
    s'.Typed := by
  have hentries : ∀ e ∈ Demo.entries, ∀ x ∈ e.row, Column.Suits x.1 x.2 := by
    decide +kernel
  have hretirement : Column.Suits .deletedAt Table.stamp := by
    decide
  refine seedDemo_induction (fun hs hdelete => hs.delete hdelete)
    (fun he hs hinsert => hs.insert (fun c v => hentries _ he (c, v)) hinsert)
    (fun hs hretire => hs.update (fun c v hmem => ?_) hretire) h hseed
  cases List.mem_singleton.1 hmem
  exact hretirement

/-- Of what a typed store holds, reading needs that the order types and
statuses of rules are ids. -/
theorem Typed.identifies (h : s.Typed) : s.Identifies :=
  fun r hr => ⟨h _ r hr .orderTypeId, h _ r hr .statusId⟩

theorem typed_empty : Store.empty.Typed := by
  intro t r hr
  cases hr

end Store

namespace Database.TypedReachable

variable {db : Database}

/-- Along a run of typed statements and loadings every row stays typed. -/
theorem typed_store (h : db.TypedReachable) :
    ready db.store = db ∧ db.store.Reachable ∧ db.store.Typed := by
  induction h with
  | migrated => exact ⟨rfl, .empty, Store.typed_empty⟩
  | wrote _ hst hexecute ih =>
      obtain ⟨-, hreach, htyped⟩ := ih
      obtain ⟨s, s', rfl, rfl, hexecutes⟩ := executes_of_execute hexecute
      obtain ⟨t, hwrote⟩ := hexecutes.exists_wrote
      exact ⟨rfl, hreach.wrote hwrote, htyped.executes hst hexecutes⟩
  | loaded _ hload ih =>
      obtain ⟨hready, hreach, htyped⟩ := ih
      have hseed := hreach.sound.seedDemo_eq
      rw [← hready, hreach.sound.database_seedDemo_eq] at hload
      cases hload
      exact ⟨rfl, hreach.seedDemo hseed, htyped.seedDemo hseed⟩

theorem attempt {st : Statement} (h : db.TypedReachable) (hst : st.Typed) :
    (db.attempt st).TypedReachable := by
  unfold Database.attempt
  split
  · next hexecute => exact h.wrote hst hexecute
  · exact h

end Database.TypedReachable

-- ================================================================== reading

namespace Store

variable {s : Store}

/-- Where rules identify their order types and statuses, a sound store can be
read in every way. -/
theorem Sound.readable (h : s.Sound) (hid : s.Identifies) : s.Readable := by
  obtain ⟨entry, rule, hrecorded, -⟩ := h.exists_recorded hid
  exact {
    users := fun user => ⟨_, hrecorded.activeUser_eq user⟩
    rules := fun ctx =>
      (hrecorded.matchingRules_eq ctx).imp fun _ hread => hread.1
    typedRules := fun t =>
      (hrecorded.rulesForOrderType_eq t).imp fun _ hread => hread.1
    holders := fun p =>
      (hrecorded.positionHolders_eq p).imp fun _ hread => hread.1
    heads := fun q => ⟨_, hrecorded.searchHierarchy_eq q⟩ }

/-- The lookups over a store that can be read all answer. -/
theorem Readable.answers (h : s.Readable) :
    (Database.ready s).directory.Answers where
  users user := (h.users user).imp fun _ hread => mapError_eq_ok_iff.2 hread
  rules ctx := (h.rules ctx).imp fun _ hread => mapError_eq_ok_iff.2 hread
  holders p := (h.holders p).imp fun _ hread => mapError_eq_ok_iff.2 hread
  heads q := (h.heads q).imp fun _ hread => mapError_eq_ok_iff.2 hread

end Store

/-- Where no lookup fails, no decision fails for a lookup. -/
theorem Directory.Answers.answer_ne_directory {d : Directory} (hd : d.Answers)
    (ctx : Context) (explicit : Option UserId) (e : DirectoryError) :
    (d.resolve ctx explicit).answer ≠ .error (.directory e) := by
  intro h
  cases hd.answer_eq_iff.1 h

-- ==================================================================== heads

theorem PositionType.isHead_iff (k : PositionType) :
    k.isHead = true ↔ k.name ∈ guardedTypes := by
  cases k <;> decide

theorem exists_of_mem_guardedTypes :
    ∀ x ∈ guardedTypes, ∃ k ∈ PositionType.all, k.name = x := by
  decide

namespace Store

variable {s : Store} {u : Row} {a : Actor}

/-- The value is the id of a position whose stored type is one that the guard
looks for. -/
def Guarded (s : Store) (v : Value) : Prop :=
  ∃ p ∈ s.rows .positions, p .id = v
    ∧ ∃ x ∈ guardedTypes, p .positionType = .text x

/-- These are the positions on which the guard acts. -/
theorem isHeadPosition_iff {v : Value} :
    s.isHeadPosition v = true ↔ s.Guarded v := by
  simp only [isHeadPosition, List.any_eq_true, Bool.and_eq_true, beq_iff_eq]
  constructor
  · rintro ⟨p, hp, hid, k, -, hk, htype⟩
    exact ⟨p, hp, hid, k.name, k.isHead_iff.1 hk, htype⟩
  · rintro ⟨p, hp, hid, x, hx, htype⟩
    obtain ⟨k, hmem, rfl⟩ := exists_of_mem_guardedTypes x hx
    exact ⟨p, hp, hid, k, hmem, k.isHead_iff.2 hx, htype⟩

/-- Whoever is read is a head exactly where the position is one of these. No
two positions have one id, so the type that was read is the type stored. -/
theorem Sound.isHead_iff (h : s.Sound) (hu : u ∈ s.rows .users)
    (ha : s.actorOf u = .ok a) :
    a.isHead = true
      ↔ ∃ n, a.position = some n ∧ s.Guarded (.integer n) := by
  obtain ⟨e, he, -⟩ := h.exists_entry hu
  rw [actorOf_eq h he] at ha
  cases ha
  rw [he.isHead]
  cases hkind : e.kind with
  | none => simp [he.unplaced hkind]
  | some k =>
      obtain ⟨p, hp, hid, htype⟩ := he.placed k hkind
      rw [he.position] at hid
      constructor
      · intro hk
        obtain ⟨n, hn⟩ := (h.accepts hp).identified rfl
        have hposition := Value.ofOptionalId_eq_integer_iff.1 (hid ▸ hn)
        exact ⟨n, hposition, p, hp, hn, k.name, k.isHead_iff.1 hk, htype⟩
      · rintro ⟨n, hn, p', hp', hid', x, hx, htype'⟩
        rw [hn] at hid
        have heq : p' = p := h.eq_of_id_eq rfl hp' hp (hid'.trans hid.symm)
        rw [heq, htype, Value.text.injEq] at htype'
        exact k.isHead_iff.2 (htype' ▸ hx)

end Store

-- ============================================================== every read

/-- In every database that accepted typed statements and loadings make of a
migrated one, each read gives an answer, whatever it asks for. Whoever is
shown is a head exactly where the stored type of the position is one that the
guard looks for. So no decision fails for a lookup. -/
theorem Database.TypedReachable.reads_succeed {db : Database}
    (h : db.TypedReachable) :
    ready db.store = db
      ∧ db.store.Readable
      ∧ (∀ a, db.directory.Shows a →
          (a.isHead = true
            ↔ ∃ n, a.position = some n ∧ db.store.Guarded (.integer n)))
      ∧ (∀ v, db.store.isHeadPosition v = true ↔ db.store.Guarded v)
      ∧ ∀ ctx explicit e,
          (db.directory.resolve ctx explicit).answer
            ≠ .error (.directory e) := by
  obtain ⟨hready, hreach, htyped⟩ := h.typed_store
  have hreadable := hreach.sound.readable htyped.identifies
  refine ⟨hready, hreadable, fun a ha => ?_,
    fun v => Store.isHeadPosition_iff, ?_⟩
  · rw [← hready] at ha
    obtain ⟨⟨u, hu, hread⟩, -⟩ := hreach.sound.serves_of_shows ha
    exact hreach.sound.isHead_iff hu hread
  · have hanswers := hreadable.answers
    rw [hready] at hanswers
    exact hanswers.answer_ne_directory

/-- A rule of its own for the orders of Finance, whatever their type. -/
def Statement.financeRule : Statement :=
  .insert "order_routing_rules"
    [("id", .integer 4), ("order_type_id", .null),
      ("department_id", .integer 20), ("assign_to_position_id", .integer 2),
      ("status_id", .integer 7)]

/-- The demo organization with that rule. -/
def Database.finance : Database := (ready .demo).attempt .financeRule

/-- Every read succeeds, and the rule sends the orders to the head of Finance,
who is shown as one because the guard looks for the position. -/
theorem Database.finance_reads_succeed :
    finance.TypedReachable
      ∧ finance.store.Readable
      ∧ (finance.directory.resolve
          { orderType := 8, department := some 20 } none).answer
        = .ok {
            executor :=
              { id := 102, department := 20, position := some 2,
                isHead := true }
            status := some 7
            ruleFound := true }
      ∧ finance.store.Guarded (.integer 2) := by
  have hvalues : ∀ x ∈ Statement.financeRule.given, x.2.IsOptionalId := by
    decide
  have htyped : Statement.financeRule.Typed :=
    fun c v hmem => c.suits_of_isOptionalId (hvalues _ hmem)
  have hdemo : (ready Store.demo).TypedReachable :=
    TypedReachable.migrated.loaded
      (congrArg Reported.answer Store.sound_empty.database_seedDemo_eq)
  have h : finance.TypedReachable := hdemo.attempt htyped
  have hanswer : (finance.directory.resolve
        { orderType := 8, department := some 20 } none).answer
      = .ok {
          executor :=
            { id := 102, department := 20, position := some 2, isHead := true }
          status := some 7
          ruleFound := true } := by
    decide +kernel
  obtain ⟨-, hreadable, hheads, -⟩ := h.reads_succeed
  obtain ⟨n, hn, hguarded⟩ := (hheads _ (.executor hanswer)).1 rfl
  cases hn
  exact ⟨h, hreadable, hanswer, hguarded⟩

end WorkRouting
