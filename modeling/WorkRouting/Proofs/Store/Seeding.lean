/-
Loading the demo organization, as a run of writes. Whatever deletions, the
insertion of its entries and the retirement of employees keep, loading keeps
(`Store.seedDemo_induction`); in particular a store that could be reached stays
one (`Reachable.seedDemo`).

What the store held before makes no difference. The tables are cleared in an
order in which no table refers to one before it, so each of them is emptied
when nothing refers to it any more: no deletion is refused, none takes a row of
another table along, and the empty store is left (`Sound.clear_eq`). From there
the outcome can be computed. The employees stand in the order of their ids, in
which an update visits them (`visited_eq_rows`), so no row has to be sorted.
`Store.demo` is that outcome, and `Reachable.seeding_absorbs` says that every
loading ends in it.
-/
import WorkRouting.Proofs.Store.Sound
import WorkRouting.Store.Demo

namespace WorkRouting

-- =================================================================== loading

namespace Store

variable {s s' : Store} {t : Table}

/-- What the writes of a loading keep, loading keeps. -/
theorem seedDemo_induction {P : Store → Prop}
    (hdelete : ∀ {s s' t selects}, P s → s.delete t selects = .ok s' → P s')
    (hinsert : ∀ {s s' e}, e ∈ Demo.entries → P s →
      s.insert e.table e.row = .ok s' → P s')
    (hretire : ∀ {s s' selects}, P s →
      s.update .users [(.deletedAt, Table.stamp)] selects = .ok s' → P s')
    (h : P s) (hseed : s.seedDemo = .ok s') : P s' := by
  unfold seedDemo at hseed
  obtain ⟨cleared, hclear, hseed⟩ := bind_eq_ok_iff.1 hseed
  obtain ⟨filled, hfill, hretired⟩ := bind_eq_ok_iff.1 hseed
  have hcleared : P cleared :=
    foldlM_induction (fun _ _ _ _ hs hdel => hdelete hs hdel) h hclear
  have hfilled : P filled :=
    foldlM_induction (fun _ he _ _ hs hins => hinsert he hs hins)
      hcleared hfill
  exact hretire hfilled hretired

theorem Reachable.seedDemo (h : s.Reachable) (hseed : s.seedDemo = .ok s') :
    s'.Reachable :=
  seedDemo_induction
    (fun hs hdelete => hs.wrote (.deleted hdelete))
    (fun _ hs hinsert => hs.wrote (.inserted hinsert))
    (fun hs hretire => hs.wrote (.updated hretire)) h hseed

theorem Reachable.insertAll {entries : List Demo.Entry} (h : s.Reachable)
    (hinsert : s.insertAll entries = .ok s') : s'.Reachable :=
  foldlM_induction (fun _ _ _ _ hs hins => hs.wrote (.inserted hins)) h hinsert

end Store

-- ================================================================== clearing

/-- Rows of the one table may refer to rows of the other. -/
def Table.RefersTo (u t : Table) : Prop := ∃ ref ∈ u.references, ref.parent = t

instance (u t : Table) : Decidable (u.RefersTo t) :=
  inferInstanceAs (Decidable (∃ ref ∈ u.references, _))

theorem Table.not_refersTo_self (t : Table) : ¬ t.RefersTo t := by
  cases t <;> decide

theorem Table.mem_childrenFirst (t : Table) : t ∈ Table.childrenFirst := by
  cases t <;> decide

/-- In the order of clearing no table refers to one before it. -/
theorem Table.pairwise_childrenFirst :
    Table.childrenFirst.Pairwise fun t u => ¬ u.RefersTo t := by
  decide

namespace Store

variable {s s' : Store} {t : Table}

/-- Where no row refers to a table, its rows can all be deleted, and no other
row goes with them. -/
theorem delete_all_eq (href : s.referencesHold = true)
    (hchildless : ∀ u : Table, u.RefersTo t → s.rows u = []) :
    s.delete t (fun _ => true) = .ok (s.withRows t []) := by
  refine delete_eq_ok_iff.2 ⟨congrArg Store.mk (funext fun u => ?_), ?_⟩
  · by_cases hu : u = t
    · subst hu
      rw [rows_withRows_self, if_pos rfl]
      simp
    · rw [rows_withRows_of_ne hu, if_neg hu, eq_comm, List.filter_eq_self]
      intro r hr
      have hstays : goesWith t ((s.rows t).filter fun _ => true) u r
          = false := by
        rw [goesWith, List.any_eq_false]
        intro ref href' hgoes
        simp only [Bool.and_eq_true, decide_eq_true_eq] at hgoes
        rw [hchildless u ⟨ref, href', hgoes.1.2⟩] at hr
        cases hr
      rw [hstays, Bool.not_false]
  · simp only [referencesHold, List.all_eq_true] at href ⊢
    intro u hu r hr ref href'
    have hne : u ≠ t := by
      rintro rfl
      rw [rows_withRows_self] at hr
      cases hr
    rw [rows_withRows_of_ne hne] at hr
    have hparent : ref.parent ≠ t := by
      intro hparent
      rw [hchildless u ⟨ref, href', hparent⟩] at hr
      cases hr
    rw [follows, rows_withRows_of_ne hparent]
    exact href u hu r hr ref href'

/-- Clearing goes on as it began: the tables still to come keep their rows, the
others are empty, and whatever refers to the next table is among these. -/
theorem clear_rest {ts : List Table}
    (hts : ts.Pairwise fun t u => ¬ u.RefersTo t)
    (href : s.referencesHold = true)
    (hcleared : ∀ u, u ∉ ts → s.rows u = []) :
    ts.foldlM (fun s t => s.delete t fun _ => true) s = .ok .empty := by
  induction ts generalizing s with
  | nil =>
      have hempty : s = .empty :=
        congrArg Store.mk (funext fun u => hcleared u List.not_mem_nil)
      rw [List.foldlM_nil, hempty]
      rfl
  | cons t rest ih =>
      obtain ⟨hfirst, hrest⟩ := List.pairwise_cons.1 hts
      have hdelete : s.delete t (fun _ => true) = .ok (s.withRows t []) := by
        refine delete_all_eq href fun u hu => hcleared u fun hmem => ?_
        rcases List.mem_cons.1 hmem with rfl | hmem
        · exact u.not_refersTo_self hu
        · exact hfirst u hmem hu
      rw [List.foldlM_cons, hdelete]
      refine ih hrest (delete_eq_ok_iff.1 hdelete).2 fun u hu => ?_
      by_cases hut : u = t
      · rw [hut, rows_withRows_self]
      · rw [rows_withRows_of_ne hut]
        refine hcleared u fun hmem => ?_
        rcases List.mem_cons.1 hmem with heq | hmem
        · exact hut heq
        · exact hu hmem

/-- Clearing succeeds on every sound store and leaves the empty one. -/
theorem Sound.clear_eq (h : s.Sound) : s.clear = .ok .empty :=
  clear_rest Table.pairwise_childrenFirst h.references
    fun u hu => absurd u.mem_childrenFirst hu

-- ======================================================== rows in order of id

/-- A row that an update visits before another. -/
def visitedBefore (a b : Row) : Bool :=
  match a .id, b .id with
  | .integer x, .integer y => x ≤ y
  | _, _ => true

/-- Rows that stand in the order of their ids are visited as they stand. -/
theorem visited_eq_rows
    (h : (s.rows t).Pairwise fun a b => visitedBefore a b = true) :
    s.visited t = s.rows t := by
  unfold visited
  split
  · exact List.mergeSort_of_pairwise h
  · rfl

/-- There an update goes through the rows from the first to the last. -/
theorem update_eq_of_ordered {changes : List (Column × Value)}
    {selects : Row → Bool}
    (h : (s.rows t).Pairwise fun a b => visitedBefore a b = true) :
    s.update t changes selects
      = (do
          let rows ← s.changeRows t changes selects [] (s.rows t)
          (s.withRows t rows).settled) := by
  unfold update
  rw [visited_eq_rows h]

-- =========================================================== the organization

/-- The store in an answer, the empty one where there is none. -/
def answered : Except StoreError Store → Store
  | .ok s => s
  | .error _ => .empty

theorem eq_ok_answered {x : Except StoreError Store} (h : x.toBool = true) :
    x = .ok (answered x) := by
  cases x with
  | ok s => rfl
  | error e => cases h

/-- The demo organization before anybody has retired. -/
def demoFilled : Store := answered (Store.empty.insertAll Demo.entries)

/-- The demo organization. -/
def demo : Store :=
  answered do
    let rows ← demoFilled.changeRows .users [(.deletedAt, Table.stamp)]
      (· .id == .integer Demo.retired) [] (demoFilled.rows .users)
    (demoFilled.withRows .users rows).settled

/-- Whatever a sound store held, loading succeeds and leaves the demo
organization. -/
theorem Sound.seedDemo_eq (h : s.Sound) : s.seedDemo = .ok demo := by
  have hfill : Store.empty.insertAll Demo.entries = .ok demoFilled :=
    eq_ok_answered (by decide +kernel)
  have hordered : (demoFilled.rows .users).Pairwise
      fun a b => visitedBefore a b = true := by
    decide +kernel
  refine bind_eq_ok_iff.2 ⟨.empty, h.clear_eq, ?_⟩
  refine bind_eq_ok_iff.2 ⟨demoFilled, hfill, ?_⟩
  rw [update_eq_of_ordered hordered]
  exact eq_ok_answered (by decide +kernel)

theorem seedDemo_empty : Store.empty.seedDemo = .ok demo :=
  sound_empty.seedDemo_eq

theorem summary_demo : demo.summary = ⟨4, 8, 7, 3⟩ := by
  decide +kernel

end Store

-- ================================================================ absorption

namespace Database

/-- The database after a loading; a refused one leaves it as it was. -/
def loaded (db : Database) : Database :=
  match db.seedDemo.answer with
  | .ok (db', _) => db'
  | .error _ => db

end Database

namespace Store

variable {s : Store}

/-- An attempted statement leads from a store that can be reached to
another. -/
theorem Reachable.exists_attempt (h : s.Reachable) (st : Statement) :
    ∃ s', (Database.ready s).attempt st = .ready s' ∧ s'.Reachable := by
  unfold Database.attempt
  split
  · next hexecute =>
      obtain ⟨s₀, t, s', hs₀, rfl, hwrote⟩ :=
        Database.wrote_of_execute hexecute
      cases hs₀
      exact ⟨s', rfl, h.wrote hwrote⟩
  · exact ⟨s, rfl, h⟩

theorem Reachable.exists_foldl_attempt (h : s.Reachable)
    (sts : List Statement) :
    ∃ s', sts.foldl Database.attempt (.ready s) = .ready s'
      ∧ s'.Reachable := by
  induction sts generalizing s with
  | nil => exact ⟨s, rfl, h⟩
  | cons st rest ih =>
      obtain ⟨s', hs', hreach⟩ := h.exists_attempt st
      rw [List.foldl_cons, hs']
      exact ih hreach

theorem Sound.database_seedDemo_eq (h : s.Sound) :
    (Database.ready s).seedDemo
      = ⟨.ok (.ready demo, ⟨4, 8, 7, 3⟩), [.demoOrgSeeded 4 8 3]⟩ := by
  unfold Database.seedDemo
  dsimp only
  rw [h.seedDemo_eq]
  dsimp only
  rw [summary_demo]

theorem Sound.loaded_eq (h : s.Sound) :
    (Database.ready s).loaded = .ready demo := by
  rw [Database.loaded, h.database_seedDemo_eq]

/-- Loading absorbs whatever was written before it. From every store that
accepted writes lead to, loadings included, it succeeds with one summary and
one content; rows are all stamped alike, so this is the content apart from the
moments of writing. Statements before it make no difference, a loading before
it makes none, and it does what loading into empty tables does. Without the
tables it fails and changes nothing. -/
theorem Reachable.seeding_absorbs (h : s.Reachable) :
    (Database.ready s).seedDemo
        = ⟨.ok (.ready demo, ⟨4, 8, 7, 3⟩), [.demoOrgSeeded 4 8 3]⟩
      ∧ (∀ sts : List Statement,
          (sts.foldl Database.attempt (.ready s)).seedDemo
            = (Database.ready .empty).seedDemo)
      ∧ (Database.ready s).loaded.loaded = (Database.ready s).loaded
      ∧ (Database.ready s).loaded.seedDemo = (Database.ready s).seedDemo
      ∧ Database.blank.seedDemo = ⟨.error (.noTable "user_permissions"), []⟩
      ∧ Database.blank.loaded = .blank := by
  have hdemo : demo.Reachable := h.seedDemo h.sound.seedDemo_eq
  refine ⟨h.sound.database_seedDemo_eq, fun sts => ?_, ?_, ?_, rfl, rfl⟩
  · obtain ⟨s', hs', hreach⟩ := h.exists_foldl_attempt sts
    rw [hs', hreach.sound.database_seedDemo_eq,
      sound_empty.database_seedDemo_eq]
  · rw [h.sound.loaded_eq, hdemo.sound.loaded_eq]
  · rw [h.sound.loaded_eq, hdemo.sound.database_seedDemo_eq,
      h.sound.database_seedDemo_eq]

/-- An organization in the way of the demo: its department and its head have
ids of the demo's, its head is somebody else, and its role has the name of the
demo's under another id. -/
def rival : Store :=
  answered (Store.empty.insertAll
    [Demo.department 10 "Sales",
      Demo.position 1 "Head of Sales" .headOfDepartment 10 none none none,
      Demo.user 900 "Vera Head" 10 none none none 1,
      Demo.rule 1 3 (some 10) none 1 9,
      ⟨.roles, [Demo.num .id 7, Demo.txt .name "operator"]⟩,
      Demo.rolePermission 7 "orders:view",
      ⟨.userRoles, [Demo.num .userId 900, Demo.num .roleId 7]⟩,
      Demo.userPermission 900 "scope:all" 1])

theorem rival_absorbed :
    rival.Reachable ∧ rival.summary = ⟨1, 1, 1, 1⟩
      ∧ (Database.ready rival).seedDemo.answer
        = .ok (.ready demo, ⟨4, 8, 7, 3⟩) := by
  have hreach : rival.Reachable :=
    Reachable.empty.insertAll (eq_ok_answered (by decide +kernel))
  refine ⟨hreach, by decide +kernel, ?_⟩
  rw [hreach.seeding_absorbs.1]

end Store

end WorkRouting
