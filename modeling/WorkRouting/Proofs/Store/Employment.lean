/-
When an employee may be written. A statement about one employee has to pass the
guard on head positions, what must be present, the key, and, once the row is
there, the references. Together they ask for what `Store.Employable` says of
the row beside those that are there, and for a free id if the row is new.

Two of the checks do not look at just that. References are checked all over the
store; but in a sound store the others held before, and they still do, since
the statement takes no id away (`Sound.referencesHold_withRows_iff`). And the
guard runs on an update only where the position or the retirement is written.
Elsewhere a row holds the positions that it held, and if every head position
had one holder before, it has no rival (`Sound.guard_iff`): where the guard is
left out, it would have passed.
-/
import WorkRouting.Proofs.Store.HeadPosition

namespace WorkRouting

/-- A column of text holds null for null alone. -/
theorem Affinity.apply_text_eq_null_iff {v : Value} :
    Affinity.text.apply v = .null ↔ v = .null := by
  cases v <;> simp [Affinity.apply]

namespace Store

-- ============================================================== vocabulary

/-- Every reference of the row is open or leads to a row. -/
def Refers (s : Store) (t : Table) (r : Row) : Prop :=
  ∀ ref ∈ t.references, r ref.column ≠ .null →
    ∃ p ∈ s.rows ref.parent, p .id = r ref.column

/-- No head position that the row holds is held by another employee. -/
def Unrivalled (s : Store) (r : Row) : Prop :=
  ∀ p ∈ s.rows .positions, p.isHead = true → r.holds (p .id) = true →
    ∀ o ∈ s.rows .users, o .id ≠ r .id → o.holds (p .id) = false

/-- What a row of an employee must be: named, in a department, with references
that lead to rows, and in no head position that another active employee
holds. -/
structure Employable (s : Store) (r : Row) : Prop where
  named : r .fio ≠ .null
  placed : r .departmentId ≠ .null
  referred : s.Refers .users r
  unrivalled : s.Unrivalled r

instance (s : Store) (t : Table) (r : Row) : Decidable (s.Refers t r) :=
  inferInstanceAs (Decidable (∀ ref ∈ t.references, _))

instance (s : Store) (r : Row) : Decidable (s.Unrivalled r) :=
  inferInstanceAs (Decidable (∀ p ∈ s.rows .positions, _))

instance (s : Store) (r : Row) : Decidable (s.Employable r) :=
  decidable_of_iff
    (r .fio ≠ .null ∧ r .departmentId ≠ .null ∧ s.Refers .users r
      ∧ s.Unrivalled r)
    ⟨fun ⟨h₁, h₂, h₃, h₄⟩ => ⟨h₁, h₂, h₃, h₄⟩,
      fun h => ⟨h.named, h.placed, h.referred, h.unrivalled⟩⟩

/-- From one store to the next a row of an employee is written, in the place of
the one with its id if there is one, and nothing else. -/
structure Enters (s s' : Store) (r : Row) : Prop where
  users : (s'.rows .users).Perm
    (r :: (s.rows .users).filter fun o => o .id != r .id)
  others : ∀ t, t ≠ .users → s'.rows t = s.rows t

/-- A statement is accepted exactly under a condition. Then it writes one row
of an employee and leaves every head position one holder; otherwise it leaves
the store as it was. -/
structure TakesOn (s : Store) (st : Statement) (r : Row) (p : Prop) :
    Prop where
  accepted_iff :
    (∃ written, (Database.ready s).execute st = .ok written) ↔ p
  refused : ¬ p → (Database.ready s).attempt st = .ready s
  accepted : ∀ db n, (Database.ready s).execute st = .ok (db, n) →
    n = 1 ∧ ∃ s', db = .ready s' ∧ s.Enters s' r ∧ s'.SingleHeads

variable {s s' : Store} {r u : Row} {rows before rest : List Row}
  {given changes : List (Column × Value)} {selects : Row → Bool}

-- ============================================================= the new row

theorem newRow_id {n : Int64} (h : given.lookup .id = some (.integer n)) :
    newRow .users given .id = .integer n := by
  have hid : newRow .users given .id
      = Affinity.integer.apply ((given.lookup .id).getD (Table.absent .id)) :=
    rfl
  rw [hid, h]
  rfl

/-- A new row is stamped unless it is told not to be. -/
theorem newRow_createdAt_ne_null (h : given.lookup .createdAt ≠ some .null) :
    newRow .users given .createdAt ≠ .null := by
  have hcreated : newRow .users given .createdAt
      = Affinity.text.apply
          ((given.lookup .createdAt).getD (Table.absent .createdAt)) :=
    rfl
  rw [hcreated, Ne, Affinity.apply_text_eq_null_iff]
  cases hlookup : given.lookup .createdAt with
  | none => exact Value.noConfusion
  | some v =>
      rintro rfl
      exact h hlookup

theorem Sound.changed_createdAt_ne_null (h : s.Sound) (hu : u ∈ s.rows .users)
    (hchanges : changes.lookup .createdAt ≠ some .null) :
    changed changes u .createdAt ≠ .null := by
  unfold changed
  split
  · next v hlookup =>
      rw [Ne, show Column.createdAt.affinity = .text from rfl,
        Affinity.apply_text_eq_null_iff]
      rintro rfl
      exact hchanges hlookup
  · exact (h.accepts hu).present .createdAt (by decide)

-- ============================================================== the checks

/-- What an employee must be by itself and beside others, apart from the
references and the guard. -/
theorem Sound.conforms_users_eq_ok_iff (h : s.Sound) {others : List Row}
    (hothers : ∀ o ∈ others, o ∈ s.rows .users) {n : Int64}
    (hid : r .id = .integer n) (hcreated : r .createdAt ≠ .null) :
    conforms .users others r = .ok ()
      ↔ r .fio ≠ .null ∧ r .departmentId ≠ .null
        ∧ ∀ o ∈ others, o .id ≠ r .id := by
  have hapart : (∀ o ∈ others, (o .id).same (r .id) = false)
      ↔ ∀ o ∈ others, o .id ≠ r .id := by
    refine forall₂_congr fun o ho => ?_
    obtain ⟨m, hm⟩ := (h.accepts (hothers o ho)).identified rfl
    rw [hm, hid, ← Bool.not_eq_true]
    exact not_congr Value.integer_same_iff
  rw [conforms_eq_ok_iff, ← hapart]
  simp [Table.mandatory, Table.permits, Table.Apart, Table.keys, hcreated,
    and_assoc]

/-- The guard refuses a row over a head position that it shares with a
rival. -/
theorem Sound.takesOccupied_iff (h : s.Sound) {rivals : List Row} :
    s.takesOccupied r rivals = true
      ↔ ∃ p ∈ s.rows .positions, p.isHead = true ∧ r.holds (p .id) = true
        ∧ ∃ w ∈ rivals, w.holds (p .id) = true := by
  simp only [takesOccupied, Row.holds, Bool.and_eq_true, bne_iff_ne,
    isHeadPosition_eq_true_iff, List.any_eq_true, beq_iff_eq]
  constructor
  · rintro ⟨⟨⟨hactive, -⟩, p, hp, hid, hhead⟩, w, hw, hposition, hholds⟩
    exact ⟨p, hp, hhead, ⟨hactive, hid.symm⟩, w, hw, hholds,
      hposition.trans hid.symm⟩
  · rintro ⟨p, hp, hhead, ⟨hactive, hid⟩, w, hw, hholds, hposition⟩
    have hopen : r .positionId ≠ .null := hid ▸ h.id_ne_null hp
    exact ⟨⟨⟨hactive, hopen⟩, p, hp, hid.symm, hhead⟩, w, hw,
      hposition.trans hid.symm, hholds⟩

/-- References hold all over a store exactly if those of every row do. -/
theorem referencesHold_iff :
    s.referencesHold = true ↔ ∀ t, ∀ x ∈ s.rows t, s.Refers t x := by
  have hall : ∀ t : Table, t ∈ Table.all := by
    intro t
    cases t <;> decide
  simp only [referencesHold, List.all_eq_true, follows, Bool.or_eq_true,
    List.any_eq_true, beq_iff_eq, Refers, or_iff_not_imp_left, hall,
    forall_const, Ne]

/-- A row of an employee that leaves every id in its place is settled exactly
if its own references lead to rows. -/
theorem Sound.referencesHold_withRows_iff (h : s.Sound)
    (hnew : r ∈ rows) (hold : ∀ x ∈ rows, x = r ∨ x ∈ s.rows .users)
    (hids : ∀ x ∈ s.rows .users, ∃ y ∈ rows, y .id = x .id) :
    (s.withRows .users rows).referencesHold = true ↔ s.Refers .users r := by
  have hparent : ∀ ref ∈ Table.users.references, ref.parent ≠ .users :=
    fun ref href heq => Table.not_refersTo_self .users ⟨ref, href, heq⟩
  rw [referencesHold_iff]
  constructor
  · intro hall ref href hopen
    have hr := hall .users r (by rwa [rows_withRows_self]) ref href hopen
    rwa [rows_withRows_of_ne (hparent ref href)] at hr
  · intro hr t x hx ref href hopen
    have hbefore : ∃ p ∈ s.rows ref.parent, p .id = x ref.column := by
      by_cases ht : t = .users
      · subst ht
        rw [rows_withRows_self] at hx
        rcases hold x hx with rfl | hmem
        · exact hr ref href hopen
        · exact h.exists_parent hmem ref href hopen
      · rw [rows_withRows_of_ne ht] at hx
        exact h.exists_parent hx ref href hopen
    obtain ⟨p, hp, hid⟩ := hbefore
    by_cases hpu : ref.parent = .users
    · rw [hpu] at hp ⊢
      rw [rows_withRows_self]
      obtain ⟨y, hy, hyp⟩ := hids p hp
      exact ⟨y, hy, hyp.trans hid⟩
    · rw [rows_withRows_of_ne hpu]
      exact ⟨p, hp, hid⟩

/-- The guard against everybody else asks that no head position is shared. -/
theorem Sound.unrivalled_iff (h : s.Sound) {all : List Row}
    (hall : ∀ o, o ∈ all ↔ o ∈ s.rows .users) :
    ¬ s.takesOccupied r (all.filter fun o => o .id != r .id) = true
      ↔ s.Unrivalled r := by
  rw [h.takesOccupied_iff]
  simp only [List.mem_filter, bne_iff_ne, hall]
  constructor
  · intro hnone p hp hhead hr o ho hne
    refine eq_false_of_ne_true fun hholds => hnone ?_
    exact ⟨p, hp, hhead, hr, o, ⟨ho, hne⟩, hholds⟩
  · rintro hnone ⟨p, hp, hhead, hr, o, ⟨ho, hne⟩, hholds⟩
    rw [hnone p hp hhead hr o ho hne] at hholds
    cases hholds

/-- A row that stays where it was has no rival: it would have had one
before. -/
theorem unrivalled_of_not_touchesHolding (hsingle : s.SingleHeads)
    (hu : u ∈ s.rows .users) (hid : changed changes u .id = u .id)
    (htouch : ¬ touchesHolding changes = true) :
    s.Unrivalled (changed changes u) := by
  intro p hp hhead hr o ho hne
  rw [holds_changed htouch] at hr
  refine eq_false_of_ne_true fun hholds => hne ?_
  rw [eq_of_countP_le_one (hsingle p hp hhead) ho hu hholds hr, hid]

/-- So the guard may be left out where the position and the retirement are not
written. -/
theorem Sound.guard_iff (h : s.Sound) (hsingle : s.SingleHeads)
    (hu : u ∈ s.rows .users) (hid : changed changes u .id = u .id)
    {all : List Row} (hall : ∀ o, o ∈ all ↔ o ∈ s.rows .users) :
    ¬ (touchesHolding changes = true
        ∧ s.takesOccupied (changed changes u)
            (all.filter fun o => o .id != changed changes u .id) = true)
      ↔ s.Unrivalled (changed changes u) := by
  by_cases htouch : touchesHolding changes = true
  · rw [and_iff_right htouch]
    exact h.unrivalled_iff hall
  · exact iff_of_true (fun hguard => htouch hguard.1)
      (unrivalled_of_not_touchesHolding hsingle hu hid htouch)

-- ========================================================== the statements

/-- An employee is inserted under a free id exactly as far as employable. -/
theorem Sound.insert_users_eq_ok_iff (h : s.Sound) {n : Int64}
    (hid : newRow .users given .id = .integer n)
    (hcreated : newRow .users given .createdAt ≠ .null) :
    s.insert .users given = .ok s'
      ↔ s' = s.withRows .users (s.rows .users ++ [newRow .users given])
        ∧ (∀ u ∈ s.rows .users, u .id ≠ .integer n)
        ∧ s.Employable (newRow .users given) := by
  have hidentified : s.identified .users (newRow .users given)
      = .ok (newRow .users given) := by
    rw [identified, hid]
    rfl
  have hsettled : (s.withRows .users
        (s.rows .users ++ [newRow .users given])).referencesHold = true
      ↔ s.Refers .users (newRow .users given) :=
    h.referencesHold_withRows_iff (by simp) (by simp [or_comm])
      fun x hx => ⟨x, by simp [hx], rfl⟩
  have hguard (hfree : ∀ u ∈ s.rows .users, u .id ≠ .integer n) :
      ¬ s.takesOccupied (newRow .users given) (s.rows .users) = true
        ↔ s.Unrivalled (newRow .users given) := by
    rw [← h.unrivalled_iff fun _ => Iff.rfl, List.filter_eq_self.2]
    intro o ho
    rw [bne_iff_ne, hid]
    exact hfree o ho
  rw [insert_eq_ok_iff]
  constructor
  · rintro ⟨r, hr, hocc, hconforms, rfl, href⟩
    rw [hidentified] at hr
    cases hr
    obtain ⟨hnamed, hplaced, hfree⟩ :=
      (h.conforms_users_eq_ok_iff (fun _ => id) hid hcreated).1 hconforms
    rw [hid] at hfree
    exact ⟨rfl, hfree, hnamed, hplaced, hsettled.1 href,
      (hguard hfree).1 fun hocc' => hocc ⟨rfl, hocc'⟩⟩
  · rintro ⟨rfl, hfree, hnamed, hplaced, hrefers, hunrivalled⟩
    refine ⟨_, hidentified, fun hocc => (hguard hfree).2 hunrivalled hocc.2,
      ?_, rfl, hsettled.2 hrefers⟩
    rw [h.conforms_users_eq_ok_iff (fun _ => id) hid hcreated, hid]
    exact ⟨hnamed, hplaced, hfree⟩

section update

variable (h : s.Sound) (hperm : (s.rows .users).Perm (before ++ u :: rest))
  (hid : changed changes u .id = u .id)

include h hperm

/-- No other employee has the id of one. -/
theorem Sound.id_ne_of_perm : ∀ o ∈ before ++ rest, o .id ≠ u .id := by
  have hids := h.ids_nodup (t := .users) rfl
  rw [((hperm.trans List.perm_middle).map _).nodup_iff, List.map_cons,
    List.nodup_cons] at hids
  intro o ho heq
  exact hids.1 (heq ▸ List.mem_map_of_mem ho)

/-- A condition that selects one employee selects no other. -/
theorem Sound.unselected
    (hselects : ∀ v ∈ s.rows .users, selects v = true ↔ v = u) :
    ∀ x ∈ before ++ rest, selects x = false := by
  intro x hx
  have hmem : x ∈ s.rows .users :=
    hperm.mem_iff.2 (List.perm_middle.mem_iff.2 (List.mem_cons_of_mem u hx))
  refine eq_false_of_ne_true fun hselected => h.id_ne_of_perm hperm x hx ?_
  rw [(hselects x hmem).1 hselected]

theorem Sound.count_eq_one
    (hselects : ∀ v ∈ s.rows .users, selects v = true ↔ v = u) :
    s.count .users selects = 1 := by
  have hu : selects u = true := (hselects u (hperm.mem_iff.2 (by simp))).2 rfl
  have hothers : (before ++ rest).countP selects = 0 := by
    rw [List.countP_eq_zero]
    intro x hx
    rw [h.unselected hperm hselects x hx]
    exact Bool.false_ne_true
  rw [count, (hperm.trans List.perm_middle).countP_eq, List.countP_cons,
    hothers, if_pos hu]

include hid

/-- A change of one employee is admitted if it names and places the employee
and brings nobody into a head position that is held. -/
theorem Sound.admitChange_users_eq_ok_iff (hsingle : s.SingleHeads)
    (hcreated : changed changes u .createdAt ≠ .null) :
    s.admitChange .users changes (before ++ u :: rest) (before ++ rest)
        (changed changes u) = .ok ()
      ↔ changed changes u .fio ≠ .null
        ∧ changed changes u .departmentId ≠ .null
        ∧ s.Unrivalled (changed changes u) := by
  have hu : u ∈ s.rows .users := hperm.mem_iff.2 (by simp)
  obtain ⟨n, hn⟩ : ∃ n, changed changes u .id = .integer n :=
    hid ▸ (h.accepts hu).identified rfl
  have hothers : ∀ o ∈ before ++ rest, o ∈ s.rows .users := fun o ho =>
    hperm.mem_iff.2 (List.perm_middle.mem_iff.2 (List.mem_cons_of_mem u ho))
  have hapart : ∀ o ∈ before ++ rest, o .id ≠ changed changes u .id :=
    hid ▸ h.id_ne_of_perm hperm
  rw [admitChange_eq_ok_iff, h.conforms_users_eq_ok_iff hothers hn hcreated,
    ← h.guard_iff hsingle hu hid fun _ => hperm.symm.mem_iff]
  constructor
  · rintro ⟨-, hguard, hnamed, hplaced, -⟩
    exact ⟨hnamed, hplaced, fun hocc => hguard ⟨rfl, hocc⟩⟩
  · rintro ⟨hnamed, hplaced, hguard⟩
    exact ⟨fun _ => ⟨n, hn⟩, fun hocc => hguard hocc.2, hnamed, hplaced,
      hapart⟩

theorem Sound.referencesHold_changed_iff :
    (s.withRows .users (before ++ changed changes u :: rest)).referencesHold
        = true
      ↔ s.Refers .users (changed changes u) := by
  refine h.referencesHold_withRows_iff (by simp) ?_ ?_
  · intro x hx
    rcases List.mem_cons.1 (List.perm_middle.mem_iff.1 hx) with rfl | hx
    · exact Or.inl rfl
    · exact Or.inr (hperm.mem_iff.2
        (List.perm_middle.mem_iff.2 (List.mem_cons_of_mem u hx)))
  · intro x hx
    rcases List.mem_cons.1 (List.perm_middle.mem_iff.1 (hperm.mem_iff.1 hx))
      with rfl | hx
    · exact ⟨changed changes x, by simp, hid⟩
    · exact ⟨x, List.perm_middle.mem_iff.2 (List.mem_cons_of_mem _ hx), rfl⟩

end update

/-- An employee is changed under the same id exactly as far as employable
afterwards. -/
theorem Sound.update_users_eq_ok_iff (h : s.Sound) (hsingle : s.SingleHeads)
    (hvisited : s.visited .users = before ++ u :: rest)
    (hselects : ∀ v ∈ s.rows .users, selects v = true ↔ v = u)
    (hid : changed changes u .id = u .id)
    (hcreated : changed changes u .createdAt ≠ .null) :
    s.update .users changes selects = .ok s'
      ↔ s' = s.withRows .users (before ++ changed changes u :: rest)
        ∧ s.Employable (changed changes u) := by
  have hperm : (s.rows .users).Perm (before ++ u :: rest) :=
    hvisited ▸ (s.visited_perm .users).symm
  have hskipped := h.unselected hperm hselects
  have hu : selects u = true := (hselects u (hperm.mem_iff.2 (by simp))).2 rfl
  have hadmit := h.admitChange_users_eq_ok_iff hperm hid hsingle hcreated
  have hsettled := h.referencesHold_changed_iff hperm hid
  rw [update_eq_ok_iff, hvisited, changeRows_eq_of_single hu
    (fun x hx => hskipped x (List.mem_append_left rest hx))
    (fun x hx => hskipped x (List.mem_append_right before hx))]
  constructor
  · rintro ⟨rows, hrows, rfl, href⟩
    obtain ⟨_, hadmitted, rfl⟩ := map_eq_ok_iff.1 hrows
    obtain ⟨hnamed, hplaced, hunrivalled⟩ := hadmit.1 hadmitted
    exact ⟨rfl, hnamed, hplaced, hsettled.1 href, hunrivalled⟩
  · rintro ⟨rfl, hnamed, hplaced, hrefers, hunrivalled⟩
    refine ⟨_, map_eq_ok_iff.2 ⟨(), hadmit.2 ⟨hnamed, hplaced, hunrivalled⟩,
      rfl⟩, rfl, hsettled.2 hrefers⟩

-- ============================================================ the new store

/-- Beside a row stand those that do not have its id. -/
theorem Sound.filter_ids_perm (h : s.Sound)
    (hperm : (s.rows .users).Perm (before ++ u :: rest)) :
    ((s.rows .users).filter fun o => o .id != u .id).Perm
      (before ++ rest) := by
  have hothers : (before ++ rest).filter (fun o => o .id != u .id)
      = before ++ rest := by
    rw [List.filter_eq_self]
    intro o ho
    rw [bne_iff_ne]
    exact h.id_ne_of_perm hperm o ho
  refine ((hperm.trans List.perm_middle).filter _).trans ?_
  rw [List.filter_cons_of_neg (by simp), hothers]

theorem enters_of_insert (hfree : ∀ o ∈ s.rows .users, o .id ≠ r .id) :
    s.Enters (s.withRows .users (s.rows .users ++ [r])) r := by
  constructor
  · rw [rows_withRows_self, List.filter_eq_self.2]
    · exact List.perm_append_singleton r _
    · intro o ho
      rw [bne_iff_ne]
      exact hfree o ho
  · intro t ht
    exact rows_withRows_of_ne ht

theorem Sound.enters_of_update (h : s.Sound)
    (hperm : (s.rows .users).Perm (before ++ u :: rest))
    (hid : r .id = u .id) :
    s.Enters (s.withRows .users (before ++ r :: rest)) r := by
  constructor
  · rw [rows_withRows_self, hid]
    exact List.perm_middle.trans ((h.filter_ids_perm hperm).symm.cons r)
  · intro t ht
    exact rows_withRows_of_ne ht

/-- A write to the employees crowds no position. -/
theorem Sound.singleHeads_of_wrote (h : s.Sound) (hsingle : s.SingleHeads)
    (hw : s.Wrote .users s') : s'.SingleHeads :=
  (hw.singleHeads_iff h hsingle).2 (h.not_crowds_of_ne hw (by decide))

/-- A head position that its holder leaves has none. -/
theorem Enters.holders_eq_zero (h : s.Enters s' r) (hsingle : s.SingleHeads)
    {p : Row} (hp : p ∈ s.rows .positions) (hhead : p.isHead = true)
    (hu : u ∈ s.rows .users) (hid : r .id = u .id)
    (hholds : u.holds (p .id) = true) (hleaves : r.holds (p .id) = false) :
    s'.holders (p .id) = 0 := by
  rw [holders, h.users.countP_eq, List.countP_eq_zero]
  intro x hx
  rcases List.mem_cons.1 hx with rfl | hx
  · rw [hleaves]
    exact Bool.false_ne_true
  · obtain ⟨hmem, hne⟩ := List.mem_filter.1 hx
    rw [bne_iff_ne, hid] at hne
    intro hother
    rw [eq_of_countP_le_one (hsingle p hp hhead) hmem hu hother hholds] at hne
    exact hne rfl

-- ============================================================== statements

/-- How a statement about the employees comes out is how the write does. -/
theorem execute_insert_users {row : List (String × Value)}
    (hgiven : Database.columns .users true row = .ok given) :
    (Database.ready s).execute (.insert "users" row)
      = (s.insert .users given).map fun s' => (.ready s', 1) := by
  have hfind : Table.all.find? (·.name == "users") = some .users := by
    decide
  simp only [Database.execute, Database.storeFor, Statement.table, hfind,
    hgiven, bind, Except.bind, pure, Except.pure]
  cases s.insert .users given <;> rfl

theorem execute_update_users {named condition : List (String × Value)}
    {asked : List (Column × Value)}
    (hchanges : Database.columns .users false named = .ok changes)
    (hasked : Database.columns .users false condition = .ok asked) :
    (Database.ready s).execute (.update "users" named condition)
      = (s.update .users changes (Database.meets asked)).map fun s' =>
          (.ready s', s.count .users (Database.meets asked)) := by
  have hfind : Table.all.find? (·.name == "users") = some .users := by
    decide
  simp only [Database.execute, Database.storeFor, Statement.table, hfind,
    hchanges, hasked, bind, Except.bind, pure, Except.pure]
  cases s.update .users changes (Database.meets asked) <;> rfl

/-- A statement takes on an employee if the write behind it does. -/
theorem TakesOn.of_execute {st : Statement} {p : Prop}
    {write : Except StoreError Store} {written : Store} (h : s.Sound)
    (hsingle : s.SingleHeads)
    (hexecute : (Database.ready s).execute st
      = write.map fun s' => (.ready s', 1))
    (hwrote : ∀ s', write = .ok s' → s.Wrote .users s')
    (hwrite : ∀ s', write = .ok s' ↔ s' = written ∧ p)
    (henters : p → s.Enters written r) : s.TakesOn st r p where
  accepted_iff := by
    rw [hexecute]
    constructor
    · rintro ⟨_, hread⟩
      obtain ⟨s', hs', -⟩ := map_eq_ok_iff.1 hread
      exact ((hwrite s').1 hs').2
    · intro hp
      exact ⟨_, map_eq_ok_iff.2 ⟨written, (hwrite written).2 ⟨rfl, hp⟩, rfl⟩⟩
  refused := by
    intro hp
    cases hs : write with
    | error e =>
        rw [Database.attempt, hexecute, hs]
        rfl
    | ok s' => exact absurd ((hwrite s').1 hs).2 hp
  accepted := by
    intro db n hread
    rw [hexecute] at hread
    obtain ⟨s', hs', heq⟩ := map_eq_ok_iff.1 hread
    cases heq
    have hsingle' := h.singleHeads_of_wrote hsingle (hwrote s' hs')
    obtain ⟨rfl, hp⟩ := (hwrite s').1 hs'
    exact ⟨rfl, s', rfl, henters hp, hsingle'⟩

/-- Which statements about one employee are accepted. In every store that
accepted writes lead to and in which every head position has at most one active
holder, a new employee is accepted exactly under a free id and as far as
employable, and a changed one exactly as far as employable. What is accepted
writes that row and leaves every head position one holder, and one that its
holder leaves has none; what is refused writes nothing. -/
theorem Reachable.employment (h : s.Reachable) (hsingle : s.SingleHeads) :
    (∀ row given n, Database.columns .users true row = .ok given →
        given.lookup .id = some (.integer n) →
        given.lookup .createdAt ≠ some .null →
        s.TakesOn (.insert "users" row) (newRow .users given)
          ((∀ u ∈ s.rows .users, u .id ≠ .integer n)
            ∧ s.Employable (newRow .users given)))
      ∧ ∀ named condition changes asked u,
          Database.columns .users false named = .ok changes →
          Database.columns .users false condition = .ok asked →
          u ∈ s.rows .users →
          (∀ v ∈ s.rows .users, Database.meets asked v = true ↔ v = u) →
          changed changes u .id = u .id →
          changes.lookup .createdAt ≠ some .null →
          s.TakesOn (.update "users" named condition) (changed changes u)
              (s.Employable (changed changes u))
            ∧ ∀ p ∈ s.rows .positions, p.isHead = true →
                u.holds (p .id) = true →
                (changed changes u).holds (p .id) = false →
                ∀ s' n, (Database.ready s).execute
                    (.update "users" named condition) = .ok (.ready s', n) →
                  s'.holders (p .id) = 0 := by
  refine ⟨?_, ?_⟩
  · intro row given n hgiven hlookup hcreated
    have hid := newRow_id hlookup
    exact .of_execute h.sound hsingle (execute_insert_users hgiven)
      (fun _ => .inserted)
      (fun _ => h.sound.insert_users_eq_ok_iff hid
        (newRow_createdAt_ne_null hcreated))
      fun hp => enters_of_insert (hid ▸ hp.1)
  · intro named condition changes asked u hchanges hasked hu hselects hid
      hcreated
    obtain ⟨before, rest, hvisited⟩ :=
      List.append_of_mem ((s.visited_perm .users).mem_iff.2 hu)
    have hperm : (s.rows .users).Perm (before ++ u :: rest) :=
      hvisited ▸ (s.visited_perm .users).symm
    have hexecute := execute_update_users (s := s) hchanges hasked
    rw [h.sound.count_eq_one hperm hselects] at hexecute
    have htakes : s.TakesOn (.update "users" named condition)
        (changed changes u) (s.Employable (changed changes u)) :=
      .of_execute h.sound hsingle hexecute (fun _ => .updated)
        (fun _ => h.sound.update_users_eq_ok_iff hsingle hvisited hselects hid
          (h.sound.changed_createdAt_ne_null hu hcreated))
        fun _ => h.sound.enters_of_update hperm hid
    refine ⟨htakes, fun p hp hhead hholds hleaves s' n hread => ?_⟩
    obtain ⟨-, _, heq, henters, -⟩ := htakes.accepted _ _ hread
    cases heq
    exact henters.holders_eq_zero hsingle hp hhead hu hid hholds hleaves

/-- The head of Finance retires. -/
def retirement : Statement :=
  .update "users" [("deleted_at", .text "2024-01-01")] [("id", .integer 102)]

/-- A second head of Finance. -/
def secondHead : Statement :=
  .insert "users"
    [("id", .integer 120), ("fio", .text "Second Head"),
      ("department_id", .integer 20), ("position_id", .integer 2)]

/-- In the demo organization a second head of Finance is refused, and nothing
is written. Once the head retires nobody holds the position. -/
theorem demo_employment :
    demo.Reachable ∧ demo.SingleHeads
      ∧ (Database.ready demo).attempt secondHead = .ready demo
      ∧ ∃ s', (Database.ready demo).execute retirement = .ok (.ready s', 1)
          ∧ s'.holders (.integer 2) = 0 := by
  have hreach : demo.Reachable := Reachable.empty.seedDemo seedDemo_empty
  have hsingle : demo.SingleHeads := by decide +kernel
  obtain ⟨hinsert, hupdate⟩ := hreach.employment hsingle
  refine ⟨hreach, hsingle, ?_, ?_⟩
  · have htakes : demo.TakesOn secondHead _ _ :=
      hinsert _ _ 120 rfl rfl (by decide)
    exact htakes.refused (by decide +kernel)
  · have hrow : ∃ u ∈ demo.rows .users, u .id = .integer 102
        ∧ u.holds (.integer 2) = true
        ∧ (changed [(.deletedAt, .text "2024-01-01")] u).holds (.integer 2)
            = false
        ∧ demo.Employable (changed [(.deletedAt, .text "2024-01-01")] u) := by
      decide +kernel
    obtain ⟨u, hu, hid, hholds, hleaves, hemployable⟩ := hrow
    have hselects : ∀ v ∈ demo.rows .users,
        Database.meets [(.id, .integer 102)] v = true ↔ v = u := by
      intro v hv
      have hmeets : Database.meets [(.id, .integer 102)] v = true
          ↔ v .id = .integer 102 := by
        simp [Database.meets, Column.affinity, Affinity.apply]
      rw [hmeets]
      constructor
      · intro hv102
        exact hreach.sound.eq_of_id_eq rfl hv hu (hv102.trans hid.symm)
      · rintro rfl
        exact hid
    have hposition : ∃ p ∈ demo.rows .positions, p.isHead = true
        ∧ p .id = .integer 2 := by
      decide +kernel
    obtain ⟨p, hp, hhead, hpid⟩ := hposition
    obtain ⟨htakes, hfreed⟩ := hupdate [("deleted_at", .text "2024-01-01")]
      [("id", .integer 102)] _ _ u rfl rfl hu hselects rfl (by decide)
    obtain ⟨⟨db, n⟩, hread⟩ := htakes.accepted_iff.2 hemployable
    obtain ⟨rfl, s', rfl, -, -⟩ := htakes.accepted _ _ hread
    rw [← hpid] at hholds hleaves ⊢
    exact ⟨s', hread, hfreed p hp hhead hholds hleaves s' 1 hread⟩

end Store

end WorkRouting
