/-
Head positions and their holders. A position of a head type is meant to have
one active holder; `Store.SingleHeads` is that invariant. The guard on
employees compares a new holder with the others, and it is all there is: no
write to the positions looks at who holds them.

So the invariant is kept up to one kind of write. `Store.Crowds` says that a
write gives a head type to a position that several active employees hold
already, and `Wrote.singleHeads_iff` that a write keeps the invariant exactly
when it does not crowd a position. The step goes by the table that is written:

- a write to the employees leaves the positions as they are, and the guard
  lets a row become a holder only where there is no other (`holders_le_one`);
- any other write adds no holder, and a position that is new has none, because
  all references held before it was there (`Sound.holders_eq_zero`).

By induction over the writes, the invariant holds in every store that is
reached without crowding (`Uncrowded.singleHeads`), and loading the demo
organization crowds nothing (`Uncrowded.seedDemo`).
-/
import WorkRouting.Proofs.Store.Seeding

namespace WorkRouting

-- ============================================================== vocabulary

/-- A position of a head type. -/
def Row.isHead (p : Row) : Bool :=
  PositionType.all.any fun k => k.isHead && p .positionType == .text k.name

/-- An active employee in the position with an id. -/
def Row.holds (v : Value) (u : Row) : Bool :=
  Store.isActive u && u .positionId == v

namespace Store

variable {s s' : Store} {t u : Table} {v : Value}

/-- How many active employees are in the position with an id. -/
def holders (s : Store) (v : Value) : Nat :=
  (s.rows .users).countP (Row.holds v)

/-- Every head position has at most one active holder. -/
def SingleHeads (s : Store) : Prop :=
  ∀ p ∈ s.rows .positions, p.isHead = true → s.holders (p .id) ≤ 1

instance (s : Store) : Decidable s.SingleHeads :=
  inferInstanceAs (Decidable (∀ p ∈ s.rows .positions, _))

/-- From one store to the next a position with several active holders comes
to be of a head type. -/
def Crowds (s s' : Store) : Prop :=
  ∃ p ∈ s.rows .positions, ∃ p' ∈ s'.rows .positions,
    p' .id = p .id ∧ p.isHead = false ∧ p'.isHead = true
      ∧ 2 ≤ s.holders (p .id)

theorem isHeadPosition_eq_true_iff :
    s.isHeadPosition v = true
      ↔ ∃ p ∈ s.rows .positions, p .id = v ∧ p.isHead = true := by
  rw [isHeadPosition, List.any_eq_true]
  simp only [Bool.and_eq_true, beq_iff_eq]
  rfl

theorem isHeadPosition_of_mem {p : Row} (hp : p ∈ s.rows .positions)
    (hhead : p.isHead = true) : s.isHeadPosition (p .id) = true :=
  isHeadPosition_eq_true_iff.2 ⟨p, hp, rfl, hhead⟩

/-- Of elements that are counted once there is one. -/
theorem eq_of_countP_le_one {p : Row → Bool} {rows : List Row} {u v : Row}
    (h : rows.countP p ≤ 1) (hu : u ∈ rows) (hv : v ∈ rows)
    (hpu : p u = true) (hpv : p v = true) : u = v := by
  rw [List.countP_eq_length_filter] at h
  have hu' := List.mem_filter.2 ⟨hu, hpu⟩
  have hv' := List.mem_filter.2 ⟨hv, hpv⟩
  match hrows : rows.filter p with
  | [] =>
      rw [hrows] at hu'
      cases hu'
  | [w] =>
      rw [hrows, List.mem_singleton] at hu' hv'
      rw [hu', hv']
  | _ :: _ :: _ =>
      rw [hrows] at h
      simp at h

-- =========================================================== the employees

/-- Past the guard, who comes to hold a head position has no rival there. -/
theorem not_holds_of_guard {r : Row} {rivals : List Row} (hv : v ≠ .null)
    (hhead : s.isHeadPosition v = true) (hr : r.holds v = true)
    (hguard : ¬ s.takesOccupied r rivals = true) :
    ∀ w ∈ rivals, ¬ w.holds v = true := by
  simp only [Row.holds, Bool.and_eq_true, beq_iff_eq] at hr ⊢
  obtain ⟨hactive, rfl⟩ := hr
  rintro w hw ⟨hw₁, hw₂⟩
  refine hguard ?_
  simp only [takesOccupied, hactive, hhead, Bool.true_and, Bool.and_true,
    Bool.and_eq_true, bne_iff_ne, List.any_eq_true, beq_iff_eq]
  exact ⟨hv, w, hw, hw₂, hw₁⟩

/-- What a change does not touch, a changed row has as before. -/
theorem holds_changed {changes : List (Column × Value)} {r : Row}
    (h : ¬ touchesHolding changes = true) :
    (changed changes r).holds v = r.holds v := by
  have hlookup : ∀ c : Column, c = .positionId ∨ c = .deletedAt →
      changes.lookup c = none := by
    intro c hc
    rw [List.lookup_eq_none_iff]
    intro change hmem
    rw [touchesHolding, List.any_eq_true] at h
    by_contra hne
    refine h ⟨change, hmem, ?_⟩
    have heq : c = change.1 := by
      simpa using hne
    simpa [← heq] using hc
  simp only [Row.holds, isActive, changed, hlookup .positionId (Or.inl rfl),
    hlookup .deletedAt (Or.inr rfl)]

/-- One admitted change leaves a head position with one holder. A row that
becomes a holder meets no rival, and one that stays a holder was counted. -/
theorem countP_holds_changed_le {changes : List (Column × Value)}
    {before rest : List Row} {r : Row} (hv : v ≠ .null)
    (hhead : s.isHeadPosition v = true)
    (hadmitted : s.admitChange .users changes (before ++ r :: rest)
      (before ++ rest) (changed changes r) = .ok ())
    (h : (before ++ r :: rest).countP (Row.holds v) ≤ 1) :
    (before ++ changed changes r :: rest).countP (Row.holds v) ≤ 1 := by
  obtain ⟨-, hguard, hconforms⟩ := admitChange_eq_ok_iff.1 hadmitted
  rw [List.perm_middle.countP_eq, List.countP_cons] at h ⊢
  by_cases hr : (changed changes r).holds v = true
  · by_cases htouch : touchesHolding changes = true
    · have hnone : (before ++ rest).countP (Row.holds v) = 0 := by
        rw [List.countP_eq_zero]
        intro w hw
        refine not_holds_of_guard hv hhead hr
          (fun hocc => hguard ⟨rfl, htouch, hocc⟩) w ?_
        obtain ⟨-, -, hapart⟩ := conforms_eq_ok_iff.1 hconforms
        rw [List.mem_filter, bne_iff_ne]
        exact ⟨List.perm_middle.mem_iff.2 (List.mem_cons_of_mem r hw),
          (hapart w hw).id_ne rfl⟩
      simp only [hnone, if_pos hr, Nat.zero_add, Nat.le_refl]
    · rw [holds_changed htouch]
      exact h
  · rw [if_neg hr]
    omega

/-- A write to the employees leaves a head position with one holder. -/
theorem holders_le_one (hw : s.Wrote .users s') (hv : v ≠ .null)
    (hhead : s.isHeadPosition v = true) (h : s.holders v ≤ 1) :
    s'.holders v ≤ 1 := by
  cases hw with
  | inserted hinsert =>
      obtain ⟨r, -, hguard, -, rfl, -⟩ := insert_eq_ok_iff.1 hinsert
      rw [holders, rows_withRows_self, List.countP_append,
        List.countP_singleton]
      by_cases hr : r.holds v = true
      · have hnone : (s.rows .users).countP (Row.holds v) = 0 :=
          List.countP_eq_zero.2 (not_holds_of_guard hv hhead hr
            fun hocc => hguard ⟨rfl, hocc⟩)
        simp only [hnone, if_pos hr, Nat.zero_add, Nat.le_refl]
      · rw [if_neg hr]
        exact h
  | updated hupdate =>
      obtain ⟨rows, hchange, rfl, -⟩ := update_eq_ok_iff.1 hupdate
      rw [holders, rows_withRows_self]
      refine changeRows_induction
        (P := fun rows => rows.countP (Row.holds v) ≤ 1)
        (fun before r rest hle hadmitted =>
          countP_holds_changed_le hv hhead hadmitted hle) hchange ?_
      rw [List.nil_append, (s.visited_perm .users).countP_eq]
      exact h
  | deleted hdelete =>
      exact Nat.le_trans (delete_sublist hdelete .users).countP_le h

-- ======================================================== the other tables

/-- Nobody holds a position that is not there. -/
theorem Sound.holders_eq_zero (h : s.Sound) (hv : v ≠ .null)
    (hnone : ∀ p ∈ s.rows .positions, p .id ≠ v) : s.holders v = 0 := by
  rw [holders, List.countP_eq_zero]
  intro w hw hholds
  simp only [Row.holds, Bool.and_eq_true, beq_iff_eq] at hholds
  obtain ⟨-, rfl⟩ := hholds
  obtain ⟨p, hp, hid⟩ :=
    h.exists_parent hw ⟨.positionId, .positions, false⟩ (by decide) hv
  exact hnone p hp hid

theorem Sound.id_ne_null (h : s.Sound) {p : Row} (hp : p ∈ s.rows .positions) :
    p .id ≠ .null := by
  obtain ⟨n, hn⟩ := (h.accepts hp).identified rfl
  rw [hn]
  exact Value.noConfusion

/-- Positions that were there before, or are new, crowd nobody. -/
theorem Sound.not_crowds (h : s.Sound)
    (hpositions : ∀ p' ∈ s'.rows .positions, p' ∈ s.rows .positions
      ∨ ∀ p ∈ s.rows .positions, p .id ≠ p' .id) :
    ¬ s.Crowds s' := by
  rintro ⟨p, hp, p', hp', hid, hbefore, hafter, -⟩
  rcases hpositions p' hp' with hmem | hnew
  · rw [h.eq_of_id_eq rfl hmem hp hid, hbefore] at hafter
    cases hafter
  · exact hnew p hp hid.symm

/-- A write to another table leaves the positions as they are. -/
theorem Sound.not_crowds_of_ne (h : s.Sound) (hw : s.Wrote t s')
    (ht : t ≠ .positions) : ¬ s.Crowds s' :=
  h.not_crowds fun _ hp => Or.inl ((hw.sublist (Ne.symm ht)).subset hp)

-- ================================================================ the step

/-- A write keeps one holder for every head position exactly when it crowds
none. -/
theorem Wrote.singleHeads_iff (hw : s.Wrote t s') (hs : s.Sound)
    (h : s.SingleHeads) : s'.SingleHeads ↔ ¬ s.Crowds s' := by
  constructor
  · -- positions change their type only where nobody leaves
    rintro hsingle ⟨p, hp, p', hp', hid, hbefore, hafter, htwo⟩
    have hcrowds : s.Crowds s' :=
      ⟨p, hp, p', hp', hid, hbefore, hafter, htwo⟩
    by_cases ht : t = .positions
    · subst ht
      rcases hw.frame with hsame | hsub
      · have hone := hsingle p' hp' hafter
        rw [hid, holders, hsame .users (by decide)] at hone
        exact absurd hone (Nat.not_le.2 htwo)
      · exact hs.not_crowds
          (fun q hq => Or.inl ((hsub .positions).subset hq)) hcrowds
    · exact hs.not_crowds_of_ne hw ht hcrowds
  · intro hcrowds p' hp' hafter
    have hv := (hw.sound hs).id_ne_null hp'
    by_cases ht : t = .users
    · subst ht
      have hp := (hw.sublist (u := .positions) (by decide)).subset hp'
      exact holders_le_one hw hv (isHeadPosition_of_mem hp hafter)
        (h p' hp hafter)
    · refine Nat.le_trans (hw.sublist (Ne.symm ht)).countP_le ?_
      by_cases hold : ∃ p ∈ s.rows .positions, p .id = p' .id
      · obtain ⟨p, hp, hid⟩ := hold
        by_contra htwo
        refine hcrowds ⟨p, hp, p', hp', hid.symm, ?_, hafter, ?_⟩
        · by_contra hhead
          refine htwo ?_
          rw [← hid]
          exact h p hp (eq_true_of_ne_false hhead)
        · rw [hid]
          exact Nat.not_le.1 htwo
      · have hnone : s.holders (p' .id) = 0 :=
          hs.holders_eq_zero hv fun p hp hid => hold ⟨p, hp, hid⟩
        rw [← holders, hnone]
        exact Nat.zero_le 1

end Store

-- ================================================================= the runs

/-- The stores that accepted writes make of the empty one without crowding a
position. -/
inductive Store.Uncrowded : Store → Prop
  | empty : Uncrowded .empty
  | wrote {s s' : Store} {t : Table} :
      Uncrowded s → s.Wrote t s' → ¬ s.Crowds s' → Uncrowded s'

namespace Store.Uncrowded

variable {s s' : Store}

theorem reachable (h : s.Uncrowded) : s.Reachable := by
  induction h with
  | empty => exact .empty
  | wrote _ hwrote _ ih => exact ih.wrote hwrote

/-- Without crowding every head position keeps to one holder. -/
theorem singleHeads (h : s.Uncrowded) : s.SingleHeads := by
  induction h with
  | empty =>
      intro p hp
      cases hp
  | wrote hs hwrote hcrowds ih =>
      exact (hwrote.singleHeads_iff hs.reachable.sound ih).2 hcrowds

/-- A deletion only takes positions away. -/
theorem delete {t : Table} {selects : Row → Bool} (h : s.Uncrowded)
    (hdelete : s.delete t selects = .ok s') : s'.Uncrowded := by
  refine h.wrote (.deleted hdelete)
    (h.reachable.sound.not_crowds fun p' hp' => Or.inl ?_)
  exact (delete_sublist hdelete .positions).subset hp'

/-- A position that is inserted has an id that no other has. -/
theorem insert {t : Table} {given : List (Column × Value)} (h : s.Uncrowded)
    (hinsert : s.insert t given = .ok s') : s'.Uncrowded := by
  have hw : s.Wrote t s' := .inserted hinsert
  refine h.wrote hw (h.reachable.sound.not_crowds fun p' hp' => ?_)
  by_cases ht : t = .positions
  · subst ht
    obtain ⟨r, -, -, hconforms, rfl, -⟩ := insert_eq_ok_iff.1 hinsert
    rw [rows_withRows_self] at hp'
    rcases List.mem_append.1 hp' with hold | hnew
    · exact Or.inl hold
    · rw [List.mem_singleton.1 hnew]
      refine Or.inr fun p hp => ?_
      obtain ⟨-, -, hapart⟩ := conforms_eq_ok_iff.1 hconforms
      exact (hapart p hp).id_ne rfl
  · exact Or.inl ((hw.sublist (Ne.symm ht)).subset hp')

/-- An update of employees leaves the positions as they are. -/
theorem updateUsers {changes : List (Column × Value)} {selects : Row → Bool}
    (h : s.Uncrowded) (hupdate : s.update .users changes selects = .ok s') :
    s'.Uncrowded := by
  have hw : s.Wrote .users s' := .updated hupdate
  exact h.wrote hw (h.reachable.sound.not_crowds_of_ne hw (by decide))

/-- Loading the demo organization crowds nobody, whatever was there. -/
theorem seedDemo (h : s.Uncrowded) (hseed : s.seedDemo = .ok s') :
    s'.Uncrowded :=
  seedDemo_induction (fun hs hdelete => hs.delete hdelete)
    (fun _ hs hinsert => hs.insert hinsert)
    (fun hs hretire => hs.updateUsers hretire) h hseed

/-- As long as no write crowds a position, every head position has at most one
active holder, and the first write that breaks this is one that crowds a
position: whatever else is written, loading the demo organization included,
keeps it. -/
theorem single_until_crowded (h : s.Uncrowded) :
    s.SingleHeads
      ∧ (∀ t s', s.Wrote t s' → (s'.SingleHeads ↔ ¬ s.Crowds s'))
      ∧ ∀ s', s.seedDemo = .ok s' → s'.Uncrowded :=
  ⟨h.singleHeads,
    fun _ _ hw => hw.singleHeads_iff h.reachable.sound h.singleHeads,
    fun _ hseed => h.seedDemo hseed⟩

/-- The demo organization has one holder for every head position. -/
theorem demo_single : Store.demo.Uncrowded ∧ Store.demo.SingleHeads := by
  have h : Store.demo.Uncrowded := Uncrowded.empty.seedDemo seedDemo_empty
  exact ⟨h, h.single_until_crowded.1⟩

end Store.Uncrowded

namespace Store

/-- The demo organization with a second specialist at the service desk. -/
def joined : Store :=
  answered (demo.insert .users
    [(.id, .integer 114), (.fio, .text "Second Specialist"),
      (.departmentId, .integer 10), (.positionId, .integer 22)])

/-- What makes the specialists' position one of a manager. -/
def promotion : List (Column × Value) :=
  [(.positionType, .text PositionType.managerOfOtdel.name)]

def promotes (p : Row) : Bool := p .id == .integer 22

/-- The organization after the promotion of the position. -/
def crowded : Store :=
  answered do
    let rows ← joined.changeRows .positions promotion promotes []
      (joined.rows .positions)
    (joined.withRows .positions rows).settled

/-- Both writes are accepted, and then a head position has two active
holders. -/
theorem crowded_not_single : crowded.Reachable ∧ ¬ crowded.SingleHeads := by
  have hjoin : demo.insert .users _ = .ok joined :=
    eq_ok_answered (by decide +kernel)
  have hordered : (joined.rows .positions).Pairwise
      fun a b => visitedBefore a b = true := by
    decide +kernel
  have hpromote : joined.update .positions promotion promotes
      = .ok crowded := by
    rw [update_eq_of_ordered hordered]
    exact eq_ok_answered (by decide +kernel)
  have hreach : demo.Reachable := Reachable.empty.seedDemo seedDemo_empty
  exact ⟨(hreach.wrote (.inserted hjoin)).wrote (.updated hpromote),
    by decide +kernel⟩

end Store

end WorkRouting
