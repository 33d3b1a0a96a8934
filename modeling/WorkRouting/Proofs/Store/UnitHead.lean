/-
The head of a unit. An order that no rule matches goes to the head of its unit,
who is searched for by the kind of the position and the units of the employee.
`Store.heads` are those whom a search could answer with: active employees whose
rows are read as employees that the search accepts. The search itself reads
them in the order of their ids and takes the first
(`Sound.searchHierarchy_eq`).

What the store guards is a position: it has one active holder if its type is
one of a head. So each head holds a position of the type sought that no other
head holds (`Uncrowded.positions_nodup`), and there are as many heads at most
as there are positions of the type. That is not one head for a unit, because
nothing keeps two positions of one type from being filled in one unit
(`twoHeads_sought`).
-/
import Mathlib.Data.List.Perm.Subperm
import WorkRouting.Proofs.Routing.Decision
import WorkRouting.Proofs.Store.HeadPosition
import WorkRouting.Proofs.Store.Reading

namespace WorkRouting

open Roster (Entry)

namespace Store

variable {s s' : Store} {t : Table} {q : HierarchyQuery} {ctx : Context}
  {u : Row} {e : Entry}

-- ================================================================= the heads

/-- Whether a search is for the active employee in a row. -/
def seeks (s : Store) (q : HierarchyQuery) (u : Row) : Bool :=
  isActive u && match s.actorOf u, s.kindOf u with
    | .ok a, .ok (some kind) => q.accepts a kind
    | _, _ => false

/-- The active employees that a search is for. -/
def heads (s : Store) (q : HierarchyQuery) : List Row :=
  (s.rows .users).filter (s.seeks q)

theorem Records.seeks_eq (h : s.Records u e) (hs : s.Sound)
    (q : HierarchyQuery) : s.seeks q u = (isActive u && e.soughtBy q) := by
  unfold seeks
  rw [actorOf_eq hs h, kindOf_eq hs h]
  unfold Entry.soughtBy
  cases e.kind <;> rfl

/-- The search reads the first of them by id. -/
theorem Sound.searchHierarchy_eq (h : s.Sound) (q : HierarchyQuery) :
    s.searchHierarchy q = s.firstActor (sortedBy Row.idKey (s.heads q)) := by
  unfold searchHierarchy activeUsers heads
  congr 2
  refine List.filter_congr fun u hu => ?_
  obtain ⟨e, he, -⟩ := h.exists_entry hu
  rw [he.seeks_eq h]
  exact congrArg (isActive u && ·) (he.sought_eq h q)

-- ============================================================ their positions

/-- Only heads are responsible for a unit. -/
theorem isHead_of_ofContext (hq : HierarchyQuery.ofContext ctx = some q) :
    q.kind.isHead = true := by
  have hkind := HierarchyQuery.responsible_of_ofContext hq
  revert hkind
  unfold Context.responsible
  grind [PositionType.isHead]

/-- A head is an active employee in a position of the type sought. -/
theorem Sound.exists_position (h : s.Sound) (hu : u ∈ s.heads q) :
    ∃ p ∈ s.rows .positions, p .id = u .positionId
      ∧ p .positionType = .text q.kind.name ∧ u.holds (p .id) = true := by
  obtain ⟨hmem, hseeks⟩ := List.mem_filter.1 hu
  obtain ⟨e, he, -⟩ := h.exists_entry hmem
  rw [he.seeks_eq h, Bool.and_eq_true] at hseeks
  obtain ⟨hactive, hsought⟩ := hseeks
  unfold Entry.soughtBy at hsought
  split at hsought
  · cases hsought
  · next kind hkind =>
      obtain ⟨p, hp, hid, htype⟩ := he.placed kind hkind
      simp only [HierarchyQuery.accepts, Bool.and_eq_true,
        beq_iff_eq] at hsought
      refine ⟨p, hp, hid, hsought.1 ▸ htype, ?_⟩
      rw [Row.holds, hactive, hid, beq_self_eq_true, Bool.and_self]

theorem isHead_of_type {p : Row} {k : PositionType} (hk : k.isHead = true)
    (hp : p .positionType = .text k.name) : p.isHead = true := by
  rw [Row.isHead, List.any_eq_true]
  exact ⟨k, k.mem_all, by rw [hk, hp, beq_self_eq_true, Bool.and_self]⟩

namespace Uncrowded

/-- No two heads of a unit hold the same position. -/
theorem eq_of_position_eq (h : s.Uncrowded)
    (hq : HierarchyQuery.ofContext ctx = some q) {v : Row}
    (hu : u ∈ s.heads q) (hv : v ∈ s.heads q)
    (hposition : u .positionId = v .positionId) : u = v := by
  obtain ⟨p, hp, hid, htype, hholds⟩ :=
    h.reachable.sound.exists_position hu
  obtain ⟨p', -, hid', -, hholds'⟩ := h.reachable.sound.exists_position hv
  have hone :=
    h.singleHeads p hp (isHead_of_type (isHead_of_ofContext hq) htype)
  rw [hid', ← hposition, ← hid] at hholds'
  exact eq_of_countP_le_one hone (List.mem_filter.1 hu).1
    (List.mem_filter.1 hv).1 hholds hholds'

theorem positions_nodup (h : s.Uncrowded)
    (hq : HierarchyQuery.ofContext ctx = some q) :
    ((s.heads q).map (· .positionId)).Nodup := by
  have hrows : (s.heads q).Nodup :=
    (List.Nodup.of_map _ (h.reachable.sound.ids_nodup rfl)).filter _
  exact hrows.map_on fun u hu v hv => h.eq_of_position_eq hq hu hv

/-- There are as many heads at most as positions of the type. -/
theorem length_heads_le (h : s.Uncrowded)
    (hq : HierarchyQuery.ofContext ctx = some q) :
    (s.heads q).length
      ≤ (s.rows .positions).countP
          (· .positionType == .text q.kind.name) := by
  have hsub : (s.heads q).map (· .positionId)
      ⊆ ((s.rows .positions).filter
          (· .positionType == .text q.kind.name)).map (· .id) := by
    intro v hv
    obtain ⟨u, hu, rfl⟩ := List.mem_map.1 hv
    obtain ⟨p, hp, hid, htype, -⟩ := h.reachable.sound.exists_position hu
    exact List.mem_map.2
      ⟨p, List.mem_filter.2 ⟨hp, by rw [htype, beq_self_eq_true]⟩, hid⟩
  have hlength :=
    (List.subperm_of_subset (h.positions_nodup hq) hsub).length_le
  rwa [List.length_map, List.length_map,
    ← List.countP_eq_length_filter] at hlength

/-- A unit has one head at most exactly where all its heads are in one
position. -/
theorem length_heads_le_one_iff (h : s.Uncrowded)
    (hq : HierarchyQuery.ofContext ctx = some q) :
    (s.heads q).length ≤ 1
      ↔ ∀ u ∈ s.heads q, ∀ v ∈ s.heads q, u .positionId = v .positionId := by
  have hnodup := h.positions_nodup hq
  match hheads : s.heads q with
  | [] => simp
  | [w] => simp
  | u :: v :: rest =>
      rw [hheads, List.map_cons, List.map_cons, List.nodup_cons] at hnodup
      constructor
      · intro hlength
        simp at hlength
      · intro hsame
        have heq := hsame u (by simp) v (by simp)
        exact absurd (by simp [heq]) hnodup.1

end Uncrowded

-- ========================================================== added positions

/-- The stores that accepted writes make of the empty one where positions are
only added. -/
inductive Staffed : Store → Prop
  | empty : Staffed .empty
  | added {s s' : Store} {given : List (Column × Value)} :
      Staffed s → s.insert .positions given = .ok s' → Staffed s'
  | wrote {s s' : Store} {t : Table} :
      Staffed s → t ≠ .positions → s.Wrote t s' → Staffed s'

namespace Staffed

/-- A position that is added crowds nobody, and other tables do not matter. -/
theorem uncrowded (h : s.Staffed) : s.Uncrowded := by
  induction h with
  | empty => exact .empty
  | added _ hinsert ih => exact ih.insert hinsert
  | wrote _ ht hw ih =>
      exact ih.wrote hw (ih.reachable.sound.not_crowds_of_ne hw ht)

theorem insert {given : List (Column × Value)} (h : s.Staffed)
    (hinsert : s.insert t given = .ok s') : s'.Staffed := by
  by_cases ht : t = .positions
  · subst ht
    exact h.added hinsert
  · exact h.wrote ht (.inserted hinsert)

theorem insertAll {entries : List Demo.Entry} (h : s.Staffed)
    (hinsert : s.insertAll entries = .ok s') : s'.Staffed :=
  foldlM_induction (fun _ _ _ _ hs hins => hs.insert hins) h hinsert

end Staffed

-- ============================================================ heads of a unit

/-- As long as no write crowds a position, in particular where positions are
only added, the heads of a unit are in different positions. So there are at
most as many as there are positions of the type that is responsible, and one
at most exactly where they share a position. Among several the search takes
the one with the lowest id. -/
theorem Uncrowded.heads_by_position (h : s.Uncrowded)
    (hq : HierarchyQuery.ofContext ctx = some q) :
    ((s.heads q).map (· .positionId)).Nodup
      ∧ (s.heads q).length
          ≤ (s.rows .positions).countP (· .positionType == .text q.kind.name)
      ∧ ((s.heads q).length ≤ 1
          ↔ ∀ u ∈ s.heads q, ∀ v ∈ s.heads q,
              u .positionId = v .positionId)
      ∧ s.searchHierarchy q
          = s.firstActor (sortedBy Row.idKey (s.heads q)) :=
  ⟨h.positions_nodup hq, h.length_heads_le hq, h.length_heads_le_one_iff hq,
    h.reachable.sound.searchHierarchy_eq q⟩

/-- A department with two positions for its head, both filled. -/
def twoHeads : Store :=
  answered (Store.empty.insertAll
    [Demo.department 10 "IT",
      Demo.position 1 "Head of IT" .headOfDepartment 10 none none none,
      Demo.position 2 "Second Head of IT" .headOfDepartment 10 none none none,
      Demo.user 101 "Irina Head" 10 none none none 1,
      Demo.user 102 "Second Head" 10 none none none 2])

theorem twoHeads_staffed : twoHeads.Staffed :=
  Staffed.empty.insertAll (eq_ok_answered (by decide +kernel))

/-- The search for the head of that department. -/
def headOfIt : HierarchyQuery := ⟨.headOfDepartment, [.department 10]⟩

/-- The two heads are in two positions, and there are no more of the type. -/
theorem twoHeads_by_position :
    twoHeads.Uncrowded
      ∧ HierarchyQuery.ofContext { orderType := 3, department := some 10 }
          = some headOfIt
      ∧ ((twoHeads.heads headOfIt).map (· .positionId)).Nodup
      ∧ (twoHeads.heads headOfIt).length ≤ 2 := by
  have hq : HierarchyQuery.ofContext { orderType := 3, department := some 10 }
      = some headOfIt := rfl
  have hcount : (twoHeads.rows .positions).countP
      (· .positionType == .text headOfIt.kind.name) = 2 := by
    decide +kernel
  obtain ⟨hnodup, hlength, -⟩ :=
    twoHeads_staffed.uncrowded.heads_by_position hq
  rw [hcount] at hlength
  exact ⟨twoHeads_staffed.uncrowded, hq, hnodup, hlength⟩

/-- Positions were only added, and yet two active employees are found when the
head of the department is searched for. -/
theorem twoHeads_sought :
    twoHeads.Staffed
      ∧ HierarchyQuery.ofContext { orderType := 3, department := some 10 }
          = some headOfIt
      ∧ (twoHeads.heads headOfIt).map (· .id)
          = [.integer 101, .integer 102] :=
  ⟨twoHeads_staffed, rfl, by decide +kernel⟩

end Store

end WorkRouting
