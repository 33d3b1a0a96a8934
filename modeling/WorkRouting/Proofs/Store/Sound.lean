/-
What holds of every store that accepted writes lead to, table by table and over
the references between tables.

`Store.Sound` is the invariant. It says of each table that its rows are rows
the table accepts by itself — under an id where rows have one, nothing
mandatory missing, only allowed values — and that no two of them share a key;
and of the store that every reference leads to a row. None of this is looked
up anywhere in the store, so it has to be carried: `Store.Wrote.sound` is the
step, one case per statement, and `Store.Reachable.sound` the run.

From it follow the facts that reading relies on. A row is found by its id and
no other row is (`Store.Sound.eq_of_id_eq`), and what a row refers to is there
(`Store.Sound.exists_parent`).
-/
import Mathlib.Data.List.Nodup
import WorkRouting.Proofs.Store.Write
import WorkRouting.Proofs.Text

namespace WorkRouting

-- =============================================================== one table

/-- A row that a table accepts, whatever else it holds. -/
structure Table.Accepts (t : Table) (r : Row) : Prop where
  identified : t.hasId = true → ∃ n, r .id = .integer n
  present : ∀ c ∈ t.mandatory, r c ≠ .null
  permitted : t.permits r = true

/-- Rows that a table accepts and that share no key. -/
structure Table.Sound (t : Table) (rows : List Row) : Prop where
  accepted : ∀ r ∈ rows, t.Accepts r
  apart : rows.Pairwise t.Apart

namespace Table.Sound

variable {t : Table} {rows rows' before rest : List Row} {r r' : Row}

theorem nil : t.Sound [] :=
  ⟨fun _ h => (List.not_mem_nil h).elim, List.Pairwise.nil⟩

theorem sublist (h : t.Sound rows) (hsub : rows'.Sublist rows) :
    t.Sound rows' :=
  ⟨fun r hr => h.accepted r (hsub.subset hr), h.apart.sublist hsub⟩

theorem perm (h : t.Sound rows) (hperm : rows.Perm rows') : t.Sound rows' :=
  ⟨fun r hr => h.accepted r (hperm.mem_iff.2 hr),
    hperm.pairwise h.apart fun hab => hab.symm⟩

/-- One more row, apart from all there are. -/
theorem cons (h : t.Sound rows) (hr : t.Accepts r)
    (hapart : ∀ o ∈ rows, t.Apart o r) :
    t.Sound (r :: rows) := by
  constructor
  · intro x hx
    rcases List.mem_cons.1 hx with rfl | hx
    · exact hr
    · exact h.accepted x hx
  · exact List.pairwise_cons.2 ⟨fun o ho => (hapart o ho).symm, h.apart⟩

/-- A row in the place of another, apart from the rest. -/
theorem replace (h : t.Sound (before ++ r :: rest)) (hr : t.Accepts r')
    (hapart : ∀ o ∈ before ++ rest, t.Apart o r') :
    t.Sound (before ++ r' :: rest) := by
  have hothers : t.Sound (before ++ rest) :=
    h.sublist
      ((List.Sublist.refl before).append (List.sublist_cons_self r rest))
  exact (hothers.cons hr hapart).perm List.perm_middle.symm

end Table.Sound

-- ============================================================== one store

/-- Sound tables, and references that all lead to rows. -/
structure Store.Sound (s : Store) : Prop where
  tables : ∀ t : Table, t.Sound (s.rows t)
  references : s.referencesHold = true

namespace Store

variable {s s' : Store} {t : Table}

theorem sound_empty : Store.empty.Sound := by
  refine ⟨fun t => Table.Sound.nil, ?_⟩
  rw [referencesHold, List.all_eq_true]
  intro t ht
  rfl

/-- Rows are visited in an order of their own, but they stay the same rows. -/
theorem visited_perm (s : Store) (t : Table) :
    (s.visited t).Perm (s.rows t) := by
  unfold visited
  split
  · exact List.mergeSort_perm _ _
  · exact List.Perm.refl _

/-- New rows in one sound table leave all tables sound. -/
theorem Sound.withRows (h : s.Sound) {rows : List Row} (hrows : t.Sound rows)
    (href : (s.withRows t rows).referencesHold = true) :
    (s.withRows t rows).Sound := by
  refine ⟨fun u => ?_, href⟩
  by_cases hu : u = t
  · subst hu
    rw [rows_withRows_self]
    exact hrows
  · rw [rows_withRows_of_ne hu]
    exact h.tables u

/-- Every accepted write keeps a store sound. -/
theorem Wrote.sound (h : s.Sound) (hw : s.Wrote t s') : s'.Sound := by
  cases hw with
  | inserted hinsert =>
      obtain ⟨r, hid, -, hconforms, rfl, href⟩ := insert_eq_ok_iff.1 hinsert
      obtain ⟨hpresent, hpermits, hapart⟩ := conforms_eq_ok_iff.1 hconforms
      have haccepts : t.Accepts r :=
        ⟨(identified_eq_ok hid).1, hpresent, hpermits⟩
      have hrows : t.Sound (s.rows t ++ [r]) :=
        ((h.tables t).cons haccepts hapart).perm
          (List.perm_append_singleton r _).symm
      exact h.withRows hrows href
  | updated hupdate =>
      obtain ⟨rows, hchange, rfl, href⟩ := update_eq_ok_iff.1 hupdate
      refine h.withRows ?_ href
      refine changeRows_induction (P := t.Sound) ?_ hchange
        ((h.tables t).perm (s.visited_perm t).symm)
      intro before r rest hrows hadmit
      obtain ⟨hid, -, hconforms⟩ := admitChange_eq_ok_iff.1 hadmit
      obtain ⟨hpresent, hpermits, hapart⟩ := conforms_eq_ok_iff.1 hconforms
      exact hrows.replace ⟨hid, hpresent, hpermits⟩ hapart
  | deleted hdelete =>
      obtain ⟨rfl, href⟩ := delete_eq_ok_iff.1 hdelete
      refine ⟨fun u => Table.Sound.sublist ?_ List.filter_sublist, href⟩
      by_cases hu : u = t
      · subst hu
        rw [rows_withRows_self]
        exact (h.tables u).sublist List.filter_sublist
      · rw [rows_withRows_of_ne hu]
        exact h.tables u

end Store

/-- Every store that accepted writes lead to is sound. -/
theorem Store.Reachable.sound {s : Store} (h : s.Reachable) : s.Sound := by
  induction h with
  | empty => exact sound_empty
  | wrote _ hwrote ih => exact hwrote.sound ih

-- ================================================================ reading

namespace Store.Sound

variable {s : Store} {t : Table} {a b r : Row}

theorem accepts (h : s.Sound) (hr : r ∈ s.rows t) : t.Accepts r :=
  (h.tables t).accepted r hr

/-- The ids of a table occur once. -/
theorem ids_nodup (h : s.Sound) (ht : t.hasId = true) :
    ((s.rows t).map (· .id)).Nodup :=
  List.Pairwise.map _ (fun _ _ hab => hab.id_ne ht) (h.tables t).apart

/-- So do the numbers that the ids of its rows are. -/
theorem nodup_of_id_eq (h : s.Sound) (ht : t.hasId = true) {id : Row → Int64}
    (hid : ∀ r ∈ s.rows t, r .id = .integer (id r)) :
    ((s.rows t).map id).Nodup := by
  have heq : (s.rows t).map (· .id)
      = ((s.rows t).map id).map Value.integer := by
    rw [List.map_map]
    exact List.map_congr_left hid
  have hids := h.ids_nodup ht
  rw [heq] at hids
  exact List.Nodup.of_map _ hids

/-- Two rows of one id are one row. -/
theorem eq_of_id_eq (h : s.Sound) (ht : t.hasId = true) (ha : a ∈ s.rows t)
    (hb : b ∈ s.rows t) (hid : a .id = b .id) : a = b :=
  List.inj_on_of_nodup_map (h.ids_nodup ht) ha hb hid

/-- A row is found by its id. -/
theorem find?_id_eq (h : s.Sound) (ht : t.hasId = true) (hr : r ∈ s.rows t) :
    (s.rows t).find? (fun p => p .id == r .id) = some r :=
  find?_key_eq hr fun _ hp => h.eq_of_id_eq ht hp hr

/-- A reference that is not open leads to a row, whose id it therefore is. -/
theorem exists_parent (h : s.Sound) (hr : r ∈ s.rows t) (ref : Reference)
    (href : ref ∈ t.references) (hopen : r ref.column ≠ .null) :
    ∃ p ∈ s.rows ref.parent, p .id = r ref.column := by
  have hall := h.references
  simp only [referencesHold, List.all_eq_true] at hall
  have hfollows := hall t (by cases t <;> decide) r hr ref href
  simpa [follows, hopen] using hfollows

/-- A mandatory reference is never open. -/
theorem exists_owner (h : s.Sound) (hr : r ∈ s.rows t) (ref : Reference)
    (href : ref ∈ t.references) (hmandatory : ref.column ∈ t.mandatory) :
    ∃ p ∈ s.rows ref.parent, p .id = r ref.column :=
  h.exists_parent hr ref href ((h.accepts hr).present _ hmandatory)

end Store.Sound

end WorkRouting
