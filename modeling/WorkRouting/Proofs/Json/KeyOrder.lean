/-
Objects with their keys in order. An object that comes from nowhere but a
program is a map: it has each key once, and the order in which it is printed is
that of the keys. `Ordered` says so of a value at every depth. Sorting brings
every value into this form (`ordered_sorted`) and leaves alone what has it
(`sorted_eq_self`), so a map that is printed is printed as it is.
-/
import Mathlib.Tactic.ByContra
import WorkRouting.Json.Basic

namespace WorkRouting.Json

-- =========================================================== vocabulary

mutual

/-- Every object has each of its keys once, and in order. -/
def Ordered : Json → Prop
  | array items => OrderedItems items
  | object members => OrderedMembers members
  | _ => True

def OrderedItems : List Json → Prop
  | [] => True
  | v :: rest => Ordered v ∧ OrderedItems rest

def OrderedMembers : List (String × Json) → Prop
  | [] => True
  | (k, v) :: rest =>
      Ordered v ∧ (∀ m ∈ rest, k < m.1) ∧ OrderedMembers rest

end

-- ============================================================ insertion

variable {key : String} {v : Json} {ms : List (String × Json)}

theorem insertMember_last (h : ∀ m ∈ ms, m.1 < key) :
    insertMember key v ms = ms ++ [(key, v)] := by
  induction ms with
  | nil => rfl
  | cons m ms ih =>
      obtain ⟨k, w⟩ := m
      have hk : k < key := h (k, w) List.mem_cons_self
      have hne : key ≠ k := by
        rintro rfl
        exact String.lt_irrefl key hk
      rw [insertMember, if_neg (String.lt_asymm hk), if_neg hne,
        ih fun m hm => h m (List.mem_cons_of_mem _ hm)]
      rfl

/-- A member that is put in its place adds no key but its own. -/
theorem key_of_mem_insertMember {m : String × Json}
    (h : m ∈ insertMember key v ms) : m.1 = key ∨ ∃ m' ∈ ms, m.1 = m'.1 := by
  induction ms with
  | nil =>
      rw [List.mem_singleton.1 h]
      exact Or.inl rfl
  | cons m₀ ms ih =>
      obtain ⟨k, w⟩ := m₀
      rw [insertMember] at h
      split at h
      · rcases List.mem_cons.1 h with rfl | h
        · exact Or.inl rfl
        · exact Or.inr ⟨m, h, rfl⟩
      · split at h
        · rcases List.mem_cons.1 h with rfl | h
          · exact Or.inl rfl
          · exact Or.inr ⟨m, List.mem_cons_of_mem _ h, rfl⟩
        · rcases List.mem_cons.1 h with rfl | h
          · exact Or.inr ⟨_, List.mem_cons_self, rfl⟩
          · refine (ih h).imp_right fun ⟨m', hm', heq⟩ => ?_
            exact ⟨m', List.mem_cons_of_mem _ hm', heq⟩

theorem orderedMembers_insertMember (hv : v.Ordered) (h : OrderedMembers ms) :
    OrderedMembers (insertMember key v ms) := by
  induction ms with
  | nil => exact ⟨hv, nofun, trivial⟩
  | cons m ms ih =>
      obtain ⟨k, w⟩ := m
      obtain ⟨hw, hk, hms⟩ := h
      rw [insertMember]
      split
      · next hlt =>
        refine ⟨hv, fun m hm => ?_, hw, hk, hms⟩
        rcases List.mem_cons.1 hm with rfl | hm
        · exact hlt
        · exact String.lt_trans hlt (hk m hm)
      · next hge =>
        split
        · next heq => exact ⟨hv, fun m hm => heq ▸ hk m hm, hms⟩
        · next hne =>
          refine ⟨hw, fun m hm => ?_, ih hms⟩
          rcases key_of_mem_insertMember hm with heq | ⟨m', hm', heq⟩
          · rw [heq]
            by_contra hle
            exact hne (String.le_antisymm (String.not_lt.1 hle)
              (String.not_lt.1 hge))
          · rw [heq]
            exact hk m' hm'

-- ============================================================== sorting

mutual

theorem ordered_sorted : (v : Json) → v.sorted.Ordered
  | null | bool _ | int _ | decimal _ _ | string _ | unreadable => trivial
  | array vs => orderedItems_sortedItems vs
  | object ms => orderedMembers_sortedMembers ms [] trivial

theorem orderedItems_sortedItems :
    (vs : List Json) → OrderedItems (sortedItems vs)
  | [] => trivial
  | v :: vs => ⟨ordered_sorted v, orderedItems_sortedItems vs⟩

theorem orderedMembers_sortedMembers :
    (ms acc : List (String × Json)) → OrderedMembers acc →
      OrderedMembers (sortedMembers acc ms)
  | [], _, h => h
  | (_, v) :: ms, _, h =>
      orderedMembers_sortedMembers ms _
        (orderedMembers_insertMember (ordered_sorted v) h)

end

mutual

/-- A value in order is sorted already. -/
theorem sorted_eq_self : (v : Json) → v.Ordered → v.sorted = v
  | null, _ | bool _, _ | int _, _ | decimal _ _, _ | string _, _
  | unreadable, _ => rfl
  | array vs, h => congrArg array (sortedItems_eq_self vs h)
  | object ms, h => congrArg object (sortedMembers_eq_append ms [] h nofun)

theorem sortedItems_eq_self :
    (vs : List Json) → OrderedItems vs → sortedItems vs = vs
  | [], _ => rfl
  | v :: vs, ⟨hv, hvs⟩ =>
      congrArg₂ List.cons (sorted_eq_self v hv) (sortedItems_eq_self vs hvs)

/-- Members in order go behind those that are there, one after the other. -/
theorem sortedMembers_eq_append :
    (ms acc : List (String × Json)) → OrderedMembers ms →
      (∀ a ∈ acc, ∀ m ∈ ms, a.1 < m.1) → sortedMembers acc ms = acc ++ ms
  | [], acc, _, _ => (List.append_nil acc).symm
  | (k, v) :: ms, acc, ⟨hv, hk, hms⟩, hacc => by
      have hplace : insertMember k v.sorted acc = acc ++ [(k, v)] := by
        rw [sorted_eq_self v hv]
        exact insertMember_last fun a ha => hacc a ha (k, v) List.mem_cons_self
      have hnext : ∀ a ∈ acc ++ [(k, v)], ∀ m ∈ ms, a.1 < m.1 := by
        intro a ha m hm
        rcases List.mem_append.1 ha with ha | ha
        · exact hacc a ha m (List.mem_cons_of_mem _ hm)
        · rw [List.mem_singleton.1 ha]
          exact hk m hm
      rw [sortedMembers, hplace, sortedMembers_eq_append ms _ hms hnext,
        List.append_assoc, List.singleton_append]

end

end WorkRouting.Json
