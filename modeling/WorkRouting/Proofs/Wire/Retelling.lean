/-
The same value told in another way. What is written as an object may come back
with its members in another order, without those that are null, and with others
that its reader does not know; `Json.Retells` allows all of this at every
depth. The readers of the shapes take no notice: a record has for each of its
fields what was written there (`Json.Retells.record`), or nothing at all where
that was null, and a tagged record has its tag wherever it stands
(`Json.Retells.tagged`).
-/
import Mathlib.Data.List.Forall2
import WorkRouting.Proofs.Text
import WorkRouting.Wire.Shape

namespace WorkRouting

-- ============================================================ vocabulary

namespace Json

/-- The members that are left of an object, in their order, each with its value
told by `tells`. Members that are null may be missing. -/
inductive Keeps (tells : Json → Json → Prop) :
    List (String × Json) → List (String × Json) → Prop
  | nil : Keeps tells [] []
  | keep {key : String} {v w : Json} {ms kept : List (String × Json)}
      (hv : tells v w) (hms : Keeps tells ms kept) :
      Keeps tells ((key, v) :: ms) ((key, w) :: kept)
  | drop {key : String} {ms kept : List (String × Json)}
      (hms : Keeps tells ms kept) : Keeps tells ((key, null) :: ms) kept

/-- A value told in another way: in every object the members may stand in any
order, those that are null may be missing, and others may be added under keys
that the object does not have. -/
inductive Retells : Json → Json → Prop
  | same (v : Json) : Retells v v
  | array {vs ws : List Json} (hitems : List.Forall₂ Retells vs ws) :
      Retells (array vs) (array ws)
  | object {ms kept added ws : List (String × Json)}
      (hkept : Keeps Retells ms kept)
      (hadded : ∀ m ∈ added, m.1 ∉ ms.map (·.1))
      (hperm : ws.Perm (kept ++ added)) : Retells (object ms) (object ws)

end Json

namespace Wire

open Json (Keeps Retells int string array object null)

/-- What a reader finds in the place of a field: the value that was written
there, told in some way, or nothing if that was null. -/
inductive Supplied (v : Json) : Option Json → Prop
  | told {w : Json} (hw : Retells v w) : Supplied v (some w)
  | dropped (hv : v = null) : Supplied v none

/-- A value that can be read as a whole before it is known what it is. -/
def Held (w : Json) : Prop := w.readable = true ∧ w.depth ≤ depthLimit

instance (w : Json) : Decidable (Held w) := inferInstanceAs (Decidable (_ ∧ _))

/-- However a value is told, the reader takes it for one and the same thing. -/
structure Reads {α : Type} (read : Json → Option α) (v : Json) (x : α) :
    Prop where
  ne_null : v ≠ null
  read_eq {w : Json} (hw : Retells v w) : read w = some x

end Wire

-- ============================================================== retelling

namespace Json

open Wire

theorem Keeps.refl (ms : List (String × Json)) : Keeps Retells ms ms := by
  induction ms with
  | nil => exact .nil
  | cons m ms ih => exact .keep (.same m.2) ih

theorem Keeps.keys_subset {tells : Json → Json → Prop}
    {ms kept : List (String × Json)} (h : Keeps tells ms kept) :
    ∀ m ∈ kept, m.1 ∈ ms.map (·.1) := by
  induction h with
  | nil => exact nofun
  | keep hv hms ih =>
      exact List.forall_mem_cons.2 ⟨List.mem_cons_self,
        fun m hm => List.mem_cons_of_mem _ (ih m hm)⟩
  | drop hms ih => exact fun m hm => List.mem_cons_of_mem _ (ih m hm)

section Inversion

variable {w : Json}

/-- Only null tells of null. -/
theorem Retells.ne_null {v : Json} (h : Retells v w) (hv : v ≠ null) :
    w ≠ null := by
  cases h with
  | same => exact hv
  | array | object => exact nofun

theorem Retells.eq_string {s : String} (h : Retells (string s) w) :
    w = string s := by
  cases h
  rfl

theorem Retells.eq_int {n : Int} (h : Retells (int n) w) : w = int n := by
  cases h
  rfl

theorem Retells.eq_bool {b : Bool} (h : Retells (bool b) w) : w = bool b := by
  cases h
  rfl

theorem Retells.exists_items {vs : List Json} (h : Retells (Json.array vs) w) :
    ∃ ws, w = Json.array ws ∧ List.Forall₂ Retells vs ws := by
  cases h with
  | same => exact ⟨vs, rfl, List.forall₂_same.2 fun v _ => .same v⟩
  | array hitems => exact ⟨_, rfl, hitems⟩

theorem Retells.exists_members {ms : List (String × Json)}
    (h : Retells (Json.object ms) w) :
    ∃ ws kept added, w = Json.object ws ∧ Keeps Retells ms kept
      ∧ (∀ m ∈ added, m.1 ∉ ms.map (·.1)) ∧ ws.Perm (kept ++ added) := by
  cases h with
  | same =>
      refine ⟨ms, ms, [], rfl, .refl ms, nofun, ?_⟩
      rw [List.append_nil]
  | object hkept hadded hperm => exact ⟨_, _, _, rfl, hkept, hadded, hperm⟩

end Inversion

end Json

-- ================================================================ members

namespace Wire

open Json (Keeps Retells int string array object null)

variable {ms kept added us ws : List (String × Json)} {key : String} {w : Json}

theorem filter_key_eq_nil (h : ∀ m ∈ ws, m.1 ≠ key) :
    ws.filter (·.1 == key) = [] := by
  rw [List.filter_eq_nil_iff]
  intro m hm
  simpa using h m hm

theorem once_eq_none (h : ∀ m ∈ ws, m.1 ≠ key) : once ws key = some none := by
  rw [once, filter_key_eq_nil h]

theorem once_cons_self {v : Json} (h : ∀ m ∈ ws, m.1 ≠ key) :
    once ((key, v) :: ws) key = some (some v) := by
  unfold once
  rw [List.filter_cons_of_pos (by simp), filter_key_eq_nil h]

theorem once_cons_of_ne {m : String × Json} (h : m.1 ≠ key) :
    once (m :: ws) key = once ws key := by
  unfold once
  rw [List.filter_cons_of_neg (by simpa using h)]

/-- Where a member stands makes no difference to who looks for its key. -/
theorem once_congr (h : ws.Perm us) : once ws key = once us key := by
  have hfilter := h.filter (·.1 == key)
  unfold once
  generalize ws.filter (·.1 == key) = found at hfilter ⊢
  generalize us.filter (·.1 == key) = found' at hfilter ⊢
  match found' with
  | [] => rw [hfilter.eq_nil]
  | [m] => rw [List.perm_singleton.1 hfilter]
  | m :: m' :: rest =>
      match found, hfilter.length_eq with
      | _ :: _ :: _, _ => rfl

/-- Nor do members with other keys. -/
theorem once_append (h : ∀ m ∈ added, m.1 ≠ key) :
    once (kept ++ added) key = once kept key := by
  unfold once
  rw [List.filter_append, filter_key_eq_nil h, List.append_nil]

/-- What is kept of an object has for each of its keys what was written under
it. -/
theorem exists_once_of_keeps (h : Keeps Retells ms kept)
    (hkeys : (ms.map (·.1)).Nodup) :
    ∀ m ∈ ms, ∃ field, once kept m.1 = some field ∧ Supplied m.2 field := by
  induction h with
  | nil => exact nofun
  | @keep key v w ms kept hv hms ih =>
      rw [List.map_cons, List.nodup_cons] at hkeys
      refine List.forall_mem_cons.2 ⟨⟨some w, ?_, .told hv⟩, fun m hm => ?_⟩
      · refine once_cons_self fun m hm heq => hkeys.1 ?_
        rw [← heq]
        exact hms.keys_subset m hm
      · have hne : key ≠ m.1 := by
          rintro rfl
          exact hkeys.1 (List.mem_map.2 ⟨m, hm, rfl⟩)
        rw [once_cons_of_ne hne]
        exact ih hkeys.2 m hm
  | @drop key ms kept hms ih =>
      rw [List.map_cons, List.nodup_cons] at hkeys
      refine List.forall_mem_cons.2 ⟨⟨none, ?_, .dropped rfl⟩, ih hkeys.2⟩
      refine once_eq_none fun m hm heq => hkeys.1 ?_
      rw [← heq]
      exact hms.keys_subset m hm

/-- Where every key is found, a record is. -/
theorem exists_fields_of_once
    (h : ∀ m ∈ ms, ∃ field, once ws m.1 = some field ∧ Supplied m.2 field) :
    ∃ fields, record (ms.map (·.1)) (object ws) = some fields
      ∧ List.Forall₂ Supplied (ms.map (·.2)) fields := by
  rw [record]
  induction ms with
  | nil => exact ⟨[], rfl, .nil⟩
  | cons m ms ih =>
      obtain ⟨⟨field, hfield, hm⟩, hrest⟩ := List.forall_mem_cons.1 h
      obtain ⟨fields, hfields, hms⟩ := ih hrest
      refine ⟨field :: fields, ?_, .cons hm hms⟩
      rw [List.map_cons, List.mapM_cons, hfield, hfields]
      rfl

theorem tagged_eq_some {tag kind : String} (hheld : Held (object ws))
    (honce : once ws tag = some (some (string kind))) :
    tagged tag (object ws)
      = some (kind, object (ws.filter (·.1 != tag))) := by
  unfold tagged
  rw [if_pos (by simpa [Held] using hheld)]
  simp only [honce]

/-- A tag is not found where the whole cannot be held. -/
theorem tagged_eq_none {tag : String} (h : ¬ Held w) :
    tagged tag w = none := by
  unfold tagged
  rw [if_neg (by simpa [Held] using h)]

end Wire

-- ================================================================ records

namespace Json

open Wire

variable {ms : List (String × Json)} {w : Json}

/-- A record finds in the place of each field what was written there. -/
theorem Retells.record (h : Retells (Json.object ms) w)
    (hkeys : (ms.map (·.1)).Nodup) :
    ∃ fields, Wire.record (ms.map (·.1)) w = some fields
      ∧ List.Forall₂ Supplied (ms.map (·.2)) fields := by
  obtain ⟨ws, kept, added, rfl, hkept, hadded, hperm⟩ := h.exists_members
  refine exists_fields_of_once fun m hm => ?_
  have hother : ∀ a ∈ added, a.1 ≠ m.1 := by
    intro a ha heq
    refine hadded a ha ?_
    rw [heq]
    exact List.mem_map.2 ⟨m, hm, rfl⟩
  rw [once_congr hperm, once_append hother]
  exact exists_once_of_keeps hkept hkeys m hm

/-- A tagged record that can be held is read with its tag, and what is left of
it are its other members told in some way. -/
theorem Retells.tagged {tag kind : String} (hheld : Held w)
    (h : Retells (Json.object ((tag, Json.string kind) :: ms)) w)
    (htag : tag ∉ ms.map (·.1)) :
    ∃ ws, Wire.tagged tag w = some (kind, Json.object ws)
      ∧ Retells (Json.object ms) (Json.object ws) := by
  obtain ⟨ws, kept, added, rfl, hkept, hadded, hperm⟩ := h.exists_members
  cases hkept with
  | @keep _ _ w _ kept hv hms =>
    cases hv.eq_string
    have hkept : ∀ m ∈ kept, m.1 ≠ tag := by
      rintro m hm rfl
      exact htag (hms.keys_subset m hm)
    have hother : ∀ m ∈ added, m.1 ≠ tag := by
      rintro m hm rfl
      exact hadded m hm List.mem_cons_self
    have honce : once ws tag = some (some (Json.string kind)) := by
      rw [once_congr hperm, once_append hother, once_cons_self hkept]
    have hfilter : (ws.filter (·.1 != tag)).Perm (kept ++ added) := by
      refine (hperm.filter _).trans (.of_eq ?_)
      rw [List.cons_append, List.filter_cons_of_neg (by simp),
        List.filter_eq_self]
      intro m hm
      rcases List.mem_append.1 hm with hm | hm
      · simpa using hkept m hm
      · simpa using hother m hm
    refine ⟨ws.filter (·.1 != tag), tagged_eq_some hheld honce,
      .object hms (fun m hm hin => ?_) hfilter⟩
    exact hadded m hm (List.mem_cons_of_mem _ hin)

end Json

-- =============================================================== readers

namespace Wire

open Json (Retells)

variable {α : Type} {read : Json → Option α} {field : Option Json}

theorem Supplied.required {v : Json} {x : α} (h : Supplied v field)
    (hread : Reads read v x) : required read field = some x := by
  cases h with
  | told hw => exact hread.read_eq hw
  | dropped hv => exact absurd hv hread.ne_null

theorem nullable?_of_ne_null {w : Json} (h : w ≠ .null) :
    nullable? read w = (read w).map some := by
  cases w with
  | null => exact absurd rfl h
  | bool | int | decimal | string | array | object | unreadable => rfl

/-- An optional field is null or missing just if there is nothing in it. -/
theorem Supplied.optional {write : α → Json} {o : Option α}
    (h : Supplied (o.elim .null write) field)
    (hread : ∀ x, Reads read (write x) x) : optional read field = some o := by
  cases o with
  | none =>
      cases h with
      | told hw =>
          cases hw
          rfl
      | dropped => rfl
  | some x =>
      cases h with
      | told hw =>
          have hne := hw.ne_null (hread x).ne_null
          rw [Wire.optional, nullable?_of_ne_null hne, (hread x).read_eq hw,
            Option.map_some]
      | dropped hv => exact absurd hv (hread x).ne_null

theorem reads_id (n : Int64) : Reads id? (ofId n) n := by
  refine ⟨nofun, fun hw => ?_⟩
  rw [hw.eq_int, id?, id64?_toInt]

theorem reads_bool (b : Bool) : Reads bool? (.bool b) b := by
  refine ⟨nofun, fun hw => ?_⟩
  rw [hw.eq_bool]
  rfl

theorem reads_string (s : String) : Reads string? (.string s) s := by
  refine ⟨nofun, fun hw => ?_⟩
  rw [hw.eq_string]
  rfl

/-- What has a name of its own is read by its name. -/
theorem reads_named {all : List α} {name : α → String}
    (hall : ∀ x, x ∈ all) (hname : ∀ x y, name x = name y → x = y) (x : α) :
    Reads (named? all name) (.string (name x)) x := by
  refine ⟨nofun, fun hw => ?_⟩
  rw [hw.eq_string]
  exact (find?_name_eq_some_iff hall hname).2 rfl

theorem mapM_eq_some_of_forall₂ {xs : List α} {ws : List Json}
    (h : List.Forall₂ (fun x w => read w = some x) xs ws) :
    ws.mapM read = some xs := by
  induction h with
  | nil => rfl
  | cons hx hxs ih =>
      rw [List.mapM_cons, hx, ih]
      rfl

theorem reads_list {write : α → Json} (hread : ∀ x, Reads read (write x) x)
    (xs : List α) : Reads (list? read) (.array (xs.map write)) xs := by
  refine ⟨nofun, fun hw => ?_⟩
  obtain ⟨ws, rfl, hitems⟩ := hw.exists_items
  refine mapM_eq_some_of_forall₂ ?_
  exact (List.forall₂_map_left_iff.1 hitems).imp fun x w => (hread x).read_eq

/-- What is read off a record is what is made of its fields. -/
theorem Reads.of_record {names : List String} {ms : List (String × Json)}
    {make : List (Option Json) → Option α} {x : α}
    (hnames : ms.map (·.1) = names) (hkeys : names.Nodup)
    (hmake : ∀ fields, List.Forall₂ Supplied (ms.map (·.2)) fields →
      make fields = some x) :
    Reads (fun v => (record names v).bind make) (.object ms) x := by
  subst hnames
  refine ⟨nofun, fun hw => ?_⟩
  obtain ⟨fields, hfields, hsupplied⟩ := hw.record hkeys
  exact Option.bind_eq_some_iff.2 ⟨fields, hfields, hmake fields hsupplied⟩

end Wire

end WorkRouting
