/-
Domain values on the wire. Every kind of value is read back from what is
written for it, however it is told (`Reads`): one lemma for each reader, the
nested ones from those of their parts. A target is read as a whole before its
kind is known, so it is read back where the whole can be held, and not at all
elsewhere (`Target.ofJson?_retold`).

On texts (`WireType.reads_back`) a value comes back from its own text and from
every text that tells the same, and is never taken for another.
-/
import Mathlib.Data.Nat.Digits.Defs
import WorkRouting.Proofs.Access.Token
import WorkRouting.Proofs.Json.RoundTrip
import WorkRouting.Proofs.Wire.Retelling
import WorkRouting.Wire.Domain

namespace WorkRouting

open Json (Retells int string array object null)
open Wire

-- ================================================================== names

theorem Resource.reads (r : Resource) : Reads ofJson? r.toJson r :=
  reads_named mem_all name_injective r

theorem Action.reads (a : Action) : Reads ofJson? a.toJson a :=
  reads_named mem_all name_injective a

theorem PositionType.reads (k : PositionType) : Reads ofJson? k.toJson k :=
  reads_named mem_all name_injective k

theorem OrgLevel.reads (l : OrgLevel) : Reads ofJson? l.toJson l :=
  reads_named (by intro l; cases l <;> decide)
    (by intro l m; cases l <;> cases m <;> decide) l

-- ================================================================ records

theorem Permission.reads (p : Permission) : Reads ofJson? p.toJson p := by
  refine .of_record rfl (by decide) fun fields hsupplied => ?_
  obtain - | ⟨hresource, - | ⟨haction, - | ⟨hfield, ⟨⟩⟩⟩⟩ := hsupplied
  simp [hresource.required p.resource.reads,
    haction.required p.action.reads, hfield.optional reads_string]

theorem OrderTarget.reads (o : OrderTarget) : Reads ofJson? o.toJson o := by
  refine .of_record rfl (by decide) fun fields hsupplied => ?_
  obtain - | ⟨hdepartment, - | ⟨hotdel, - | ⟨hbranch, - | ⟨hoffice,
    - | ⟨hcreator, - | ⟨hexecutor, ⟨⟩⟩⟩⟩⟩⟩⟩ := hsupplied
  simp [hdepartment.required (reads_id _), hotdel.optional reads_id,
    hbranch.optional reads_id, hoffice.optional reads_id,
    hcreator.required (reads_id _), hexecutor.required (reads_id _)]

theorem UserTarget.reads (u : UserTarget) : Reads ofJson? u.toJson u := by
  refine .of_record rfl (by decide) fun fields hsupplied => ?_
  obtain - | ⟨hid, - | ⟨hdepartment, - | ⟨hbranch, - | ⟨hotdel,
    - | ⟨hoffice, ⟨⟩⟩⟩⟩⟩⟩ := hsupplied
  simp [hid.required (reads_id _), hdepartment.required (reads_id _),
    hbranch.optional reads_id, hotdel.optional reads_id,
    hoffice.optional reads_id]

theorem Actor.reads (a : Actor) : Reads ofJson? a.toJson a := by
  refine .of_record rfl (by decide) fun fields hsupplied => ?_
  obtain - | ⟨hid, - | ⟨hdepartment, - | ⟨hbranch, - | ⟨hotdel,
    - | ⟨hoffice, - | ⟨hposition, - | ⟨hhead, ⟨⟩⟩⟩⟩⟩⟩⟩⟩ := hsupplied
  simp [hid.required (reads_id _), hdepartment.required (reads_id _),
    hbranch.optional reads_id, hotdel.optional reads_id,
    hoffice.optional reads_id, hposition.optional reads_id,
    hhead.required (reads_bool _)]

theorem Position.reads (p : Position) : Reads ofJson? p.toJson p := by
  refine .of_record rfl (by decide) fun fields hsupplied => ?_
  obtain - | ⟨hid, - | ⟨hkind, - | ⟨hdepartment, - | ⟨hotdel,
    - | ⟨hbranch, - | ⟨hoffice, ⟨⟩⟩⟩⟩⟩⟩⟩ := hsupplied
  simp [hid.required (reads_id _), hkind.required p.kind.reads,
    hdepartment.optional reads_id, hotdel.optional reads_id,
    hbranch.optional reads_id, hoffice.optional reads_id]

theorem Context.reads (c : Context) : Reads ofJson? c.toJson c := by
  refine .of_record rfl (by decide) fun fields hsupplied => ?_
  obtain - | ⟨horderType, - | ⟨hdepartment, - | ⟨hotdel, - | ⟨hbranch,
    - | ⟨hoffice, ⟨⟩⟩⟩⟩⟩⟩ := hsupplied
  simp [horderType.required (reads_id _), hdepartment.optional reads_id,
    hotdel.optional reads_id, hbranch.optional reads_id,
    hoffice.optional reads_id]

theorem Rule.reads (r : Rule) : Reads ofJson? r.toJson r := by
  refine .of_record rfl (by decide) fun fields hsupplied => ?_
  obtain - | ⟨hid, - | ⟨horderType, - | ⟨hdepartment, - | ⟨hotdel,
    - | ⟨hbranch, - | ⟨hoffice, - | ⟨hposition,
    - | ⟨hstatus, ⟨⟩⟩⟩⟩⟩⟩⟩⟩⟩ := hsupplied
  simp [hid.required (reads_id _), horderType.optional reads_id,
    hdepartment.optional reads_id, hotdel.optional reads_id,
    hbranch.optional reads_id, hoffice.optional reads_id,
    hposition.required (reads_id _), hstatus.required (reads_id _)]

theorem PredefinedRoute.reads (r : PredefinedRoute) :
    Reads ofJson? r.toJson r := by
  refine .of_record rfl (by decide) fun fields hsupplied => ?_
  obtain - | ⟨hdepartment, - | ⟨hotdel, ⟨⟩⟩⟩ := hsupplied
  simp [hdepartment.optional reads_id, hotdel.optional reads_id]

-- ========================================================= nested records

/-- A condition is its level and its identifier. -/
theorem UnitPredicate.atLevel_level (p : UnitPredicate) :
    atLevel p.level p.id = p := by
  cases p <;> rfl

theorem UnitPredicate.reads (p : UnitPredicate) :
    Reads ofJson? p.toJson p := by
  refine .of_record rfl (by decide) fun fields hsupplied => ?_
  obtain - | ⟨hlevel, - | ⟨hid, ⟨⟩⟩⟩ := hsupplied
  simp [hlevel.required p.level.reads, hid.required (reads_id _),
    p.atLevel_level]

theorem HierarchyQuery.reads (q : HierarchyQuery) :
    Reads ofJson? q.toJson q := by
  refine .of_record rfl (by decide) fun fields hsupplied => ?_
  obtain - | ⟨hkind, - | ⟨hpredicates, ⟨⟩⟩⟩ := hsupplied
  have hlist := reads_list UnitPredicate.reads q.predicates
  simp [hkind.required q.kind.reads, hpredicates.required hlist]

theorem Resolution.reads (r : Resolution) : Reads ofJson? r.toJson r := by
  refine .of_record rfl (by decide) fun fields hsupplied => ?_
  obtain - | ⟨hexecutor, - | ⟨hstatus, - | ⟨hruleFound, ⟨⟩⟩⟩⟩ := hsupplied
  simp [hexecutor.required r.executor.reads, hstatus.optional reads_id,
    hruleFound.required (reads_bool _)]

-- ================================================================ targets

theorem readable_ofId (n : Int64) : (ofId n).readable = true := by
  have hbound : n.toInt.natAbs < 10 ^ 19 := by
    have hlow := n.le_toInt
    have hhigh := n.toInt_lt
    omega
  have hdigits : (Text.natDigits n.toInt.natAbs).length ≤ 19 :=
    Nat.toDigits_length 10 _ 19 (by decide) hbound
  have hsize : ((Text.natDigits n.toInt.natAbs).length : Int) + 0 < 309 := by
    omega
  rw [ofId, Json.readable, Binary64.reaches]
  split
  · rfl
  · exact if_pos hsize

theorem readable_ofOptionalId (n : Option Int64) :
    (ofOptionalId n).readable = true := by
  cases n with
  | none => rfl
  | some n => exact readable_ofId n

theorem depth_ofOptionalId (n : Option Int64) :
    (ofOptionalId n).depth = 0 := by
  cases n <;> rfl

namespace Target

/-- What is written for a target can be held. -/
theorem held_toJson (x : Target) : Held x.toJson := by
  cases x with
  | simple => decide
  | order o =>
      constructor
      · simp [toJson, OrderTarget.members, Json.readable, Json.readableMembers,
          readable_ofId, readable_ofOptionalId]
      · simp [toJson, OrderTarget.members, Json.depth, Json.depthMembers,
          ofId, depth_ofOptionalId, depthLimit]
  | user u =>
      constructor
      · simp [toJson, UserTarget.members, Json.readable, Json.readableMembers,
          readable_ofId, readable_ofOptionalId]
      · simp [toJson, UserTarget.members, Json.depth, Json.depthMembers,
          ofId, depth_ofOptionalId, depthLimit]

/-- A target is read back however it is told, if the whole can be held; no
reader takes it for a target of another kind. -/
theorem ofJson?_retold {x : Target} {w : Json} (hw : Retells x.toJson w) :
    ofJson? w = if Held w then some x else none := by
  by_cases hheld : Held w
  · rw [if_pos hheld]
    cases x with
    | simple =>
        obtain ⟨ws, htag, hrest⟩ := hw.tagged hheld (by decide)
        exact Option.bind_eq_some_iff.2 ⟨_, htag, rfl⟩
    | order o =>
        obtain ⟨ws, htag, hrest⟩ :=
          hw.tagged hheld (by simp [OrderTarget.members])
        refine Option.bind_eq_some_iff.2 ⟨_, htag, ?_⟩
        simp [o.reads.read_eq hrest]
    | user u =>
        obtain ⟨ws, htag, hrest⟩ :=
          hw.tagged hheld (by simp [UserTarget.members])
        refine Option.bind_eq_some_iff.2 ⟨_, htag, ?_⟩
        simp [u.reads.read_eq hrest]
  · rw [if_neg hheld, ofJson?, tagged_eq_none hheld]
    rfl

end Target

-- ================================================================== texts

/-- A kind of value that has a text of its own. -/
inductive WireType where
  | permission | target | orderTarget | userTarget | actor | position
  | context | rule | predicate | query | resolution | predefinedRoute
  deriving DecidableEq

namespace WireType

/-- The values of a kind. -/
abbrev Value : WireType → Type
  | permission => Permission
  | target => Target
  | orderTarget => OrderTarget
  | userTarget => UserTarget
  | actor => Actor
  | position => Position
  | context => Context
  | rule => Rule
  | predicate => UnitPredicate
  | query => HierarchyQuery
  | resolution => Resolution
  | predefinedRoute => PredefinedRoute

def write : (t : WireType) → t.Value → Json
  | permission => Permission.toJson
  | target => Target.toJson
  | orderTarget => OrderTarget.toJson
  | userTarget => UserTarget.toJson
  | actor => Actor.toJson
  | position => Position.toJson
  | context => Context.toJson
  | rule => Rule.toJson
  | predicate => UnitPredicate.toJson
  | query => HierarchyQuery.toJson
  | resolution => Resolution.toJson
  | predefinedRoute => PredefinedRoute.toJson

def read? : (t : WireType) → Json → Option t.Value
  | permission => Permission.ofJson?
  | target => Target.ofJson?
  | orderTarget => OrderTarget.ofJson?
  | userTarget => UserTarget.ofJson?
  | actor => Actor.ofJson?
  | position => Position.ofJson?
  | context => Context.ofJson?
  | rule => Rule.ofJson?
  | predicate => UnitPredicate.ofJson?
  | query => HierarchyQuery.ofJson?
  | resolution => Resolution.ofJson?
  | predefinedRoute => PredefinedRoute.ofJson?

/-- The text of a value. -/
def encode (t : WireType) (x : t.Value) : String := (t.write x).render

/-- The value that a text is for. -/
def decode (t : WireType) (text : String) : Option t.Value :=
  (Json.read text).bind t.read?

/-- What a kind asks of a value as a whole: nothing, but for targets, which are
read as a whole before it is known what they are. -/
def Bears (t : WireType) (w : Json) : Prop := t = target → Held w

instance (t : WireType) (w : Json) : Decidable (t.Bears w) :=
  inferInstanceAs (Decidable (_ → _))

theorem bears_write (t : WireType) (x : t.Value) : t.Bears (t.write x) := by
  rintro rfl
  exact Target.held_toJson x

theorem read?_retold {t : WireType} {x : t.Value} {w : Json}
    (hw : Retells (t.write x) w) :
    t.read? w = if t.Bears w then some x else none := by
  cases t with
  | target =>
      have hbears : target.Bears w ↔ Held w := forall_prop_of_true rfl
      exact (Target.ofJson?_retold hw).trans (if_congr hbears.symm rfl rfl)
  | permission | orderTarget | userTarget | actor | position | context | rule
  | predicate | query | resolution | predefinedRoute =>
      rw [if_pos nofun]
      exact x.reads.read_eq hw

/-- Every value is read back from its own text and from every text that tells
the same, whatever the order of the keys, without the nulls and with keys that
nobody knows; and what is read from any text is read back. A target asks that
the whole can be held, and is not read at all where it cannot: it is never
taken for another target. -/
theorem reads_back (t : WireType) :
    (∀ x text w, Json.read text = some w → Retells (t.write x) w →
        t.decode text = if t.Bears w then some x else none)
      ∧ (∀ x, t.decode (t.encode x) = some x)
      ∧ ∀ text x, t.decode text = some x → t.decode (t.encode x) = some x := by
  have hretold : ∀ x text w, Json.read text = some w →
      Retells (t.write x) w →
      t.decode text = if t.Bears w then some x else none := by
    intro x text w htext hw
    rw [decode, htext, Option.bind_some, read?_retold hw]
  have hencoded : ∀ x, t.decode (t.encode x) = some x := by
    intro x
    rw [hretold x (t.encode x) _ (Json.read_render (t.write x)) (.same _),
      if_pos (t.bears_write x)]
  exact ⟨hretold, hencoded, fun _ x _ => hencoded x⟩

/-- A route told without the unit that is null, behind a key that nobody
knows. -/
def toldRoute : Json := object [("note", .decimal 1 999), ("otdel_id", int 5)]

/-- A target with a key that nobody knows before its kind. -/
def toldTarget : Json :=
  object [("note", array [null]), ("kind", string "simple")]

/-- Both are read back. The number in the first is out of reach, which matters
to nobody who passes over it. -/
theorem told_samples_read_back :
    predefinedRoute.decode toldRoute.render
        = some { department := none, otdel := some 5 }
      ∧ target.decode toldTarget.render = some .simple := by
  have hroute : Retells
      (predefinedRoute.write { department := none, otdel := some 5 })
      toldRoute :=
    .object (.drop (.keep (.same _) .nil)) (by simp) (.swap _ _ [])
  have htarget : Retells (target.write .simple) toldTarget :=
    .object (.keep (.same _) .nil) (by simp) (.swap _ _ [])
  constructor
  · rw [(reads_back predefinedRoute).1 _ _ _ toldRoute.read_render hroute]
    exact if_pos nofun
  · rw [(reads_back target).1 _ _ _ toldTarget.read_render htarget]
    exact if_pos (by decide)

/-- A target with a number that is out of reach under a key that nobody
knows. -/
def unheldTarget : Json :=
  object [("kind", string "simple"), ("note", .decimal 1 999)]

/-- The number alone keeps it from being read. -/
theorem unheld_sample_unread :
    unheldTarget.render = "\x7b\"kind\":\"simple\",\"note\":1e999\x7d"
      ∧ Json.read unheldTarget.render = some unheldTarget
      ∧ Retells (target.write .simple) unheldTarget
      ∧ target.decode unheldTarget.render = none := by
  have htold : Retells (target.write .simple) unheldTarget :=
    .object (.keep (.same _) .nil) (by simp) (.refl _)
  have hheld : ¬ Held unheldTarget := by decide
  refine ⟨by decide +kernel, unheldTarget.read_render, htold, ?_⟩
  rw [decode, unheldTarget.read_render, Option.bind_some, read?_retold htold,
    if_neg fun hbears => hheld (hbears rfl)]

end WireType

end WorkRouting
