/-
Which texts are permissions, and why the others are not.

A text is read by its trim, and the trim is a permission if it has one of two
forms: a resource and an action, or these and a field behind them
(`Permission.Written`). What has neither form is refused for one of three
reasons, which the segments between its colons tell apart
(`Permission.Refusal`): there are not two or three of them, or the third is
empty; else the first is no resource; else the second is no action. Only the
first reason repeats the text as it was given, with the blanks around it.

The segments are those of a split at the colons, so neither the forms nor the
reasons speak of how the reader cuts a text.

A token gives nothing to a set for one reason more: behind the lead of scopes
there is no scope. Every other token that is not the superuser flag has to be a
permission (`Grant.Refusal`).
-/
import WorkRouting.Proofs.Access.Token

namespace WorkRouting

namespace Permission

variable {text : String} {e : TokenError} {p : Permission}

-- ============================================================== vocabulary

/-- The forms of a permission: a resource and an action, and maybe a field that
is not empty and holds no colon. -/
inductive Written : String → Prop
  | plain (r : Resource) (a : Action) : Written (r.name ++ ":" ++ a.name)
  | onField (r : Resource) (a : Action) (f : String) :
      f ≠ "" → ':' ∉ f.toList →
      Written (r.name ++ ":" ++ a.name ++ ":" ++ f)

/-- What stands between the colons of a trimmed text. -/
def segmentsOf (text : String) : List String :=
  ((Text.trim text).toList.splitOn ':').map String.ofList

/-- Segments that no permission has: too few, too many, or an empty field. -/
def Misshapen (segments : List String) : Prop :=
  segments.length < 2 ∨ 3 < segments.length ∨ segments[2]? = some ""

/-- Why a text is no permission. A reason counts only where those before it do
not. -/
inductive Refusal (text : String) : TokenError → Prop
  | misshapen : Misshapen (segmentsOf text) → Refusal text (.malformed text)
  | noResource {name : String} {rest : List String} :
      segmentsOf text = name :: rest → ¬ Misshapen (segmentsOf text) →
      (∀ r : Resource, r.name ≠ name) → Refusal text (.unknownResource name)
  | noAction {r : Resource} {name : String} {rest : List String} :
      segmentsOf text = r.name :: name :: rest →
      ¬ Misshapen (segmentsOf text) →
      (∀ a : Action, a.name ≠ name) → Refusal text (.unknownAction name)

-- ================================================================ segments

/-- The reader cuts a text into its segments. -/
theorem segmentsOf_eq (text : String) :
    segmentsOf text
      = (Text.segments ':' (Text.trimmed text.toList)).map String.ofList := by
  rw [segmentsOf, Text.toList_trim, Text.segments_eq_splitOn]

/-- Misshapen segments are refused with the text as it was given, and others
are read as a resource and an action. -/
theorem parse_eq_of_segmentsOf (text : String) :
    (Misshapen (segmentsOf text)
        ∧ Permission.parse text = .error (.malformed text))
      ∨ ∃ r a rest field, segmentsOf text = r :: a :: rest
          ∧ ¬ Misshapen (segmentsOf text)
          ∧ Permission.parse text = ofSegments r.toList a.toList field := by
  unfold Permission.parse
  rw [segmentsOf_eq]
  match Text.segments ':' (Text.trimmed text.toList) with
  | [] => exact Or.inl ⟨by simp [Misshapen], rfl⟩
  | [_] => exact Or.inl ⟨by simp [Misshapen], rfl⟩
  | [r, a] =>
      refine Or.inr ⟨_, _, [], none, rfl, by simp [Misshapen], ?_⟩
      rw [String.toList_ofList, String.toList_ofList]
  | [r, a, f] =>
      dsimp only
      by_cases hf : f = []
      · rw [if_pos hf]
        exact Or.inl ⟨by simp [Misshapen, hf], rfl⟩
      · rw [if_neg hf]
        refine Or.inr ⟨_, _, [String.ofList f], some f, rfl, ?_, ?_⟩
        · simpa [Misshapen] using hf
        · rw [String.toList_ofList, String.toList_ofList]
  | _ :: _ :: _ :: _ :: _ => exact Or.inl ⟨by simp [Misshapen], rfl⟩

/-- A resource and an action are refused for the first of them that is
unknown. -/
theorem ofSegments_eq_error_iff {r a : String} {f : Option (List Char)} :
    ofSegments r.toList a.toList f = .error e
      ↔ (∀ x : Resource, x.name ≠ r) ∧ e = .unknownResource r
        ∨ (∃ x : Resource, x.name = r)
          ∧ (∀ x : Action, x.name ≠ a) ∧ e = .unknownAction a := by
  unfold ofSegments
  rw [String.ofList_toList, String.ofList_toList]
  cases hr : Resource.parse r with
  | error e' =>
      obtain ⟨hnone, rfl⟩ := Resource.parse_eq_error_iff.1 hr
      simp [bind, Except.bind, hnone, eq_comm]
  | ok x =>
      have hx : x.name = r := (Resource.parse_eq_ok_iff.1 hr).symm
      have hknown :
          ¬ ((∀ x : Resource, x.name ≠ r) ∧ e = .unknownResource r) :=
        fun h => h.1 x hx
      rw [or_iff_right hknown, and_iff_right ⟨x, hx⟩,
        ← Action.parse_eq_error_iff]
      cases Action.parse a <;> simp [bind, Except.bind, pure, Except.pure]

-- ================================================================= reading

/-- A text is refused for the first reason there is. -/
theorem parse_eq_error_iff :
    Permission.parse text = .error e ↔ Refusal text e := by
  rcases parse_eq_of_segmentsOf text with
    ⟨hshape, hparse⟩ | ⟨r, a, rest, field, hsegments, hshape, hparse⟩
  · rw [hparse, Except.error.injEq]
    constructor
    · rintro rfl
      exact .misshapen hshape
    · intro h
      cases h with
      | misshapen => rfl
      | noResource _ hnot => exact absurd hshape hnot
      | noAction _ hnot => exact absurd hshape hnot
  · rw [hparse, ofSegments_eq_error_iff]
    constructor
    · rintro (⟨hnone, rfl⟩ | ⟨⟨x, rfl⟩, hnone, rfl⟩)
      · exact .noResource hsegments hshape hnone
      · exact .noAction hsegments hshape hnone
    · intro h
      cases h with
      | misshapen h => exact absurd h hshape
      | noResource hsegments' _ hnone =>
          rw [hsegments] at hsegments'
          cases hsegments'
          exact Or.inl ⟨hnone, rfl⟩
      | @noAction x name rest' hsegments' _ hnone =>
          rw [hsegments] at hsegments'
          cases hsegments'
          exact Or.inr ⟨⟨x, rfl⟩, hnone, rfl⟩

/-- What is legible is written in one of the two forms. -/
theorem Legible.written (h : p.Legible) : Written p.render := by
  obtain ⟨r, a, field⟩ := p
  cases field with
  | none =>
      rw [render, String.append_empty]
      exact .plain r a
  | some f =>
      obtain ⟨hne, hcolon, -⟩ := h f rfl
      rw [render, ← String.append_assoc]
      exact .onField r a f hne hcolon

/-- A trim in one of the two forms is that of a legible permission: nothing
that ends a trim is a blank. -/
theorem exists_legible_of_written (h : Written (Text.trim text)) :
    ∃ p : Permission, p.Legible ∧ Text.trim text = p.render := by
  generalize htext : Text.trim text = written at h
  cases h with
  | plain r a =>
      refine ⟨⟨r, a, none⟩, ?_, ?_⟩
      · rintro _ ⟨⟩
      · rw [render, String.append_empty]
  | onField r a f hne hcolon =>
      have hrender :
          Text.trim text = (⟨r, a, some f⟩ : Permission).render := by
        rw [htext, render, ← String.append_assoc]
      refine ⟨⟨r, a, some f⟩, ?_, htext.symm.trans hrender⟩
      rintro _ ⟨⟩
      have hlast := (Text.edged_trimmed text.toList).2
      rw [← Text.toList_trim, hrender,
        getLast?_render rfl (toList_ne_nil hne)] at hlast
      exact ⟨hne, hcolon, hlast⟩

theorem exists_parse_eq_ok_iff :
    (∃ p, Permission.parse text = .ok p) ↔ Written (Text.trim text) := by
  simp only [parse_eq_ok_iff]
  constructor
  · rintro ⟨p, hp, htrim⟩
    rw [htrim]
    exact hp.written
  · exact exists_legible_of_written

/-- Reading and writing of permissions, over every text and every permission. A
text is read exactly if its trim has one of the two forms, and what is read is
written as that trim; any other text is refused for one reason, which is the
first that there is. A permission comes back from its written form exactly if
it is legible. -/
theorem read_or_refused :
    (∀ text, ((∃ p, Permission.parse text = .ok p) ↔ Written (Text.trim text))
        ∧ (∀ p, Permission.parse text = .ok p → p.render = Text.trim text)
        ∧ ∀ e, Permission.parse text = .error e ↔ Refusal text e)
      ∧ ∀ p : Permission, Permission.parse p.render = .ok p
          ↔ p.field = none
            ∨ ∃ f, p.field = some f ∧ f ≠ "" ∧ ':' ∉ f.toList
              ∧ ∀ c ∈ f.toList.getLast?, Text.isBlank c = false := by
  refine ⟨fun text => ⟨exists_parse_eq_ok_iff, fun p => render_of_parse,
    fun e => parse_eq_error_iff⟩, fun p => ?_⟩
  rw [parse_render_iff, Legible]
  cases p.field with
  | none => simp
  | some f => simp

/-- A permission on a field whose name ends in a blank. -/
def trailing : Permission := ⟨.users, .update, some "phone "⟩

/-- A permission between blanks comes back as its trim. Where both names are
unknown the resource is named, and an empty field counts before either; the
text then stays as it was given. A field that ends in a blank is lost. -/
theorem read_or_refused_samples :
    (∃ p, Permission.parse " users:update:home phone\n" = .ok p
        ∧ p.render = "users:update:home phone")
      ∧ Permission.parse " order:see" = .error (.unknownResource "order")
      ∧ Permission.parse " order:see: " = .error (.malformed " order:see: ")
      ∧ Permission.parse trailing.render ≠ .ok trailing := by
  obtain ⟨htexts, hback⟩ := read_or_refused
  have htrim : Text.trim " users:update:home phone\n"
      = "users" ++ ":" ++ "update" ++ ":" ++ "home phone" := by
    decide
  have hwritten : Written (Text.trim " users:update:home phone\n") := by
    rw [htrim]
    exact .onField .users .update "home phone" (by decide) (by decide)
  have hsee : segmentsOf " order:see" = ["order", "see"] := by
    decide
  obtain ⟨p, hp⟩ := (htexts _).1.2 hwritten
  refine ⟨⟨p, hp, ((htexts _).2.1 p hp).trans htrim⟩, ?_, ?_, ?_⟩
  · refine ((htexts _).2.2 _).2 (.noResource hsee ?_ ?_)
    · rw [hsee]
      simp [Misshapen]
    · intro r
      cases r <;> decide
  · refine ((htexts _).2.2 _).2 (.misshapen ?_)
    exact Or.inr (Or.inr (by decide))
  · intro h
    rcases (hback trailing).1 h with hnone | ⟨f, hf, -, -, hlast⟩
    · cases hnone
    · cases hf
      exact absurd (hlast ' ' rfl) (by decide)

end Permission

-- ================================================================== tokens

namespace Grant

variable {text : String} {e : TokenError}

/-- Why a text gives nothing to a set. Where it has the lead of scopes, what
follows is no scope; else it would have to be a permission and is none. -/
inductive Refusal (text : String) : TokenError → Prop
  | noScope {name : String} :
      text = Scope.lead ++ name → (∀ s : Scope, s.name ≠ name) →
      Refusal text (.unknownScope name)
  | noPermission {e : TokenError} :
      text ≠ superuserToken → (∀ name, text ≠ Scope.lead ++ name) →
      Permission.Refusal text e → Refusal text e

theorem after?_lead_append (name : String) :
    Text.after? Scope.lead.toList (Scope.lead ++ name).toList
      = some name.toList :=
  Text.after?_eq_some_iff.2 String.toList_append

/-- The superuser flag is not written with the lead of scopes. -/
theorem lead_append_ne_superuserToken (name : String) :
    Scope.lead ++ name ≠ superuserToken := by
  intro h
  have hlead := after?_lead_append name
  rw [h] at hlead
  have hnone : Text.after? Scope.lead.toList superuserToken.toList = none := by
    decide
  rw [hnone] at hlead
  cases hlead

/-- A text has the lead of scopes, or it is read as a permission. -/
theorem exists_lead_or (text : String) :
    (∃ name, text = Scope.lead ++ name
        ∧ Text.after? Scope.lead.toList text.toList = some name.toList)
      ∨ (∀ name, text ≠ Scope.lead ++ name)
        ∧ Text.after? Scope.lead.toList text.toList = none := by
  cases h : Text.after? Scope.lead.toList text.toList with
  | some rest =>
      refine Or.inl ⟨String.ofList rest, ?_, by rw [String.toList_ofList]⟩
      rw [← String.toList_inj, String.toList_append, String.toList_ofList]
      exact Text.after?_eq_some_iff.1 h
  | none =>
      refine Or.inr ⟨?_, rfl⟩
      rintro name rfl
      rw [after?_lead_append] at h
      cases h

/-- A text is refused for what it would have to be. -/
theorem parse_eq_error_iff : Grant.parse text = .error e ↔ Refusal text e := by
  unfold Grant.parse
  by_cases hsuper : text = superuserToken
  · rw [if_pos hsuper]
    constructor
    · intro h
      cases h
    · intro h
      cases h with
      | @noScope name hlead _ =>
          exact absurd (hlead.symm.trans hsuper)
            (lead_append_ne_superuserToken name)
      | noPermission hnot => exact absurd hsuper hnot
  · rw [if_neg hsuper]
    rcases exists_lead_or text with ⟨name, rfl, hsome⟩ | ⟨hlead, hnone⟩
    · rw [hsome, Option.isSome_some, if_pos rfl, map_eq_error_iff,
        Scope.parse_lead_append_eq_error_iff]
      constructor
      · rintro ⟨hnone, rfl⟩
        exact .noScope rfl hnone
      · intro h
        cases h with
        | noScope hname hnone =>
            rw [String.append_right_inj] at hname
            subst hname
            exact ⟨hnone, rfl⟩
        | noPermission _ hnot => exact absurd rfl (hnot name)
    · rw [hnone, Option.isSome_none, if_neg Bool.false_ne_true,
        map_eq_error_iff, Permission.parse_eq_error_iff]
      constructor
      · exact .noPermission hsuper hlead
      · intro h
        cases h with
        | @noScope name hname _ => exact absurd hname (hlead name)
        | noPermission _ _ h => exact h

end Grant

end WorkRouting
