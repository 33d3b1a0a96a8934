/-
Tokens and what they give: reading and writing are inverse to each other, up to
blanks at the ends.

The main statement is `Grant.parse_eq_ok_iff`: a text gives a grant exactly
when it stands for it (`Grant.Denoted`), and the three kinds of token exclude
each other. For a raw string, read between blanks, this is to say that its trim
is the token of the grant (`Grant.parse_trim_eq_ok_iff`). So reading loses no
grant and invents none, and to have a grant is to have its text. The one side
condition is on permissions with a field: a field that is empty, holds a colon
or ends in a blank has a written form which no reader takes for it
(`Permission.Legible`, `Permission.parse_render_iff`).

Below it stand, for each vocabulary, that names are read as what bears them
(`parse_eq_ok_iff`), and for the written form of a permission its two cuts at
colons, from which its segments and the injectivity of writing follow.
-/
import WorkRouting.Access.PermissionSet
import WorkRouting.Proofs.Except
import WorkRouting.Proofs.Text

namespace WorkRouting

-- ============================================================ vocabularies

namespace Resource

theorem name_injective (r s : Resource) (h : r.name = s.name) : r = s := by
  revert h
  cases r <;> cases s <;> decide

theorem parse_eq_ok_iff {text : String} {r : Resource} :
    Resource.parse text = .ok r ↔ text = r.name := by
  rw [← find?_name_eq_some_iff mem_all name_injective, Resource.parse]
  cases all.find? (·.name == text) <;> simp

theorem parse_eq_error_iff {text : String} {e : TokenError} :
    Resource.parse text = .error e
      ↔ (∀ x : Resource, x.name ≠ text) ∧ e = .unknownResource text := by
  rw [← find?_name_eq_none_iff mem_all, Resource.parse]
  cases all.find? (·.name == text) <;> simp [eq_comm]

theorem colon_not_mem_name (r : Resource) : ':' ∉ r.name.toList := by
  cases r <;> decide

theorem head?_name (r : Resource) :
    ∀ c ∈ r.name.toList.head?, Text.isBlank c = false := by
  refine Text.not_blank_of_all ?_
  cases r <;> decide

theorem name_ne_scope (r : Resource) : r.name ≠ "scope" := by
  cases r <;> decide

end Resource

namespace Action

theorem name_injective (a b : Action) (h : a.name = b.name) : a = b := by
  revert h
  cases a <;> cases b <;> decide

theorem parse_eq_ok_iff {text : String} {a : Action} :
    Action.parse text = .ok a ↔ text = a.name := by
  rw [← find?_name_eq_some_iff mem_all name_injective, Action.parse]
  cases all.find? (·.name == text) <;> simp

theorem parse_eq_error_iff {text : String} {e : TokenError} :
    Action.parse text = .error e
      ↔ (∀ x : Action, x.name ≠ text) ∧ e = .unknownAction text := by
  rw [← find?_name_eq_none_iff mem_all, Action.parse]
  cases all.find? (·.name == text) <;> simp [eq_comm]

theorem colon_not_mem_name (a : Action) : ':' ∉ a.name.toList := by
  cases a <;> decide

theorem getLast?_name (a : Action) :
    ∀ c ∈ a.name.toList.getLast?, Text.isBlank c = false := by
  refine Text.not_blank_of_all ?_
  cases a <;> decide

end Action

namespace Scope

theorem name_injective (s t : Scope) (h : s.name = t.name) : s = t := by
  revert h
  cases s <;> cases t <;> decide

theorem token_injective (s t : Scope) (h : s.token = t.token) : s = t := by
  revert h
  cases s <;> cases t <;> decide

theorem toList_token (s : Scope) :
    s.token.toList = Scope.lead.toList ++ s.name.toList :=
  String.toList_append

theorem parse_eq_ok_iff {text : String} {s : Scope} :
    Scope.parse text = .ok s ↔ text = s.token := by
  rw [← String.toList_inj, toList_token, ← Text.after?_eq_some_iff,
    Scope.parse]
  cases Text.after? Scope.lead.toList text.toList with
  | none => simp
  | some rest =>
      have hname : every.find? (·.name == String.ofList rest) = some s
          ↔ String.ofList rest = s.name :=
        find?_name_eq_some_iff mem_every name_injective
      rw [← String.toList_inj, String.toList_ofList] at hname
      rw [Option.some.injEq, ← hname]
      dsimp only
      cases every.find? (·.name == String.ofList rest) <;> simp

theorem parse_lead_append_eq_error_iff {name : String} {e : TokenError} :
    Scope.parse (Scope.lead ++ name) = .error e
      ↔ (∀ x : Scope, x.name ≠ name) ∧ e = .unknownScope name := by
  have hrest : Text.after? Scope.lead.toList (Scope.lead ++ name).toList
      = some name.toList :=
    Text.after?_eq_some_iff.2 String.toList_append
  rw [← find?_name_eq_none_iff mem_every, Scope.parse, hrest]
  dsimp only
  rw [String.ofList_toList]
  cases every.find? (·.name == name) <;> simp [eq_comm]

end Scope

-- ====================================================== written permissions

namespace Permission

/-- The written form comes back: there is no field, or one that is not empty,
holds no colon and does not end in a blank. -/
def Legible (p : Permission) : Prop :=
  ∀ f, p.field = some f →
    f ≠ "" ∧ ':' ∉ f.toList ∧ ∀ c ∈ f.toList.getLast?, Text.isBlank c = false

theorem toList_ne_nil {s : String} (h : s ≠ "") : s.toList ≠ [] := by
  rw [← String.toList_empty, Ne, String.toList_inj]
  exact h

/-- What stands behind the action. -/
def fieldPart (p : Permission) : List Char :=
  match p.field with
  | none => []
  | some f => ':' :: f.toList

theorem toList_render (p : Permission) :
    p.render.toList
      = p.resource.name.toList
          ++ ':' :: (p.action.name.toList ++ p.fieldPart) := by
  obtain ⟨r, a, field⟩ := p
  cases field <;>
    simp [render, fieldPart, String.toList_append]

/-- The first cut parts the resource from what follows. -/
theorem cut_render (p : Permission) :
    Text.cut ':' p.render.toList
      = (p.resource.name.toList,
          some (p.action.name.toList ++ p.fieldPart)) := by
  rw [toList_render]
  exact Text.cut_append p.resource.colon_not_mem_name _

/-- The second cut parts the action from the field. -/
theorem cut_action_fieldPart (p : Permission) :
    Text.cut ':' (p.action.name.toList ++ p.fieldPart)
      = (p.action.name.toList, p.field.map String.toList) := by
  have h := p.action.colon_not_mem_name
  unfold fieldPart
  cases p.field with
  | none =>
      rw [List.append_nil, Text.cut_of_not_mem h]
      rfl
  | some f => exact Text.cut_append h f.toList

/-- No two permissions are written alike. -/
theorem render_injective {p q : Permission} (h : p.render = q.render) :
    p = q := by
  have h₁ : Text.cut ':' p.render.toList = Text.cut ':' q.render.toList := by
    rw [h]
  rw [cut_render, cut_render, Prod.mk.injEq, Option.some.injEq] at h₁
  have h₂ : Text.cut ':' (p.action.name.toList ++ p.fieldPart)
      = Text.cut ':' (q.action.name.toList ++ q.fieldPart) := by
    rw [h₁.2]
  rw [cut_action_fieldPart, cut_action_fieldPart, Prod.mk.injEq] at h₂
  obtain ⟨r, a, field⟩ := p
  obtain ⟨r', a', field'⟩ := q
  have hr := Resource.name_injective r r' (String.toList_inj.1 h₁.1)
  have ha := Action.name_injective a a' (String.toList_inj.1 h₂.1)
  have hfield := Option.map_injective (fun _ _ => String.toList_inj.1) h₂.2
  subst hr ha hfield
  rfl

/-- The segments of the written form, as long as the field adds none. -/
theorem segments_render {p : Permission} (h : p.Legible) :
    Text.segments ':' p.render.toList
      = p.resource.name.toList :: p.action.name.toList
          :: (p.field.map String.toList).toList := by
  rw [toList_render, Text.segments_append p.resource.colon_not_mem_name]
  unfold fieldPart
  cases hf : p.field with
  | none =>
      rw [List.append_nil,
        Text.segments_of_not_mem p.action.colon_not_mem_name]
      rfl
  | some f =>
      dsimp only
      rw [Text.segments_append p.action.colon_not_mem_name,
        Text.segments_of_not_mem (h f hf).2.1]
      rfl

/-- A field ends the written form. -/
theorem getLast?_render {p : Permission} {f : String} (hf : p.field = some f)
    (hne : f.toList ≠ []) : p.render.toList.getLast? = f.toList.getLast? := by
  have hsplit : p.render.toList
      = (p.resource.name.toList ++ ':' :: (p.action.name.toList ++ [':']))
        ++ f.toList := by
    rw [toList_render, fieldPart, hf]
    simp
  rw [hsplit, List.getLast?_append_of_ne_nil _ hne]

/-- A legible permission is written without blanks at the ends. -/
theorem edged_render {p : Permission} (h : p.Legible) :
    Text.Edged p.render.toList := by
  constructor
  · have hresource : p.resource.name.toList ≠ [] := by
      cases p.resource <;> decide
    rw [toList_render, List.head?_append_of_ne_nil _ hresource]
    exact p.resource.head?_name
  · cases hf : p.field with
    | none =>
        have haction : p.action.name.toList ≠ [] := by
          cases p.action <;> decide
        have hsplit : p.render.toList
            = (p.resource.name.toList ++ [':']) ++ p.action.name.toList := by
          rw [toList_render, fieldPart, hf]
          simp
        rw [hsplit, List.getLast?_append_of_ne_nil _ haction]
        exact p.action.getLast?_name
    | some f =>
        obtain ⟨hne, -, hlast⟩ := h f hf
        rw [getLast?_render hf (toList_ne_nil hne)]
        exact hlast

/-- A permission from its segments is the one whose parts they name. -/
theorem ofSegments_eq_ok_iff {r a : List Char} {f : Option (List Char)}
    {p : Permission} :
    ofSegments r a f = .ok p
      ↔ r = p.resource.name.toList ∧ a = p.action.name.toList
          ∧ f = p.field.map String.toList := by
  have hname : ∀ (cs : List Char) (s : String),
      String.ofList cs = s ↔ cs = s.toList := by
    intro cs s
    rw [← String.toList_inj, String.toList_ofList]
  have hfield : ∀ f : Option (List Char),
      (f.map String.ofList).map String.toList = f := by
    intro f
    cases f <;> simp
  obtain ⟨resource, action, field⟩ := p
  simp only [ofSegments, bind_eq_ok_iff, Resource.parse_eq_ok_iff,
    Action.parse_eq_ok_iff, hname]
  constructor
  · rintro ⟨r', hr, a', ha, h⟩
    cases h
    exact ⟨hr, ha, (hfield f).symm⟩
  · rintro ⟨hr, ha, hf⟩
    refine ⟨resource, hr, action, ha, ?_⟩
    rw [hf]
    cases field <;> simp [pure, Except.pure]

/-- A text is read by its trim, so what it gives is written as its trim. -/
theorem render_of_parse {text : String} {p : Permission}
    (h : Permission.parse text = .ok p) : p.render = Text.trim text := by
  have hjoin := Text.intercalate_segments ':' (Text.trimmed text.toList)
  rw [← String.toList_inj, Text.toList_trim, toList_render, ← hjoin]
  unfold parse at h
  split at h
  · next r a hseg =>
      obtain ⟨rfl, rfl, hf⟩ := ofSegments_eq_ok_iff.1 h
      rw [hseg, fieldPart, Option.map_eq_none_iff.1 hf.symm]
      simp [List.intercalate_cons_cons]
  · next r a f hseg =>
      split at h
      · cases h
      · obtain ⟨rfl, rfl, hf⟩ := ofSegments_eq_ok_iff.1 h
        obtain ⟨field, hfield, rfl⟩ := Option.map_eq_some_iff.1 hf.symm
        rw [hseg, fieldPart, hfield]
        simp [List.intercalate_cons_cons]
  · cases h

/-- What is read is legible: its field is a segment, stands at the end of a
trim, and is refused when empty. -/
theorem legible_of_parse {text : String} {p : Permission}
    (h : Permission.parse text = .ok p) : p.Legible := by
  intro field hfield
  have hrender := render_of_parse h
  unfold parse at h
  split at h
  · obtain ⟨-, -, hf⟩ := ofSegments_eq_ok_iff.1 h
    rw [hfield] at hf
    cases hf
  · next r a f hseg =>
      split at h
      · cases h
      · next hne =>
          obtain ⟨-, -, hf⟩ := ofSegments_eq_ok_iff.1 h
          rw [hfield, Option.map_some, Option.some.injEq] at hf
          subst hf
          refine ⟨?_, ?_, ?_⟩
          · rintro rfl
            exact hne rfl
          · have hmem : field.toList
                ∈ Text.segments ':' (Text.trimmed text.toList) := by
              rw [hseg]
              simp
            exact Text.not_mem_of_mem_segments hmem
          · have hlast := (Text.edged_trimmed text.toList).2
            rw [← Text.toList_trim, ← hrender,
              getLast?_render hfield hne] at hlast
            exact hlast
  · cases h

/-- A text is read as a permission exactly when the permission is legible and
written as the trim of the text. -/
theorem parse_eq_ok_iff {text : String} {p : Permission} :
    Permission.parse text = .ok p ↔ p.Legible ∧ Text.trim text = p.render := by
  constructor
  · intro h
    exact ⟨legible_of_parse h, (render_of_parse h).symm⟩
  · rintro ⟨hp, ht⟩
    have hseg := segments_render hp
    rw [← ht, Text.toList_trim] at hseg
    unfold parse
    cases hf : p.field with
    | none =>
        rw [hf] at hseg
        rw [hseg]
        exact ofSegments_eq_ok_iff.2 ⟨rfl, rfl, by rw [hf]; rfl⟩
    | some f =>
        rw [hf] at hseg
        rw [hseg]
        dsimp only [Option.map_some, Option.toList_some]
        rw [if_neg (toList_ne_nil (hp f hf).1)]
        exact ofSegments_eq_ok_iff.2 ⟨rfl, rfl, by rw [hf]; rfl⟩

/-- What is written comes back exactly when it is legible. -/
theorem parse_render_iff {p : Permission} :
    Permission.parse p.render = .ok p ↔ p.Legible := by
  rw [parse_eq_ok_iff]
  constructor
  · rintro ⟨hp, -⟩
    exact hp
  · intro hp
    refine ⟨hp, ?_⟩
    rw [← String.toList_inj, Text.toList_trim]
    exact Text.trimmed_eq_self_iff.2 (edged_render hp)

end Permission

-- ================================================================== grants

namespace Grant

/-- The token of the grant comes back; only a permission may fail this. -/
def Legible : Grant → Prop
  | superuser => True
  | scope _ => True
  | permission p => p.Legible

/-- The token of a permission is none of a scope: no resource is a scope. -/
theorem not_lead_of_render (p : Permission) :
    Text.after? Scope.lead.toList p.render.toList = none := by
  cases h : Text.after? Scope.lead.toList p.render.toList with
  | none => rfl
  | some rest =>
      have hcut := p.cut_render
      have hlead : Scope.lead.toList ++ rest
          = "scope".toList ++ ':' :: rest := rfl
      rw [Text.after?_eq_some_iff.1 h, hlead, Text.cut_append (by decide),
        Prod.mk.injEq] at hcut
      exact absurd (String.toList_inj.1 hcut.1.symm) p.resource.name_ne_scope

/-- The token of a permission is not that of the superuser: it has a colon. -/
theorem render_ne_superuserToken (p : Permission) :
    p.render ≠ superuserToken := by
  intro h
  have hcut := p.cut_render
  rw [h, Text.cut_of_not_mem (by decide), Prod.mk.injEq] at hcut
  cases hcut.2

theorem token_ne_superuserToken (s : Scope) : s.token ≠ superuserToken := by
  cases s <;> decide

theorem after?_token (s : Scope) :
    Text.after? Scope.lead.toList s.token.toList = some s.name.toList := by
  rw [Scope.toList_token]
  exact Text.after?_eq_some_iff.2 rfl

/-- No two grants have one token. -/
theorem token_injective {g h : Grant} (heq : g.token = h.token) : g = h := by
  cases g with
  | superuser =>
      cases h with
      | superuser => rfl
      | scope s => exact absurd heq.symm (token_ne_superuserToken s)
      | permission p => exact absurd heq.symm (render_ne_superuserToken p)
  | scope s =>
      cases h with
      | superuser => exact absurd heq (token_ne_superuserToken s)
      | scope t => exact congrArg scope (Scope.token_injective s t heq)
      | permission p =>
          have hlead := not_lead_of_render p
          rw [← show s.token = p.render from heq, after?_token] at hlead
          cases hlead
  | permission p =>
      cases h with
      | superuser => exact absurd heq (render_ne_superuserToken p)
      | scope s =>
          have hlead := not_lead_of_render p
          rw [show p.render = s.token from heq, after?_token] at hlead
          cases hlead
      | permission q =>
          exact congrArg permission (Permission.render_injective heq)

/-- The lead of scopes is not lost by trimming. -/
theorem after?_trim {text : String}
    (h : (Text.after? Scope.lead.toList text.toList).isSome = true) :
    (Text.after? Scope.lead.toList (Text.trim text).toList).isSome = true := by
  obtain ⟨rest, hrest⟩ := Option.isSome_iff_exists.1 h
  have hlead : Text.Edged Scope.lead.toList :=
    ⟨Text.not_blank_of_all (by decide), Text.not_blank_of_all (by decide)⟩
  obtain ⟨rest', hrest'⟩ :=
    Text.exists_trimmed_append (by decide) hlead rest
  rw [Text.toList_trim, Text.after?_eq_some_iff.1 hrest, hrest',
    Text.after?_eq_some_iff.2 rfl]
  rfl

/-- What a text stands for. The token of the superuser and those of scopes are
compared as they stand, that of a permission between blanks. -/
def Denoted (text : String) : Grant → Prop
  | superuser => text = superuserToken
  | scope s => text = s.token
  | permission p => p.Legible ∧ Text.trim text = p.render

/-- A text gives what it stands for: the three kinds of token exclude each
other, so it does not matter which is tried first. -/
theorem parse_eq_ok_iff {text : String} {g : Grant} :
    Grant.parse text = .ok g ↔ g.Denoted text := by
  unfold Grant.parse
  split
  · next hsuper =>
      subst hsuper
      cases g with
      | superuser => simp [Denoted]
      | scope s => simp [Denoted, (token_ne_superuserToken s).symm]
      | permission p =>
          have htrim : Text.trim superuserToken = superuserToken := by
            decide
          simp [Denoted, htrim, (render_ne_superuserToken p).symm]
  · next hsuper =>
      split
      · next hlead =>
          rw [map_eq_ok_iff]
          cases g with
          | superuser => simp [Denoted, hsuper]
          | scope s => simp [Denoted, Scope.parse_eq_ok_iff]
          | permission p =>
              have hne : Text.trim text ≠ p.render := by
                intro htrim
                have hkept := after?_trim hlead
                rw [htrim, not_lead_of_render] at hkept
                cases hkept
              simp [Denoted, hne]
      · next hlead =>
          rw [map_eq_ok_iff]
          cases g with
          | superuser => simp [Denoted, hsuper]
          | scope s =>
              have hne : text ≠ s.token := by
                rintro rfl
                rw [after?_token] at hlead
                exact hlead rfl
              simp [Denoted, hne]
          | permission p => simp [Denoted, Permission.parse_eq_ok_iff]

/-- A raw string, read between blanks, gives a grant exactly when its trim is
the token of the grant and the grant is legible. -/
theorem parse_trim_eq_ok_iff {raw : String} {g : Grant} :
    Grant.parse (Text.trim raw) = .ok g
      ↔ g.Legible ∧ Text.trim raw = g.token := by
  rw [parse_eq_ok_iff]
  cases g with
  | superuser => simp [Denoted, Legible, token]
  | scope s => simp [Denoted, Legible, token]
  | permission p => simp [Denoted, Legible, token, Text.trim_trim]

/-- What is read is legible. -/
theorem legible_of_parse {text : String} {g : Grant}
    (h : Grant.parse text = .ok g) : g.Legible := by
  have hdenoted := parse_eq_ok_iff.1 h
  cases g with
  | superuser => trivial
  | scope s => trivial
  | permission p => exact hdenoted.1

/-- The token of a legible grant has no blank at its ends. -/
theorem trim_token {g : Grant} (h : g.Legible) :
    Text.trim g.token = g.token := by
  rw [← String.toList_inj, Text.toList_trim]
  refine Text.trimmed_eq_self ?_
  cases g with
  | superuser =>
      exact ⟨Text.not_blank_of_all (by decide),
        Text.not_blank_of_all (by decide)⟩
  | scope s =>
      constructor <;> refine Text.not_blank_of_all ?_ <;> cases s <;> decide
  | permission p => exact Permission.edged_render h

end Grant

end WorkRouting
