/-
How a permission set is gathered from raw tokens.

A set holds the legible grants whose tokens are among the trims of the raw
tokens, so two lists together give the union of what each gives, and nothing
counts but which recognised trims there are. `Edit` lists the changes of a list
that leave those: another order, a repetition, blanks around a token, a token
that nobody recognises. However many edits lie between two lists, either way,
they give one set (`ofTokens_eq_of_edits`).

What is not recognised leaves a trace in the report only: one warning for each
such token, in the order of the list (`skipped_events`). It leaves none in the
set, because a token is read before anything is added: adding a token either
adds the one thing that it stands for or fails and adds nothing
(`insertToken_eq_ok_iff`, `after_of_refused`).
-/
import Mathlib.Logic.Relation
import WorkRouting.Proofs.Access.Canonical
import WorkRouting.Proofs.Access.Refusal

namespace WorkRouting

namespace PermissionSet

variable {set set' : PermissionSet} {x : Grant} {raw text : String}
  {a b tokens : List String} {e : TokenError}

-- ============================================================== vocabulary

/-- Between blanks, the raw token is the token of something. -/
def Recognised (raw : String) : Prop :=
  ∃ g : Grant, g.Legible ∧ Text.trim raw = g.token

/-- A change of a list of raw tokens that should make no difference to what
they give. -/
inductive Edit : List String → List String → Prop
  | reorder {a b : List String} : a.Perm b → Edit a b
  | repetition {front back : List String} {raw : String} :
      raw ∈ front ++ back → Edit (front ++ back) (front ++ raw :: back)
  | blanks {front back : List String} {raw left right : String} :
      Text.isBlankText left = true → Text.isBlankText right = true →
      Edit (front ++ raw :: back) (front ++ (left ++ raw ++ right) :: back)
  | stray {front back : List String} {raw : String} :
      ¬ Recognised raw → Edit (front ++ back) (front ++ raw :: back)

/-- The warning over a raw token: it repeats the trim and says why that stands
for nothing. -/
def SkippedFor (raw : String) (event : Event) : Prop :=
  ∃ e, Grant.Refusal (Text.trim raw) e
    ∧ event = .tokenSkipped (Text.trim raw) e

-- ============================================================= recognition

theorem recognised_iff :
    Recognised raw ↔ ∃ g, Grant.parse (Text.trim raw) = .ok g := by
  simp only [Recognised, Grant.parse_trim_eq_ok_iff]

instance (raw : String) : Decidable (Recognised raw) :=
  match h : Grant.parse (Text.trim raw) with
  | .ok g => isTrue (recognised_iff.2 ⟨g, h⟩)
  | .error _ => isFalse fun hg => by
      obtain ⟨g, hg⟩ := recognised_iff.1 hg
      rw [h] at hg
      cases hg

-- =================================================================== union

theorem mem_ofTokens_append :
    x ∈ (ofTokens (a ++ b)).answer.grants
      ↔ x ∈ (ofTokens a).answer.grants ∨ x ∈ (ofTokens b).answer.grants := by
  simp only [mem_ofTokens_iff, List.map_append, List.mem_append,
    and_or_left]

theorem has_ofTokens_append :
    (ofTokens (a ++ b)).answer.has x
      = ((ofTokens a).answer.has x || (ofTokens b).answer.has x) := by
  rw [Bool.eq_iff_iff, Bool.or_eq_true, has_iff_mem, has_iff_mem, has_iff_mem]
  exact mem_ofTokens_append

-- =================================================================== edits

/-- One edit leaves the set as it is. -/
theorem Edit.ofTokens_eq (h : Edit a b) :
    (ofTokens a).answer = (ofTokens b).answer := by
  refine eq_of_mem_iff fun x => ?_
  rw [mem_ofTokens_iff, mem_ofTokens_iff]
  refine and_congr_right fun hx => ?_
  cases h with
  | reorder hperm => exact (hperm.map Text.trim).mem_iff
  | repetition hraw =>
      rw [(List.perm_middle.map Text.trim).mem_iff, List.map_cons,
        List.mem_cons, iff_or_self]
      intro heq
      rw [heq]
      exact List.mem_map_of_mem hraw
  | blanks hleft hright =>
      rw [List.map_append, List.map_append, List.map_cons, List.map_cons,
        Text.trim_append _ hleft hright]
  | stray hraw =>
      rw [(List.perm_middle.map Text.trim).mem_iff, List.map_cons,
        List.mem_cons, iff_or_self]
      intro heq
      exact absurd ⟨x, hx, heq.symm⟩ hraw

/-- However many edits lie between two lists, either way, they give one set. -/
theorem ofTokens_eq_of_edits (h : Relation.EqvGen Edit a b) :
    (ofTokens a).answer = (ofTokens b).answer := by
  induction h with
  | rel _ _ hedit => exact hedit.ofTokens_eq
  | refl => rfl
  | symm _ _ _ ih => exact ih.symm
  | trans _ _ _ _ _ ih ih' => exact ih.trans ih'

-- ================================================================ warnings

/-- A token that is recognised is added without a word. -/
theorem events_addToken_of_recognised (h : Recognised raw) :
    (set.addToken raw).events = [] := by
  obtain ⟨g, hg⟩ := recognised_iff.1 h
  simp only [addToken, insertToken, hg, Except.map]

/-- One that is not is warned of once. -/
theorem events_addToken_of_not_recognised (h : ¬ Recognised raw) :
    ∃ event, SkippedFor raw event ∧ (set.addToken raw).events = [event] := by
  cases hparse : Grant.parse (Text.trim raw) with
  | ok g => exact absurd (recognised_iff.2 ⟨g, hparse⟩) h
  | error e =>
      refine ⟨_, ⟨e, Grant.parse_eq_error_iff.1 hparse, rfl⟩, ?_⟩
      simp only [addToken, insertToken, hparse, Except.map]

/-- The warnings are over the tokens that are not recognised, one for each and
in their order. -/
theorem skipped_events (set : PermissionSet) (tokens : List String) :
    List.Forall₂ SkippedFor (tokens.filter (¬ Recognised ·))
      (set.addTokens tokens).events := by
  induction tokens generalizing set with
  | nil => exact .nil
  | cons raw rest ih =>
      rw [addTokens]
      dsimp only
      by_cases h : Recognised raw
      · rw [List.filter_cons_of_neg (by simpa using h),
          events_addToken_of_recognised h]
        exact ih _
      · obtain ⟨event, hevent, heq⟩ := events_addToken_of_not_recognised h
        rw [List.filter_cons_of_pos (by simpa using h), heq]
        exact .cons hevent (ih _)

-- =============================================================== one token

/-- A token is added as the one thing that it stands for. -/
theorem insertToken_eq_ok_iff :
    set.insertToken text = .ok set'
      ↔ ∃ g : Grant, g.Denoted text
          ∧ ∀ x, set'.has x = true ↔ x = g ∨ set.has x = true := by
  unfold insertToken
  simp only [map_eq_ok_iff, Grant.parse_eq_ok_iff]
  refine exists_congr fun g => and_congr_right fun _ => ?_
  simp only [has_iff_mem]
  constructor
  · rintro rfl x
    exact mem_insert
  · intro h
    exact eq_of_mem_iff fun x => mem_insert.trans (h x).symm

theorem insertToken_eq_error_iff :
    set.insertToken text = .error e ↔ Grant.Refusal text e := by
  unfold insertToken
  rw [map_eq_error_iff, Grant.parse_eq_error_iff]

/-- A refused token leaves the set as it was. -/
theorem after_of_refused (h : set.insertToken text = .error e) :
    Step.after set (.token text) = set := by
  rw [Step.after, h]

/-- What raw tokens give, over every list and every set. Two lists give the
union of what each gives; lists between which there are only edits give one
set; the tokens that are not recognised are warned of, one by one and in their
order; and a single token adds the one thing that it stands for, or fails and
adds nothing. -/
theorem ofTokens_gathers :
    (∀ a b x, (ofTokens (a ++ b)).answer.has x
        = ((ofTokens a).answer.has x || (ofTokens b).answer.has x))
      ∧ (∀ a b, Relation.EqvGen Edit a b →
          (ofTokens a).answer = (ofTokens b).answer)
      ∧ (∀ tokens, List.Forall₂ SkippedFor (tokens.filter (¬ Recognised ·))
          (ofTokens tokens).events)
      ∧ ∀ (set : PermissionSet) (text : String),
          (∀ set', set.insertToken text = .ok set'
            ↔ ∃ g : Grant, g.Denoted text
                ∧ ∀ x, set'.has x = true ↔ x = g ∨ set.has x = true)
          ∧ ∀ e, set.insertToken text = .error e
              → Grant.Refusal text e ∧ Step.after set (.token text) = set :=
  ⟨fun _ _ _ => has_ofTokens_append, fun _ _ => ofTokens_eq_of_edits,
    skipped_events empty, fun _ _ => ⟨fun _ => insertToken_eq_ok_iff,
      fun _ h => ⟨insertToken_eq_error_iff.1 h, after_of_refused h⟩⟩⟩

/-- Two tokens, one of them once more between blanks, and a third that nobody
recognises. -/
def sampleTokens : List String :=
  ["superuser", "order:view", " orders:view\n", "orders:view"]

/-- The sample lies one edit of each kind away from its two plain tokens, and
one of its tokens is warned of. The flag is not read between blanks: a single
token that has some is refused and adds nothing. -/
theorem sample_gathered :
    (ofTokens ["orders:view", "superuser"]).answer
        = (ofTokens sampleTokens).answer
      ∧ (ofTokens (["orders:view"] ++ ["superuser"])).answer.has .superuser
        = true
      ∧ (∃ event, SkippedFor "order:view" event
          ∧ (ofTokens sampleTokens).events = [event])
      ∧ empty.insertToken "superuser" = .ok superuser
      ∧ Step.after empty (.token " superuser") = empty := by
  obtain ⟨hunion, hedits, hevents, hinsert⟩ := ofTokens_gathers
  have hreorder :
      Edit ["orders:view", "superuser"] ["superuser", "orders:view"] :=
    .reorder (List.Perm.swap _ _ _)
  have hrepetition : Edit (["superuser"] ++ ["orders:view"])
      (["superuser"] ++ "orders:view" :: ["orders:view"]) :=
    .repetition (by decide)
  have hblanks : Edit (["superuser"] ++ "orders:view" :: ["orders:view"])
      (["superuser"] ++ (" " ++ "orders:view" ++ "\n") :: ["orders:view"]) :=
    .blanks (by decide) (by decide)
  have hstray : Edit (["superuser"] ++ [" orders:view\n", "orders:view"])
      (["superuser"] ++ "order:view" :: [" orders:view\n", "orders:view"]) :=
    .stray (by decide)
  refine ⟨hedits _ _ ?_, ?_, ?_, ?_, ?_⟩
  · refine .trans _ _ _ (.rel _ _ hreorder) ?_
    refine .trans _ _ _ (.rel _ _ hrepetition) ?_
    exact .trans _ _ _ (.rel _ _ hblanks) (.rel _ _ hstray)
  · rw [hunion]
    decide
  · have hskipped := hevents sampleTokens
    have hfilter : sampleTokens.filter (¬ Recognised ·) = ["order:view"] := by
      decide
    rw [hfilter] at hskipped
    generalize (ofTokens sampleTokens).events = events at hskipped
    cases hskipped with
    | cons hevent hrest =>
        cases hrest
        exact ⟨_, hevent, rfl⟩
  · refine ((hinsert empty "superuser").1 superuser).2 ⟨.superuser, rfl, ?_⟩
    intro x
    cases x <;> simp [has, superuser, empty, isSuperuser, hasScope, contains]
  · exact ((hinsert empty " superuser").2 _ rfl).2

end PermissionSet

end WorkRouting
