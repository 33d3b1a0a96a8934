/-
What a permission set made of raw tokens holds. Insertion adds one grant and
nothing else (`PermissionSet.mem_insert`): it leaves a grant out only where one
with its token is there already, and no two grants have one token. By induction
over the raw tokens a set holds exactly what some token gives (`mem_ofTokens`),
which is to say that it holds the legible grants whose tokens are among the
trims (`mem_ofTokens_iff`). The order of the raw tokens and their repetitions
are gone from these statements.
-/
import Mathlib.Data.List.Sort
import WorkRouting.Proofs.Access.Token

namespace WorkRouting

theorem Grant.mem_insertInto {g x : Grant} {l : List Grant} :
    x ∈ g.insertInto l ↔ x = g ∨ x ∈ l := by
  constructor
  · exact Grant.of_mem_insertInto
  · induction l with
    | nil => simp [insertInto]
    | cons y rest ih =>
        intro h
        unfold insertInto
        split
        · simpa using h
        · split
          · next heq =>
              rcases h with rfl | h
              · rw [token_injective heq]
                exact List.mem_cons_self
              · exact h
          · rw [List.mem_cons]
            rcases h with rfl | h
            · exact Or.inr (ih (Or.inl rfl))
            · rcases List.mem_cons.1 h with rfl | h
              · exact Or.inl rfl
              · exact Or.inr (ih (Or.inr h))

namespace PermissionSet

variable {set : PermissionSet} {g x : Grant} {raw : String}
  {tokens : List String}

theorem mem_insert : x ∈ (set.insert g).grants ↔ x = g ∨ x ∈ set.grants :=
  Grant.mem_insertInto

/-- A raw token adds what it gives when read between blanks, if anything. -/
theorem mem_addToken :
    x ∈ (set.addToken raw).answer.grants
      ↔ x ∈ set.grants ∨ Grant.parse (Text.trim raw) = .ok x := by
  cases h : Grant.parse (Text.trim raw) with
  | error e =>
      simp only [addToken, insertToken, h, Except.map, reduceCtorEq, or_false]
  | ok g =>
      simp only [addToken, insertToken, h, Except.map, Except.ok.injEq]
      rw [mem_insert, or_comm, eq_comm (a := x)]

theorem mem_addTokens :
    x ∈ (set.addTokens tokens).answer.grants
      ↔ x ∈ set.grants
        ∨ ∃ raw ∈ tokens, Grant.parse (Text.trim raw) = .ok x := by
  induction tokens generalizing set with
  | nil => simp [addTokens]
  | cons raw rest ih =>
      simp only [addTokens, ih, mem_addToken, List.mem_cons, or_assoc,
        exists_eq_or_imp]

/-- A set made of raw tokens holds what some of them gives. -/
theorem mem_ofTokens :
    x ∈ (ofTokens tokens).answer.grants
      ↔ ∃ raw ∈ tokens, Grant.parse (Text.trim raw) = .ok x := by
  unfold ofTokens
  rw [mem_addTokens]
  simp [empty]

/-- A set made of raw tokens holds the legible grants whose tokens are among
the trims. -/
theorem mem_ofTokens_iff :
    x ∈ (ofTokens tokens).answer.grants
      ↔ x.Legible ∧ x.token ∈ tokens.map Text.trim := by
  simp only [mem_ofTokens, Grant.parse_trim_eq_ok_iff, List.mem_map]
  constructor
  · rintro ⟨raw, hraw, hx, htrim⟩
    exact ⟨hx, raw, hraw, htrim⟩
  · rintro ⟨hx, raw, hraw, htrim⟩
    exact ⟨raw, hraw, hx, htrim⟩

/-- To hold a legible grant is to have its token among the trims. -/
theorem mem_ofTokens_iff_token (hx : x.Legible) :
    x ∈ (ofTokens tokens).answer.grants ↔ x.token ∈ tokens.map Text.trim :=
  mem_ofTokens_iff.trans (and_iff_right hx)

/-- A set is determined by its grants, since they stand in order. -/
theorem eq_of_mem_iff {set' : PermissionSet}
    (h : ∀ x, x ∈ set.grants ↔ x ∈ set'.grants) : set = set' := by
  have hirrefl : Std.Irrefl Grant.Before := ⟨fun g => String.lt_irrefl g.token⟩
  have hantisymm : Std.Antisymm Grant.Before :=
    ⟨fun _ _ hgx hxg => absurd hxg (String.lt_asymm hgx)⟩
  obtain ⟨grants, hordered⟩ := set
  obtain ⟨grants', hordered'⟩ := set'
  have heq : grants = grants' := hordered.eq_of_mem_iff hordered' h
  subst heq
  rfl

/-- Neither order nor repetition of raw tokens makes a difference. -/
theorem ofTokens_congr {tokens' : List String}
    (h : ∀ raw, raw ∈ tokens ↔ raw ∈ tokens') :
    (ofTokens tokens).answer = (ofTokens tokens').answer := by
  refine eq_of_mem_iff fun x => ?_
  simp only [mem_ofTokens, h]

theorem isSuperuser_iff_mem :
    set.isSuperuser = true ↔ .superuser ∈ set.grants :=
  List.contains_iff_mem

theorem contains_iff_mem {p : Permission} :
    set.contains p = true ↔ .permission p ∈ set.grants :=
  List.contains_iff_mem

theorem hasScope_iff_mem {s : Scope} :
    set.hasScope s = true ↔ .scope s ∈ set.grants :=
  List.contains_iff_mem

/-- Whether the set has what a token can give. -/
def has (set : PermissionSet) : Grant → Bool
  | .superuser => set.isSuperuser
  | .scope s => set.hasScope s
  | .permission p => set.contains p

theorem has_iff_mem : set.has x = true ↔ x ∈ set.grants := by
  cases x with
  | superuser => exact isSuperuser_iff_mem
  | scope s => exact hasScope_iff_mem
  | permission p => exact contains_iff_mem

end PermissionSet

end WorkRouting
