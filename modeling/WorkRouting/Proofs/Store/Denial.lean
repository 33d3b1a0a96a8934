/-
Denials and what they take away. Denials are subtracted from the stored texts,
before any of them is read, while reading drops the white space at both ends of
a text. So a denial takes away its own text, and what the text gives is gone
unless another spelling of it is left: one that differs from the denied text in
white space at the ends only, since no two grants have one token
(`has_iff_other_spelling`). Where texts are stored as they are read, there is
no other spelling and the denial wins (`no_other_spelling`). Where a token that
is read for the user is no text, nothing is held at all.
-/
import WorkRouting.Proofs.Store.Tokens

namespace WorkRouting

namespace PermissionSet

variable {x : Grant} {text : String}

/-- A text that gives something on its own is read as its token. -/
theorem has_ofTokens_singleton_iff :
    (ofTokens [text]).answer.has x = true
      ↔ x.Legible ∧ Text.trim text = x.token := by
  rw [has_iff_mem, mem_ofTokens]
  simp only [List.mem_singleton, exists_eq_left, Grant.parse_trim_eq_ok_iff]

end PermissionSet

namespace Store

variable {s : Store} {user : UserId} {x : Grant} {denied : String}
  {tokens : List String}

/-- What a denied text gives is left exactly where another spelling of the text
is left. -/
theorem has_iff_other_spelling
    (hmem : ∀ t, t ∈ tokens ↔ s.Gives user t ∧ ¬ s.Denies user t)
    (hdenied : s.Denies user denied)
    (hreads : (PermissionSet.ofTokens [denied]).answer.has x = true) :
    (PermissionSet.ofTokens tokens).answer.has x = true
      ↔ ∃ t, t ≠ denied ∧ Text.trim t = Text.trim denied
          ∧ s.Gives user t ∧ ¬ s.Denies user t := by
  obtain ⟨hlegible, htoken⟩ :=
    PermissionSet.has_ofTokens_singleton_iff.1 hreads
  rw [PermissionSet.has_iff_mem,
    PermissionSet.mem_ofTokens_iff_token hlegible, List.mem_map, htoken]
  refine exists_congr fun t => ?_
  rw [hmem, and_comm (a := _ ∧ _)]
  constructor
  · rintro ⟨htrim, hgives, hleft⟩
    refine ⟨?_, htrim, hgives, hleft⟩
    rintro rfl
    exact hleft hdenied
  · rintro ⟨-, htrim, hgives, hleft⟩
    exact ⟨htrim, hgives, hleft⟩

/-- Texts without white space at their ends have one spelling. -/
theorem no_other_spelling
    (hleft : ∀ t, s.Gives user t ∧ ¬ s.Denies user t → Text.trim t = t)
    (hdenied : Text.trim denied = denied) :
    ¬ ∃ t, t ≠ denied ∧ Text.trim t = Text.trim denied
        ∧ s.Gives user t ∧ ¬ s.Denies user t := by
  rintro ⟨t, hne, htrim, hgives⟩
  rw [hleft t hgives, hdenied] at htrim
  exact hne htrim

end Store

namespace Database

open Store

variable {s : Store}

/-- A user has a permission set exactly where the tokens read for the user are
legible. From that set a denial of a text that reads as a grant takes the grant
away, unless some other spelling of the text, with other white space at its
ends, is given to the user and not denied; where the texts left to the user and
the denied one have no white space at their ends, it always does. -/
theorem denied_grant_iff (h : s.Reachable) {user : UserId} {x : Grant}
    {denied : String} (hdenied : s.Denies user denied)
    (hreads : (PermissionSet.ofTokens [denied]).answer.has x = true) :
    ((∃ set, ((ready s).permissionSet user).answer = .ok set)
        ↔ s.Legible user)
      ∧ ∀ set, ((ready s).permissionSet user).answer = .ok set →
          (set.has x = true
            ↔ ∃ t, t ≠ denied ∧ Text.trim t = Text.trim denied
                ∧ s.Gives user t ∧ ¬ s.Denies user t)
          ∧ ((∀ t, s.Gives user t ∧ ¬ s.Denies user t → Text.trim t = t) →
              Text.trim denied = denied → set.has x = false) := by
  refine ⟨exists_permissionSet_iff h, fun set hset => ?_⟩
  obtain ⟨tokens, htokens, hmem⟩ := (h.fetches_tokensOf user).exists_eq_ok
    ((exists_permissionSet_iff h).1 ⟨set, hset⟩)
  rw [permissionSet_answer htokens, Except.ok.injEq] at hset
  have hiff := has_iff_other_spelling hmem hdenied hreads
  rw [hset] at hiff
  refine ⟨hiff, fun hleft htrim => ?_⟩
  exact eq_false_of_ne_true (mt hiff.1 (no_other_spelling hleft htrim))

instance (s : Store) (user : UserId) (token : String) (granted : Int64) :
    Decidable (s.Direct user token granted) :=
  inferInstanceAs (Decidable (∃ r ∈ s.rows .userPermissions, _))

instance (s : Store) (user : UserId) (token : String) :
    Decidable (s.Denies user token) :=
  inferInstanceAs (Decidable (s.Direct user token 0))

/-- A clerk to whom the viewing of statuses is denied may not view them, though
a role gives it. -/
theorem clerks_denied :
    clerks.Reachable ∧ clerks.Denies 5 "statuses:view"
      ∧ (PermissionSet.ofTokens ["statuses:view"]).answer.has
          (.permission ⟨.statuses, .view, none⟩) = true
      ∧ ∃ set, ((ready clerks).permissionSet 5).answer = .ok set
          ∧ set.has (.permission ⟨.statuses, .view, none⟩) = false := by
  have hset := permissionSet_answer clerks_tokensOf
  have hdenied : clerks.Denies 5 "statuses:view" := by
    decide +kernel
  have hreads : (PermissionSet.ofTokens ["statuses:view"]).answer.has
      (.permission ⟨.statuses, .view, none⟩) = true := by
    decide +kernel
  obtain ⟨-, hleft⟩ := denied_grant_iff clerks_reachable hdenied hreads
  obtain ⟨-, hwins⟩ := hleft _ hset
  refine ⟨clerks_reachable, hdenied, hreads, _, hset, hwins ?_ (by decide)⟩
  have htrim : ∀ t ∈ ["orders:update", "orders:view"], Text.trim t = t := by
    decide
  intro t ht
  exact htrim t
    (((clerks_reachable.fetches_tokensOf 5).mem_iff _ clerks_tokensOf t).2 ht)

/-- A denial spelled with a blank reads as the viewing of orders, and the clerk
keeps it. -/
theorem padded_denial_loses :
    clerks.Reachable ∧ clerks.Denies 5 " orders:view"
      ∧ (PermissionSet.ofTokens [" orders:view"]).answer.has
          (.permission ⟨.orders, .view, none⟩) = true
      ∧ ∃ set, ((ready clerks).permissionSet 5).answer = .ok set
          ∧ set.has (.permission ⟨.orders, .view, none⟩) = true :=
  ⟨clerks_reachable, by decide +kernel, by decide +kernel, _,
    permissionSet_answer clerks_tokensOf, by decide +kernel⟩

end Database

end WorkRouting
