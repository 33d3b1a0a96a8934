/-
The tokens of a user, as a set. Three tables take part: the roles of a user,
what each role gives, and what is given or denied to the user directly. The
reading goes through lists — it filters, joins, reads texts, subtracts and
sorts — and here it is said without any of that: `Store.Gives` and
`Store.Denies` are facts about single rows, and what is read is what is given
and not denied.

The columns of tokens take any value but null, so a row may hold a token that
is no text. One such row among those that are read for a user, be it a denial,
and nothing is read at all: `Store.Legible` is the condition under which there
is an answer. `Fetches` says of a read what it lists, when it does and how it
fails; the two tables are read so (`Reachable.fetches_roleTokens`,
`Reachable.fetches_directTokens`), and so is what comes of them
(`Reachable.fetches_tokensOf`).

Sorting makes the answer a function of that set. A list in byte order without
repetitions is determined by its members, so the order of the writes, the
number of roles that carry a token and the rows of other users cannot show
(`tokensOf_congr`); and a permission set holds what its tokens give, so the
order of the tokens does not show there either
(`PermissionSet.ofTokens_congr`).
-/
import WorkRouting.Proofs.Access.PermissionSet
import WorkRouting.Proofs.Store.Sound
import WorkRouting.Store.Permissions

namespace WorkRouting

-- ======================================================== strings in order

theorem mem_insertSorted {x s : String} {l : List String} :
    x ∈ insertSorted s l ↔ x = s ∨ x ∈ l := by
  induction l with
  | nil => simp [insertSorted]
  | cons t rest ih =>
      unfold insertSorted
      split
      · exact List.mem_cons
      · split
        · next heq =>
            rw [List.mem_cons, heq]
            constructor
            · exact Or.inr
            · rintro (rfl | h)
              · exact Or.inl rfl
              · exact h
        · rw [List.mem_cons, ih, List.mem_cons, or_left_comm]

theorem pairwise_insertSorted {s : String} {l : List String}
    (h : l.Pairwise (· < ·)) : (insertSorted s l).Pairwise (· < ·) := by
  induction l with
  | nil => exact List.pairwise_singleton _ s
  | cons t rest ih =>
      obtain ⟨ht, hrest⟩ := List.pairwise_cons.1 h
      unfold insertSorted
      split
      · next hst =>
          refine List.pairwise_cons.2 ⟨fun x hx => ?_, h⟩
          rcases List.mem_cons.1 hx with rfl | hx
          · exact hst
          · exact String.lt_trans hst (ht x hx)
      · next hst =>
          split
          · exact h
          · next hne =>
              refine List.pairwise_cons.2 ⟨fun x hx => ?_, ih hrest⟩
              rcases mem_insertSorted.1 hx with rfl | hx
              · by_contra hts
                exact hne
                  (String.le_antisymm (String.not_lt.1 hts)
                    (String.not_lt.1 hst))
              · exact ht x hx

theorem mem_sortedStrings {x : String} {l : List String} :
    x ∈ sortedStrings l ↔ x ∈ l := by
  induction l with
  | nil => exact Iff.rfl
  | cons s rest ih =>
      rw [sortedStrings, List.foldr_cons, mem_insertSorted, List.mem_cons,
        ← sortedStrings, ih]

theorem pairwise_sortedStrings (l : List String) :
    (sortedStrings l).Pairwise (· < ·) := by
  induction l with
  | nil => exact List.Pairwise.nil
  | cons s rest ih => exact pairwise_insertSorted ih

-- ============================================================== vocabulary

namespace Store

variable {s s' : Store} {user : UserId} {token : String}

/-- The user has the role. -/
def HasRole (s : Store) (user : UserId) (role : Int64) : Prop :=
  ∃ r ∈ s.rows .userRoles,
    r .userId = .integer user ∧ r .roleId = .integer role

/-- The role gives the token. -/
def RoleGives (s : Store) (role : Int64) (token : String) : Prop :=
  ∃ r ∈ s.rows .rolePermissions,
    r .roleId = .integer role ∧ r .permission = .text token

/-- The token stands with the user directly, granted (1) or denied (0). -/
def Direct (s : Store) (user : UserId) (token : String) (granted : Int64) :
    Prop :=
  ∃ r ∈ s.rows .userPermissions,
    r .userId = .integer user ∧ r .permission = .text token
      ∧ r .granted = .integer granted

/-- Some role of the user gives the token, or a direct grant does. -/
def Gives (s : Store) (user : UserId) (token : String) : Prop :=
  (∃ role, s.HasRole user role ∧ s.RoleGives role token)
    ∨ s.Direct user token 1

/-- The token is denied to the user directly. -/
def Denies (s : Store) (user : UserId) (token : String) : Prop :=
  s.Direct user token 0

/-- Every token that is read for the user is a text: those that roles of the
user give, and those that stand with the user directly, granted or denied. -/
structure Legible (s : Store) (user : UserId) : Prop where
  gifts : ∀ role, s.HasRole user role → ∀ r ∈ s.rows .rolePermissions,
    r .roleId = .integer role → ∃ x, r .permission = .text x
  direct : ∀ r ∈ s.rows .userPermissions, r .userId = .integer user →
    ∃ x, r .permission = .text x

/-- What a read of tokens comes to: where they are legible it lists those with
a property, and elsewhere it fails over one that is no text. -/
structure Fetches (legible : Prop) (p : String → Prop)
    (answer : Except ReadError (List String)) : Prop where
  answers_iff : (∃ tokens, answer = .ok tokens) ↔ legible
  refuses : ∀ e, answer = .error e → e = .noText .permission
  mem_iff : ∀ tokens, answer = .ok tokens → ∀ x, x ∈ tokens ↔ p x

/-- Two stores with the same rows, up to order, as far as they name the user,
and the same rows on what roles give. -/
structure SameFor (user : UserId) (s s' : Store) : Prop where
  roles : ∀ r : Row, r .userId = .integer user →
    (r ∈ s.rows .userRoles ↔ r ∈ s'.rows .userRoles)
  direct : ∀ r : Row, r .userId = .integer user →
    (r ∈ s.rows .userPermissions ↔ r ∈ s'.rows .userPermissions)
  gifts : ∀ r : Row, r ∈ s.rows .rolePermissions ↔ r ∈ s'.rows .rolePermissions

namespace SameFor

theorem hasRole_iff (h : SameFor user s s') (role : Int64) :
    s.HasRole user role ↔ s'.HasRole user role := by
  refine exists_congr fun r => ?_
  rw [and_left_comm, and_left_comm (a := r ∈ s'.rows .userRoles)]
  exact and_congr_right fun hr => and_congr_left fun _ => h.roles r hr

theorem roleGives_iff (h : SameFor user s s') (role : Int64) (token : String) :
    s.RoleGives role token ↔ s'.RoleGives role token :=
  exists_congr fun r => and_congr_left fun _ => h.gifts r

theorem direct_iff (h : SameFor user s s') (token : String) (granted : Int64) :
    s.Direct user token granted ↔ s'.Direct user token granted := by
  refine exists_congr fun r => ?_
  rw [and_left_comm, and_left_comm (a := r ∈ s'.rows .userPermissions)]
  exact and_congr_right fun hr => and_congr_left fun _ => h.direct r hr

theorem gives_iff (h : SameFor user s s') (token : String) :
    s.Gives user token ↔ s'.Gives user token := by
  simp only [Gives, h.hasRole_iff, h.roleGives_iff, h.direct_iff]

theorem denies_iff (h : SameFor user s s') (token : String) :
    s.Denies user token ↔ s'.Denies user token :=
  h.direct_iff token 0

theorem symm (h : SameFor user s s') : SameFor user s' s where
  roles r hr := (h.roles r hr).symm
  direct r hr := (h.direct r hr).symm
  gifts r := (h.gifts r).symm

theorem legible (h : SameFor user s s') (hs : s.Legible user) :
    s'.Legible user where
  gifts role hrole r hr :=
    hs.gifts role ((h.hasRole_iff role).2 hrole) r ((h.gifts r).2 hr)
  direct r hr huser := hs.direct r ((h.direct r huser).2 hr) huser

theorem legible_iff (h : SameFor user s s') :
    s.Legible user ↔ s'.Legible user :=
  ⟨h.legible, h.symm.legible⟩

end SameFor

namespace Fetches

variable {legible : Prop} {p : String → Prop}
  {answer : Except ReadError (List String)}

theorem exists_eq_ok (h : Fetches legible p answer) (hlegible : legible) :
    ∃ tokens, answer = .ok tokens ∧ ∀ x, x ∈ tokens ↔ p x := by
  obtain ⟨tokens, htokens⟩ := h.answers_iff.2 hlegible
  exact ⟨tokens, htokens, h.mem_iff tokens htokens⟩

theorem eq_error (h : Fetches legible p answer) (hillegible : ¬ legible) :
    answer = .error (.noText .permission) := by
  cases hanswer : answer with
  | error e => rw [h.refuses e hanswer]
  | ok tokens => exact absurd (h.answers_iff.1 ⟨tokens, hanswer⟩) hillegible

/-- What is fetched may be said in other words. -/
theorem congr {legible' : Prop} {p' : String → Prop}
    (h : Fetches legible p answer) (hlegible : legible ↔ legible')
    (hp : ∀ x, p x ↔ p' x) : Fetches legible' p' answer where
  answers_iff := h.answers_iff.trans hlegible
  refuses := h.refuses
  mem_iff tokens htokens x := (h.mem_iff tokens htokens x).trans (hp x)

end Fetches

-- ================================================================= reading

theorem tokenOf_eq_ok_iff {r : Row} :
    tokenOf r = .ok token ↔ r .permission = .text token := by
  unfold tokenOf
  cases r .permission with
  | text x => simp
  | null | integer _ | real _ | garbled _ | blob _ => simp

theorem eq_noText_of_tokenOf {r : Row} {e : ReadError}
    (h : tokenOf r = .error e) : e = .noText .permission := by
  unfold tokenOf at h
  split at h
  · cases h
  · cases h
    rfl

/-- The tokens in the rows of a table that pass a test are fetched. -/
theorem fetches_mapM (rows : List Row) (test : Row → Bool) :
    Fetches
      (∀ r ∈ rows, test r = true → ∃ x, r .permission = .text x)
      (fun x => ∃ r ∈ rows, test r = true ∧ r .permission = .text x)
      ((rows.filter test).mapM tokenOf) where
  answers_iff := by
    simp only [exists_mapM_eq_ok_iff, List.mem_filter, tokenOf_eq_ok_iff,
      and_imp]
  refuses := of_mapM_eq_error fun _ _ _ => eq_noText_of_tokenOf
  mem_iff tokens htokens x := by
    simp only [mem_iff_of_mapM_eq_ok htokens, List.mem_filter,
      tokenOf_eq_ok_iff, and_assoc]

/-- Roles are compared by their stored value, which is a number. -/
theorem Reachable.contains_rolesOf_iff (h : s.Reachable) {r : Row}
    (hr : r ∈ s.rows .rolePermissions) :
    (s.rolesOf user).contains (r .roleId) = true
      ↔ ∃ role, s.HasRole user role ∧ r .roleId = .integer role := by
  have hid : ∃ role, r .roleId = .integer role := by
    obtain ⟨p, hp, hpid⟩ :=
      h.sound.exists_owner hr ⟨.roleId, .roles, true⟩ (by decide) (by decide)
    obtain ⟨n, hn⟩ := (h.sound.accepts hp).identified rfl
    exact ⟨n, hpid ▸ hn⟩
  obtain ⟨role, hrole⟩ := hid
  have hmem : (s.rolesOf user).contains (r .roleId) = true
      ↔ s.HasRole user role := by
    simp only [rolesOf, hrole, List.contains_eq_mem, decide_eq_true_eq,
      List.mem_map, List.mem_filter, beq_iff_eq, and_assoc, HasRole]
  rw [hmem]
  constructor
  · intro hrole'
    exact ⟨role, hrole', hrole⟩
  · rintro ⟨role', hrole', hid⟩
    rw [hrole, Value.integer.injEq] at hid
    rw [hid]
    exact hrole'

/-- What roles of the user give is fetched by the roles. -/
theorem Reachable.fetches_roleTokens (h : s.Reachable) (user : UserId) :
    Fetches
      (∀ role, s.HasRole user role → ∀ r ∈ s.rows .rolePermissions,
        r .roleId = .integer role → ∃ x, r .permission = .text x)
      (fun x => ∃ role, s.HasRole user role ∧ s.RoleGives role x)
      (s.roleTokens user) := by
  have hrows := fetches_mapM (s.rows .rolePermissions)
    fun r => (s.rolesOf user).contains (r .roleId)
  refine hrows.congr ?_ fun x => ?_
  · constructor
    · intro hlegible role hhas r hr hid
      exact hlegible r hr ((h.contains_rolesOf_iff hr).2 ⟨role, hhas, hid⟩)
    · intro hlegible r hr hrole
      obtain ⟨role, hhas, hid⟩ := (h.contains_rolesOf_iff hr).1 hrole
      exact hlegible role hhas r hr hid
  · constructor
    · rintro ⟨r, hr, hrole, hx⟩
      obtain ⟨role, hhas, hid⟩ := (h.contains_rolesOf_iff hr).1 hrole
      exact ⟨role, hhas, r, hr, hid, hx⟩
    · rintro ⟨role, hhas, r, hr, hid, hx⟩
      exact ⟨r, hr, (h.contains_rolesOf_iff hr).2 ⟨role, hhas, hid⟩, hx⟩

/-- Whether a row grants or denies is its one bit. -/
theorem Reachable.granted_iff (h : s.Reachable) {r : Row}
    (hr : r ∈ s.rows .userPermissions) (granted : Bool) :
    ((r .granted == .integer 1) == granted) = true
      ↔ r .granted = .integer (if granted then 1 else 0) := by
  have hpermits := (h.sound.accepts hr).permitted
  simp only [Table.permits, Bool.or_eq_true, beq_iff_eq] at hpermits
  rcases hpermits with hzero | hone
  · rw [hzero]
    cases granted <;> decide
  · rw [hone]
    cases granted <;> decide

theorem Reachable.fetches_directTokens (h : s.Reachable) (user : UserId)
    (granted : Bool) :
    Fetches
      (∀ r ∈ s.rows .userPermissions, r .userId = .integer user →
        r .granted = .integer (if granted then 1 else 0) →
        ∃ x, r .permission = .text x)
      (fun x => s.Direct user x (if granted then 1 else 0))
      (s.directTokens user granted) := by
  have hrows := fetches_mapM (s.rows .userPermissions)
    fun r => r .userId == .integer user
      && (r .granted == .integer 1) == granted
  have htest : ∀ r ∈ s.rows .userPermissions,
      (r .userId == .integer user
          && (r .granted == .integer 1) == granted) = true
        ↔ r .userId = .integer user
          ∧ r .granted = .integer (if granted then 1 else 0) := by
    intro r hr
    rw [Bool.and_eq_true, beq_iff_eq, h.granted_iff hr granted]
  refine hrows.congr ?_ fun x => ?_
  · refine forall_congr' fun r => forall_congr' fun hr => ?_
    rw [htest r hr, and_imp]
  · refine exists_congr fun r => and_congr_right fun hr => ?_
    rw [htest r hr, and_assoc, and_comm (a := r .permission = _)]

/-- A row grants or denies, so all that stands with the user is legible if the
grants and the denials are. -/
theorem Reachable.legible_iff (h : s.Reachable) :
    s.Legible user
      ↔ (∀ role, s.HasRole user role → ∀ r ∈ s.rows .rolePermissions,
          r .roleId = .integer role → ∃ x, r .permission = .text x)
        ∧ (∀ r ∈ s.rows .userPermissions, r .userId = .integer user →
            r .granted = .integer 1 → ∃ x, r .permission = .text x)
        ∧ ∀ r ∈ s.rows .userPermissions, r .userId = .integer user →
            r .granted = .integer 0 → ∃ x, r .permission = .text x := by
  constructor
  · rintro ⟨hgifts, hdirect⟩
    exact ⟨hgifts, fun r hr huser _ => hdirect r hr huser,
      fun r hr huser _ => hdirect r hr huser⟩
  · rintro ⟨hgifts, hgranted, hdenied⟩
    refine ⟨hgifts, fun r hr huser => ?_⟩
    have hpermits := (h.sound.accepts hr).permitted
    simp only [Table.permits, Bool.or_eq_true, beq_iff_eq] at hpermits
    rcases hpermits with hzero | hone
    · exact hdenied r hr huser hzero
    · exact hgranted r hr huser hone

theorem tokensOf_eq_ok_iff {tokens : List String} :
    s.tokensOf user = .ok tokens
      ↔ ∃ ofRoles granted denied, s.roleTokens user = .ok ofRoles
          ∧ s.directTokens user true = .ok granted
          ∧ s.directTokens user false = .ok denied
          ∧ tokens = sortedStrings
              ((ofRoles ++ granted).filter (!denied.contains ·)) := by
  unfold tokensOf
  constructor
  · intro h
    obtain ⟨ofRoles, hroles, h⟩ := bind_eq_ok_iff.1 h
    obtain ⟨granted, hgranted, h⟩ := bind_eq_ok_iff.1 h
    obtain ⟨denied, hdenied, h⟩ := bind_eq_ok_iff.1 h
    cases h
    exact ⟨ofRoles, granted, denied, hroles, hgranted, hdenied, rfl⟩
  · rintro ⟨ofRoles, granted, denied, hroles, hgranted, hdenied, rfl⟩
    rw [hroles, hgranted, hdenied]
    rfl

/-- Whatever is read is in byte order. -/
theorem pairwise_of_tokensOf {tokens : List String}
    (h : s.tokensOf user = .ok tokens) : tokens.Pairwise (· < ·) := by
  obtain ⟨ofRoles, granted, denied, -, -, -, rfl⟩ := tokensOf_eq_ok_iff.1 h
  exact pairwise_sortedStrings _

/-- What is read is what is given and not denied. -/
theorem Reachable.fetches_tokensOf (h : s.Reachable) (user : UserId) :
    Fetches (s.Legible user) (fun x => s.Gives user x ∧ ¬ s.Denies user x)
      (s.tokensOf user) := by
  have hofRoles := h.fetches_roleTokens user
  have hgrants := h.fetches_directTokens user true
  have hdenials := h.fetches_directTokens user false
  refine ⟨?answers, ?refuses, ?mem⟩
  case answers =>
    rw [h.legible_iff]
    constructor
    · rintro ⟨tokens, htokens⟩
      obtain ⟨ofRoles, granted, denied, hroles, hgranted, hdenied, -⟩ :=
        tokensOf_eq_ok_iff.1 htokens
      exact ⟨hofRoles.answers_iff.1 ⟨ofRoles, hroles⟩,
        hgrants.answers_iff.1 ⟨granted, hgranted⟩,
        hdenials.answers_iff.1 ⟨denied, hdenied⟩⟩
    · rintro ⟨hgifts, hgranted, hdenied⟩
      obtain ⟨ofRoles, hroles⟩ := hofRoles.answers_iff.2 hgifts
      obtain ⟨granted, hgranted⟩ := hgrants.answers_iff.2 hgranted
      obtain ⟨denied, hdenied⟩ := hdenials.answers_iff.2 hdenied
      exact ⟨_, tokensOf_eq_ok_iff.2
        ⟨ofRoles, granted, denied, hroles, hgranted, hdenied, rfl⟩⟩
  case refuses =>
    unfold tokensOf
    refine of_bind_eq_error hofRoles.refuses fun _ => ?_
    refine of_bind_eq_error hgrants.refuses fun _ => ?_
    refine of_bind_eq_error hdenials.refuses fun _ => ?_
    intro e hnone
    cases hnone
  case mem =>
    intro tokens htokens x
    obtain ⟨ofRoles, granted, denied, hroles, hgranted, hdenied, rfl⟩ :=
      tokensOf_eq_ok_iff.1 htokens
    have hkept : (!denied.contains x) = true ↔ ¬ s.Denies user x := by
      rw [Bool.not_eq_true', List.contains_eq_mem, decide_eq_false_iff_not,
        hdenials.mem_iff denied hdenied]
      rfl
    rw [mem_sortedStrings, List.mem_filter, List.mem_append,
      hofRoles.mem_iff ofRoles hroles, hgrants.mem_iff granted hgranted, hkept]
    rfl

-- ============================================================== consequences

/-- Stores that give and deny a user the same tokens, and in which these are
legible alike, are read alike. -/
theorem Reachable.tokensOf_congr (h : s.Reachable) (h' : s'.Reachable)
    (hlegible : s.Legible user ↔ s'.Legible user)
    (hgives : ∀ x, s.Gives user x ↔ s'.Gives user x)
    (hdenies : ∀ x, s.Denies user x ↔ s'.Denies user x) :
    s.tokensOf user = s'.tokensOf user := by
  have hread := h.fetches_tokensOf user
  have hread' := h'.fetches_tokensOf user
  by_cases hs : s.Legible user
  · obtain ⟨tokens, htokens, hmem⟩ := hread.exists_eq_ok hs
    obtain ⟨tokens', htokens', hmem'⟩ := hread'.exists_eq_ok (hlegible.1 hs)
    have hsame : tokens = tokens' := by
      refine (pairwise_of_tokensOf htokens).eq_of_mem_iff
        (pairwise_of_tokensOf htokens') fun x => ?_
      rw [hmem, hmem', hgives, hdenies]
    rw [htokens, htokens', hsame]
  · rw [hread.eq_error hs, hread'.eq_error (mt hlegible.2 hs)]

end Store

namespace Database

open Store (SameFor HasRole RoleGives Denies Direct)

variable {s s' : Store} {user : UserId}

/-- The permission set of a user is made of the tokens read. -/
theorem permissionSet_answer {tokens : List String}
    (h : s.tokensOf user = .ok tokens) :
    ((ready s).permissionSet user).answer
      = .ok (PermissionSet.ofTokens tokens).answer := by
  have hread : (ready s).tokensOf user = .ok tokens := h
  rw [permissionSet, hread]

/-- Where the tokens are not read, there is no permission set. -/
theorem permissionSet_error {e : ReadError} (h : s.tokensOf user = .error e) :
    ((ready s).permissionSet user).answer = .error e.toDirectory := by
  have hread : (ready s).tokensOf user = .error e := h
  rw [permissionSet, hread]

theorem permissionSet_congr (h : s.tokensOf user = s'.tokensOf user) :
    (ready s).permissionSet user = (ready s').permissionSet user := by
  have hread : (ready s).tokensOf user = (ready s').tokensOf user := h
  rw [permissionSet, hread, permissionSet]

/-- There is a permission set exactly where the tokens are legible. -/
theorem exists_permissionSet_iff (h : s.Reachable) :
    (∃ set, ((ready s).permissionSet user).answer = .ok set)
      ↔ s.Legible user := by
  rw [← (h.fetches_tokensOf user).answers_iff]
  cases hread : s.tokensOf user with
  | error e => simp [permissionSet_error hread]
  | ok tokens => simp [permissionSet_answer hread]

/-- Two stores tell the same about a user. -/
def AgreeOn (user : UserId) (s s' : Store) : Prop :=
  (ready s').tokensOf user = (ready s).tokensOf user
    ∧ (ready s').permissionSet user = (ready s).permissionSet user

theorem agreeOn_of_gives (h : s.Reachable) (h' : s'.Reachable)
    (hlegible : s.Legible user ↔ s'.Legible user)
    (hgives : ∀ x, s.Gives user x ↔ s'.Gives user x)
    (hdenies : ∀ x, s.Denies user x ↔ s'.Denies user x) :
    AgreeOn user s s' := by
  have hread : s'.tokensOf user = s.tokensOf user :=
    (h.tokensOf_congr h' hlegible hgives hdenies).symm
  exact ⟨hread, permissionSet_congr hread⟩

theorem agreeOn_of_sameFor (h : s.Reachable) (h' : s'.Reachable)
    (hsame : SameFor user s s') : AgreeOn user s s' :=
  agreeOn_of_gives h h' hsame.legible_iff hsame.gives_iff hsame.denies_iff

/-- What is read for a user. Where that is legible, the raw tokens are the
texts with a property, in byte order and each once, and the permission set is
the one that this set of texts gives, in whatever order it is listed. Elsewhere
there are no raw tokens and no permission set. -/
structure Amounts (s : Store) (user : UserId) (legible : Prop)
    (p : String → Prop) : Prop where
  answers : legible → ∃ tokens set, (ready s).tokensOf user = .ok tokens
    ∧ tokens.Pairwise (· < ·) ∧ (∀ x, x ∈ tokens ↔ p x)
    ∧ ((ready s).permissionSet user).answer = .ok set
    ∧ ∀ raw : List String, (∀ x, x ∈ raw ↔ p x) →
        (PermissionSet.ofTokens raw).answer = set
  refuses : ¬ legible →
    (ready s).tokensOf user = .error (.noText .permission)
      ∧ ((ready s).permissionSet user).answer
        = .error (ReadError.noText .permission).toDirectory

theorem amounts_of_fetches {legible : Prop} {p : String → Prop}
    (h : Store.Fetches legible p (s.tokensOf user)) :
    Amounts s user legible p where
  answers hlegible := by
    obtain ⟨tokens, htokens, hmem⟩ := h.exists_eq_ok hlegible
    refine ⟨tokens, _, htokens, Store.pairwise_of_tokensOf htokens, hmem,
      permissionSet_answer htokens, fun raw hraw => ?_⟩
    exact PermissionSet.ofTokens_congr fun x => by rw [hraw, hmem]
  refuses hillegible := by
    have hnone := h.eq_error hillegible
    exact ⟨hnone, permissionSet_error hnone⟩

/-- Where every token that is read for a user is a text, the raw tokens of the
user are those that a role of the user or a direct grant gives, without those
that are denied to the user directly, and the permission set is what they give;
where one is no text, there is neither. So stores that give and deny the user
the same texts, and in which the tokens are legible alike, agree on the user,
and so do stores that differ in the order of their rows and in rows of other
users only: neither the order of the writes nor the number of roles that carry
a text makes a difference. -/
theorem permissionSet_eq_aggregate (h : s.Reachable) (user : UserId) :
    Amounts s user (s.Legible user)
        (fun x => s.Gives user x ∧ ¬ s.Denies user x)
      ∧ (∀ s' : Store, s'.Reachable →
          (s.Legible user ↔ s'.Legible user) →
          (∀ x, s.Gives user x ↔ s'.Gives user x) →
          (∀ x, s.Denies user x ↔ s'.Denies user x) → AgreeOn user s s')
      ∧ ∀ s' : Store, s'.Reachable → SameFor user s s' →
          AgreeOn user s s' := by
  refine ⟨amounts_of_fetches (h.fetches_tokensOf user),
    fun s' h' => agreeOn_of_gives h h', fun s' h' => agreeOn_of_sameFor h h'⟩

/-- Two clerks. The first has two roles that share a text, a direct grant, a
denial of what a role gives and one that is spelled with a blank. -/
def clerkStatements : List Statement :=
  [.insert "departments" [("id", .integer 1), ("name", .text "IT")],
    .insert "users"
      [("id", .integer 5), ("fio", .text "A"), ("department_id", .integer 1)],
    .insert "users"
      [("id", .integer 6), ("fio", .text "B"), ("department_id", .integer 1)],
    .insert "roles" [("id", .integer 1), ("name", .text "clerk")],
    .insert "roles" [("id", .integer 2), ("name", .text "reader")],
    .insert "user_permissions"
      [("user_id", .integer 5), ("permission", .text "statuses:view"),
        ("granted", .integer 0)],
    .insert "user_permissions"
      [("user_id", .integer 5), ("permission", .text " orders:view"),
        ("granted", .integer 0)],
    .insert "user_permissions"
      [("user_id", .integer 5), ("permission", .text "orders:update"),
        ("granted", .integer 1)],
    .insert "user_permissions"
      [("user_id", .integer 6), ("permission", .text "superuser"),
        ("granted", .integer 1)],
    .insert "role_permissions"
      [("role_id", .integer 2), ("permission", .text "orders:view")],
    .insert "role_permissions"
      [("role_id", .integer 1), ("permission", .text "statuses:view")],
    .insert "role_permissions"
      [("role_id", .integer 1), ("permission", .text "orders:view")],
    .insert "user_roles" [("user_id", .integer 5), ("role_id", .integer 2)],
    .insert "user_roles" [("user_id", .integer 5), ("role_id", .integer 1)]]

def clerks : Store := (clerkStatements.foldl attempt (ready .empty)).store

theorem clerks_reachable : clerks.Reachable :=
  (Reachable.migrated.foldl_attempt clerkStatements).reachable_store.2

theorem clerks_tokensOf :
    clerks.tokensOf 5 = .ok ["orders:update", "orders:view"] := by
  decide +kernel

/-- The first clerk has two texts, whatever the second one has. -/
theorem clerks_aggregate :
    clerks.Reachable ∧ clerks.Legible 5
      ∧ ∀ x, x ∈ ["orders:update", "orders:view"]
          ↔ clerks.Gives 5 x ∧ ¬ clerks.Denies 5 x := by
  have hlegible : clerks.Legible 5 :=
    (clerks_reachable.fetches_tokensOf 5).answers_iff.1 ⟨_, clerks_tokensOf⟩
  obtain ⟨tokens, set, htokens, -, hmem, -⟩ :=
    (permissionSet_eq_aggregate clerks_reachable 5).1.answers hlegible
  have hread : (ready clerks).tokensOf 5
      = .ok ["orders:update", "orders:view"] := clerks_tokensOf
  rw [hread, Except.ok.injEq] at htokens
  rw [htokens]
  exact ⟨clerks_reachable, hlegible, hmem⟩

/-- A token that is no text, for everybody who has the role of a reader. -/
def smudge : Statement :=
  .insert "role_permissions"
    [("role_id", .integer 2), ("permission", .blob [0xFF])]

/-- The clerks with that token. -/
def smudged : Store := ((ready clerks).attempt smudge).store

theorem smudged_reachable : smudged.Reachable := by
  have h : (ready clerks).Reachable := by
    have hclerks := Reachable.migrated.foldl_attempt clerkStatements
    exact hclerks.reachable_store.1 ▸ hclerks
  exact (h.attempt smudge).reachable_store.2

theorem smudged_tokensOf :
    smudged.tokensOf 5 = .error (.noText .permission) := by
  decide +kernel

/-- The first clerk is given a text that is not denied, and gets no permission
set. -/
theorem smudged_unread :
    smudged.Reachable ∧ smudged.Gives 5 "orders:view"
      ∧ ¬ smudged.Denies 5 "orders:view"
      ∧ ¬ ∃ set, ((ready smudged).permissionSet 5).answer = .ok set := by
  refine ⟨smudged_reachable, ?_, ?_, ?_⟩
  · exact Or.inl ⟨2, by unfold HasRole RoleGives; decide +kernel⟩
  · unfold Denies Direct
    decide +kernel
  · rintro ⟨set, hset⟩
    rw [permissionSet_error smudged_tokensOf] at hset
    cases hset

end Database

end WorkRouting
