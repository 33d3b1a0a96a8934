/-
Roles and grants end with who they belong to. A row of `user_roles`,
`role_permissions` or `user_permissions` belongs to the user and the role that
it names, and goes with them. The two kinds of owner are treated alike: an
owner is a row of a table `t`, named in a column `c` of every table that has
the column, and all those references cascade.

- `mem_delete_owned_iff`: of the rows that name an owner, a deletion of owners
  leaves those whose owner it leaves. So no row names a deleted owner
  (`unnamed_of_delete`); deleting a user changes nobody else's tokens
  (`sameFor_of_delete`), and deleting a role leaves to everybody what the other
  roles give (`gives_delete_iff`), as far as that is legible
  (`legible_delete_iff`);
- `Unnamed.wroteApart`: that no row names an id stays so until one is written
  that does (`Store.WroteApart`), which is the step, and `Unnamed.run` the run.
  A new owner under the old id is no such row, so it starts with nothing.
-/
import Mathlib.Logic.Relation
import WorkRouting.Proofs.Store.Seeding
import WorkRouting.Proofs.Store.Tokens

namespace WorkRouting

open Relation (ReflTransGen)

namespace Store

variable {s s' : Store} {t u : Table} {c : Column} {n : Int64}
  {selects : Row → Bool} {r : Row} {user : UserId} {role : Int64}
  {token : String}

-- ================================================================ vocabulary

/-- Every role and grant names a user and a role that are there. -/
structure Owned (s : Store) : Prop where
  rolesOfUsers : ∀ r ∈ s.rows .userRoles,
    ∃ u ∈ s.rows .users, u .id = r .userId
  rolesHeld : ∀ r ∈ s.rows .userRoles, ∃ p ∈ s.rows .roles, p .id = r .roleId
  gifts : ∀ r ∈ s.rows .rolePermissions,
    ∃ p ∈ s.rows .roles, p .id = r .roleId
  direct : ∀ r ∈ s.rows .userPermissions,
    ∃ u ∈ s.rows .users, u .id = r .userId

/-- A deletion takes the row with the id. -/
def Loses (s : Store) (t : Table) (selects : Row → Bool) (n : Int64) : Prop :=
  ∃ d ∈ s.rows t, selects d = true ∧ d .id = .integer n

/-- No row names the id in the column. -/
def Unnamed (s : Store) (c : Column) (n : Int64) : Prop :=
  ∀ t : Table, c ∈ t.columns → ∀ r ∈ s.rows t, r c ≠ .integer n

/-- An accepted write that puts the id into no row's column: it is to a table
without the column, or a deletion, or what it gives for the column is something
else. -/
inductive WroteApart (c : Column) (n : Int64) (s s' : Store) : Prop
  | elsewhere {t : Table} : c ∉ t.columns → s.Wrote t s' → WroteApart c n s s'
  | inserted {t : Table} {given : List (Column × Value)} :
      newRow t given c ≠ .integer n → s.insert t given = .ok s' →
      WroteApart c n s s'
  | updated {t : Table} {changes : List (Column × Value)}
      {selects : Row → Bool} :
      (∀ v, changes.lookup c = some v → c.affinity.apply v ≠ .integer n) →
      s.update t changes selects = .ok s' → WroteApart c n s s'
  | deleted {t : Table} {selects : Row → Bool} :
      s.delete t selects = .ok s' → WroteApart c n s s'

-- ============================================================== what is there

theorem Sound.owned (h : s.Sound) : s.Owned where
  rolesOfUsers _ hr :=
    h.exists_owner hr ⟨.userId, .users, true⟩ (by decide) (by decide)
  rolesHeld _ hr :=
    h.exists_owner hr ⟨.roleId, .roles, true⟩ (by decide) (by decide)
  gifts _ hr :=
    h.exists_owner hr ⟨.roleId, .roles, true⟩ (by decide) (by decide)
  direct _ hr :=
    h.exists_owner hr ⟨.userId, .users, true⟩ (by decide) (by decide)

-- ============================================================ what is deleted

/-- In another table, a deletion leaves the rows that name none of the rows
deleted where it cascades. -/
theorem mem_delete_iff (h : s.delete t selects = .ok s') (hu : u ≠ t) :
    r ∈ s'.rows u
      ↔ r ∈ s.rows u ∧ ∀ ref ∈ u.references, ref.cascades = true →
          ref.parent = t → ∀ d ∈ s.rows t, selects d = true →
            d .id ≠ r ref.column := by
  obtain ⟨rfl, -⟩ := delete_eq_ok_iff.1 h
  rw [List.mem_filter, rows_withRows_of_ne hu]
  refine and_congr_right fun _ => ?_
  simp [goesWith]

/-- The references in a column are the ones that go with a table's rows. -/
def OwnedThrough (t : Table) (c : Column) : Prop :=
  c ∉ t.columns
    ∧ (∀ u : Table, c ∈ u.columns → ⟨c, t, true⟩ ∈ u.references)
    ∧ ∀ u : Table, ∀ ref ∈ u.references, ref.cascades = true →
        ref.parent = t → ref.column = c

theorem ownedThrough_users : OwnedThrough .users .userId := by
  refine ⟨by decide, ?_, ?_⟩ <;> intro u <;> cases u <;> decide

theorem ownedThrough_roles : OwnedThrough .roles .roleId := by
  refine ⟨by decide, ?_, ?_⟩ <;> intro u <;> cases u <;> decide

/-- Of the rows that name an owner, those stay whose owner stays. -/
theorem mem_delete_owned_iff (ht : OwnedThrough t c)
    (h : s.delete t selects = .ok s') (hu : c ∈ u.columns)
    (hid : r c = .integer n) :
    r ∈ s'.rows u ↔ r ∈ s.rows u ∧ ¬ s.Loses t selects n := by
  have hne : u ≠ t := by
    rintro rfl
    exact ht.1 hu
  rw [mem_delete_iff h hne]
  refine and_congr_right fun _ => ?_
  constructor
  · rintro hstays ⟨d, hd, hselected, hdid⟩
    exact hstays ⟨c, t, true⟩ (ht.2.1 u hu) rfl rfl d hd hselected
      (hdid.trans hid.symm)
  · intro hkept ref href hcascades hparent d hd hselected hdid
    rw [ht.2.2 u ref href hcascades hparent, hid] at hdid
    exact hkept ⟨d, hd, hselected, hdid⟩

/-- No row names a deleted owner. -/
theorem unnamed_of_delete (ht : OwnedThrough t c)
    (h : s.delete t selects = .ok s') (hloses : s.Loses t selects n) :
    s'.Unnamed c n := by
  intro u hu r hr hid
  exact ((mem_delete_owned_iff ht h hu hid).1 hr).2 hloses

/-- A table that names no such owner stays as it is. -/
theorem mem_delete_iff_of_not_mem (ht : OwnedThrough t c)
    (h : s.delete t selects = .ok s') (hu : u ≠ t)
    (hc : c ∉ u.references.map (·.column)) : r ∈ s'.rows u ↔ r ∈ s.rows u := by
  rw [mem_delete_iff h hu]
  refine and_iff_left fun ref href hcascades hparent => ?_
  refine absurd (List.mem_map.2 ⟨ref, href, ?_⟩) hc
  exact ht.2.2 u ref href hcascades hparent

-- ======================================================== deleting users

/-- What is there for a user stays when others are deleted. -/
theorem sameFor_of_delete (h : s.delete .users selects = .ok s')
    (hkept : ¬ s.Loses .users selects user) : SameFor user s s' where
  roles _ hr :=
    ((mem_delete_owned_iff ownedThrough_users h (by decide) hr).trans
      (and_iff_left hkept)).symm
  direct _ hr :=
    ((mem_delete_owned_iff ownedThrough_users h (by decide) hr).trans
      (and_iff_left hkept)).symm
  gifts _ :=
    (mem_delete_iff_of_not_mem ownedThrough_users h (by decide)
      (by decide)).symm

-- ======================================================== deleting roles

/-- A role that a deletion leaves gives the token, or a direct grant does. -/
def StillGives (s : Store) (selects : Row → Bool) (user : UserId)
    (token : String) : Prop :=
  (∃ role, ¬ s.Loses .roles selects role ∧ s.HasRole user role
      ∧ s.RoleGives role token)
    ∨ s.Direct user token 1

/-- What is read for the user after a deletion of roles is legible. -/
structure StillLegible (s : Store) (selects : Row → Bool) (user : UserId) :
    Prop where
  gifts : ∀ role, ¬ s.Loses .roles selects role → s.HasRole user role →
    ∀ r ∈ s.rows .rolePermissions, r .roleId = .integer role →
      ∃ x, r .permission = .text x
  direct : ∀ r ∈ s.rows .userPermissions, r .userId = .integer user →
    ∃ x, r .permission = .text x

theorem hasRole_delete_iff (h : s.delete .roles selects = .ok s') :
    s'.HasRole user role
      ↔ s.HasRole user role ∧ ¬ s.Loses .roles selects role := by
  constructor
  · rintro ⟨r, hr, huser, hrole⟩
    obtain ⟨hr, hkept⟩ :=
      (mem_delete_owned_iff ownedThrough_roles h (by decide) hrole).1 hr
    exact ⟨⟨r, hr, huser, hrole⟩, hkept⟩
  · rintro ⟨⟨r, hr, huser, hrole⟩, hkept⟩
    have hr' : r ∈ s'.rows .userRoles :=
      (mem_delete_owned_iff ownedThrough_roles h (by decide) hrole).2
        ⟨hr, hkept⟩
    exact ⟨r, hr', huser, hrole⟩

theorem roleGives_delete_iff (h : s.delete .roles selects = .ok s')
    (hkept : ¬ s.Loses .roles selects role) :
    s'.RoleGives role token ↔ s.RoleGives role token := by
  refine exists_congr fun r => and_congr_left fun hr => ?_
  exact (mem_delete_owned_iff ownedThrough_roles h (by decide) hr.1).trans
    (and_iff_left hkept)

theorem direct_delete_iff (h : s.delete .roles selects = .ok s')
    (granted : Int64) :
    s'.Direct user token granted ↔ s.Direct user token granted :=
  exists_congr fun _ => and_congr_left fun _ =>
    mem_delete_iff_of_not_mem ownedThrough_roles h (by decide) (by decide)

/-- After a deletion of roles a user is given what is still given. -/
theorem gives_delete_iff (h : s.delete .roles selects = .ok s') :
    s'.Gives user token ↔ s.StillGives selects user token := by
  refine or_congr (exists_congr fun role => ?_) (direct_delete_iff h 1)
  rw [hasRole_delete_iff h, and_assoc, and_left_comm]
  refine and_congr_right fun hkept => and_congr_right fun _ => ?_
  exact roleGives_delete_iff h hkept

theorem legible_delete_iff (h : s.delete .roles selects = .ok s') :
    s'.Legible user ↔ s.StillLegible selects user := by
  have hgift {role : Int64} {r : Row} (hr : r .roleId = .integer role)
      (hkept : ¬ s.Loses .roles selects role) :
      r ∈ s'.rows .rolePermissions ↔ r ∈ s.rows .rolePermissions :=
    (mem_delete_owned_iff ownedThrough_roles h (by decide) hr).trans
      (and_iff_left hkept)
  have hdirect {r : Row} :
      r ∈ s'.rows .userPermissions ↔ r ∈ s.rows .userPermissions :=
    mem_delete_iff_of_not_mem ownedThrough_roles h (by decide) (by decide)
  constructor
  · intro hlegible
    refine ⟨fun role hkept hrole r hr hid => ?_, fun r hr => ?_⟩
    · exact hlegible.gifts role ((hasRole_delete_iff h).2 ⟨hrole, hkept⟩) r
        ((hgift hid hkept).2 hr) hid
    · exact hlegible.direct r (hdirect.2 hr)
  · intro hstill
    refine ⟨fun role hrole r hr hid => ?_, fun r hr => ?_⟩
    · obtain ⟨hrole, hkept⟩ := (hasRole_delete_iff h).1 hrole
      exact hstill.gifts role hkept hrole r ((hgift hid hkept).1 hr) hid
    · exact hstill.direct r (hdirect.1 hr)

-- ====================================================== until it is named

theorem WroteApart.wrote (h : WroteApart c n s s') : ∃ t, s.Wrote t s' := by
  cases h with
  | elsewhere _ hwrote => exact ⟨_, hwrote⟩
  | inserted _ hinsert => exact ⟨_, .inserted hinsert⟩
  | updated _ hupdate => exact ⟨_, .updated hupdate⟩
  | deleted hdelete => exact ⟨_, .deleted hdelete⟩

theorem changed_ne {changes : List (Column × Value)}
    (hgiven : ∀ v, changes.lookup c = some v →
      c.affinity.apply v ≠ .integer n)
    (hr : r c ≠ .integer n) : changed changes r c ≠ .integer n := by
  unfold changed
  split
  · next v hv => exact hgiven v hv
  · exact hr

namespace Unnamed

/-- New rows in one table leave the id unnamed if they do not name it, or if
the table lacks the column. -/
theorem withRows (h : s.Unnamed c n) {rows : List Row}
    (hrows : c ∈ t.columns → ∀ r ∈ rows, r c ≠ .integer n) :
    (s.withRows t rows).Unnamed c n := by
  intro u hu r hr
  by_cases hut : u = t
  · subst hut
    rw [rows_withRows_self] at hr
    exact hrows hu r hr
  · rw [rows_withRows_of_ne hut] at hr
    exact h u hu r hr

/-- The step. The column of ids is left out, since there a row can get an id
that was not given. -/
theorem wroteApart (h : s.Unnamed c n) (hc : c ≠ .id)
    (hw : WroteApart c n s s') : s'.Unnamed c n := by
  cases hw with
  | @elsewhere t ht hwrote =>
      intro u hu r hr
      have hne : u ≠ t := by
        rintro rfl
        exact ht hu
      exact h u hu r ((hwrote.sublist hne).subset hr)
  | @inserted t given hgiven hinsert =>
      obtain ⟨added, hid, -, -, rfl, -⟩ := insert_eq_ok_iff.1 hinsert
      refine h.withRows fun ht r hr => ?_
      rcases List.mem_append.1 hr with hr | hr
      · exact h t ht r hr
      · rw [List.mem_singleton.1 hr, (identified_eq_ok hid).2 c hc]
        exact hgiven
  | @updated t changes selects hgiven hupdate =>
      obtain ⟨rows, hchange, rfl, -⟩ := update_eq_ok_iff.1 hupdate
      refine h.withRows fun ht => ?_
      have hvisited : ∀ r ∈ s.visited t, r c ≠ .integer n :=
        fun r hr => h t ht r ((s.visited_perm t).mem_iff.1 hr)
      refine changeRows_induction
        (P := fun rows => ∀ r ∈ rows, r c ≠ .integer n) ?_ hchange hvisited
      intro before r rest hrows _ x hx
      rcases List.mem_append.1 hx with hx | hx
      · exact hrows x (List.mem_append_left _ hx)
      · rcases List.mem_cons.1 hx with rfl | hx
        · exact changed_ne hgiven (hrows r List.mem_append_cons_self)
        · exact hrows x (List.mem_append_right _ (List.mem_cons_of_mem r hx))
  | deleted hdelete =>
      intro u hu r hr
      exact h u hu r ((delete_sublist hdelete u).subset hr)

/-- The run. -/
theorem run (h : s.Unnamed c n) (hc : c ≠ .id)
    (hrun : ReflTransGen (WroteApart c n) s s') : s'.Unnamed c n := by
  induction hrun with
  | refl => exact h
  | tail _ hw ih => exact ih.wroteApart hc hw

/-- A user that no row names is given nothing. -/
theorem not_gives (h : s.Unnamed .userId user) : ¬ s.Gives user token := by
  rintro (⟨role, ⟨r, hr, huser, -⟩, -⟩ | ⟨r, hr, huser, -⟩)
  · exact h .userRoles (by decide) r hr huser
  · exact h .userPermissions (by decide) r hr huser

/-- Nor is anything read for such a user. -/
theorem legible (h : s.Unnamed .userId user) : s.Legible user where
  gifts _ hrole := by
    obtain ⟨r, hr, huser, -⟩ := hrole
    exact absurd huser (h .userRoles (by decide) r hr)
  direct r hr huser := absurd huser (h .userPermissions (by decide) r hr)

end Unnamed

theorem Reachable.run (h : s.Reachable)
    (hrun : ReflTransGen (WroteApart c n) s s') : s'.Reachable := by
  induction hrun with
  | refl => exact h
  | tail _ hw ih =>
      obtain ⟨t, hwrote⟩ := hw.wrote
      exact ih.wrote hwrote

/-- A new owner is named by nothing. -/
theorem WroteApart.of_insert {given : List (Column × Value)}
    (ht : OwnedThrough t c) (h : s.insert t given = .ok s') :
    WroteApart c n s s' :=
  .elsewhere ht.1 (.inserted h)

/-- A new role is nobody's yet. -/
theorem sameFor_of_insert {given : List (Column × Value)}
    (h : s.insert .roles given = .ok s') (user : UserId) :
    SameFor user s s' := by
  obtain ⟨r, -, -, -, rfl, -⟩ := insert_eq_ok_iff.1 h
  exact ⟨fun _ _ => Iff.rfl, fun _ _ => Iff.rfl, fun _ => Iff.rfl⟩

end Store

namespace Database

open Store

variable {s s' : Store} {user : UserId}

-- ================================================================= the tokens

/-- The user has no token. -/
def Bare (s : Store) (user : UserId) : Prop :=
  (ready s).tokensOf user = .ok []
    ∧ ((ready s).permissionSet user).answer = .ok .empty

theorem bare_of_unnamed (h : s.Reachable) (hunnamed : s.Unnamed .userId user) :
    Bare s user := by
  obtain ⟨tokens, htokens, hmem⟩ :=
    (h.fetches_tokensOf user).exists_eq_ok hunnamed.legible
  have hnone : tokens = [] :=
    List.eq_nil_iff_forall_not_mem.2 fun x hx =>
      hunnamed.not_gives ((hmem x).1 hx).1
  subst hnone
  exact ⟨htokens, permissionSet_answer htokens⟩

theorem amounts_of_delete (h : s.Reachable) {selects : Row → Bool}
    (hdelete : s.delete .roles selects = .ok s') (user : UserId) :
    Amounts s' user (s.StillLegible selects user)
      fun x => s.StillGives selects user x ∧ ¬ s.Denies user x := by
  have hread := (h.wrote (.deleted hdelete)).fetches_tokensOf user
  refine amounts_of_fetches (hread.congr (legible_delete_iff hdelete)
    fun x => ?_)
  exact and_congr (gives_delete_iff hdelete)
    (not_congr (direct_delete_iff hdelete 0))

/-- Grants do not outlive their owner. Every role and grant names a user and a
role that are there. A deleted user is named by no row, and has no token until
a row is written that names the user again, a new user under the same id being
no such row; all other users keep their tokens. After roles are deleted
everybody has what the remaining roles and direct grants give, less what is
denied, as far as all that is legible; a deleted role is named by no row until
one is written that names it again, and a new role, under whatever id, gives
nobody a token. -/
theorem grants_end_with_owner (h : s.Reachable) :
    s.Owned
      ∧ (∀ selects s', s.delete .users selects = .ok s' → ∀ user,
          (s.Loses .users selects user → s'.Unnamed .userId user
            ∧ ∀ s'', ReflTransGen (WroteApart .userId user) s' s'' →
                Bare s'' user)
          ∧ (¬ s.Loses .users selects user → AgreeOn user s s'))
      ∧ ∀ selects s', s.delete .roles selects = .ok s' →
          (∀ user, Amounts s' user (s.StillLegible selects user)
            fun x => s.StillGives selects user x ∧ ¬ s.Denies user x)
          ∧ ∀ role, s.Loses .roles selects role →
              ∀ s'', ReflTransGen (WroteApart .roleId role) s' s'' →
                s''.Unnamed .roleId role
                  ∧ ∀ given s₃, s''.insert .roles given = .ok s₃ →
                      ∀ user, AgreeOn user s'' s₃ := by
  refine ⟨h.sound.owned, ?users, ?roles⟩
  case users =>
    intro selects s' hdelete user
    have h' : s'.Reachable := h.wrote (.deleted hdelete)
    refine ⟨fun hloses => ?_, fun hkept => ?_⟩
    · have hunnamed := unnamed_of_delete ownedThrough_users hdelete hloses
      refine ⟨hunnamed, fun s'' hrun => ?_⟩
      exact bare_of_unnamed (h'.run hrun) (hunnamed.run (by decide) hrun)
    · exact agreeOn_of_sameFor h h' (sameFor_of_delete hdelete hkept)
  case roles =>
    intro selects s' hdelete
    have h' : s'.Reachable := h.wrote (.deleted hdelete)
    refine ⟨amounts_of_delete h hdelete, fun role hloses s'' hrun => ?_⟩
    have h'' : s''.Reachable := h'.run hrun
    have hunnamed := unnamed_of_delete ownedThrough_roles hdelete hloses
    refine ⟨hunnamed.run (by decide) hrun, fun given s₃ hinsert user => ?_⟩
    exact agreeOn_of_sameFor h'' (h''.wrote (.inserted hinsert))
      (sameFor_of_insert hinsert user)

-- ============================================================= the two clerks

instance (s : Store) (t : Table) (selects : Row → Bool) (n : Int64) :
    Decidable (s.Loses t selects n) :=
  inferInstanceAs (Decidable (∃ d ∈ s.rows t, _))

/-- The clerks without the first one. -/
def clerkLeft : Store :=
  answered (clerks.delete .users (· .id == .integer 5))

/-- Somebody else under the first one's id. -/
def clerkReplaced : Store :=
  answered (clerkLeft.insert .users
    [(.id, .integer 5), (.fio, .text "C"), (.departmentId, .integer 1)])

/-- The clerks without the role of a reader. -/
def readerDropped : Store :=
  answered (clerks.delete .roles (· .id == .integer 2))

/-- Another role under the reader's id. -/
def readerReplaced : Store :=
  answered (readerDropped.insert .roles
    [(.id, .integer 2), (.name, .text "auditor")])

/-- Who follows the first clerk has none of the clerk's tokens and the second
clerk keeps all; and a role that follows the reader gives the clerk nothing. -/
theorem clerks_followed :
    clerks.Reachable
      ∧ clerks.delete .users (· .id == .integer 5) = .ok clerkLeft
      ∧ clerkLeft.insert .users
          [(.id, .integer 5), (.fio, .text "C"), (.departmentId, .integer 1)]
        = .ok clerkReplaced
      ∧ Bare clerkReplaced 5 ∧ AgreeOn 6 clerks clerkLeft
      ∧ clerks.delete .roles (· .id == .integer 2) = .ok readerDropped
      ∧ readerDropped.insert .roles
          [(.id, .integer 2), (.name, .text "auditor")] = .ok readerReplaced
      ∧ AgreeOn 5 readerDropped readerReplaced := by
  have hleft : clerks.delete .users (· .id == .integer 5) = .ok clerkLeft :=
    eq_ok_answered (by decide +kernel)
  have hreplaced : clerkLeft.insert .users
      [(.id, .integer 5), (.fio, .text "C"), (.departmentId, .integer 1)]
        = .ok clerkReplaced := eq_ok_answered (by decide +kernel)
  have hdropped : clerks.delete .roles (· .id == .integer 2)
      = .ok readerDropped := eq_ok_answered (by decide +kernel)
  have hnew : readerDropped.insert .roles
      [(.id, .integer 2), (.name, .text "auditor")] = .ok readerReplaced :=
    eq_ok_answered (by decide +kernel)
  obtain ⟨-, husers, hroles⟩ := grants_end_with_owner clerks_reachable
  have hbare : Bare clerkReplaced 5 := by
    obtain ⟨hlost, -⟩ := husers _ clerkLeft hleft 5
    have hnew : ReflTransGen (WroteApart .userId 5) clerkLeft clerkReplaced :=
      .single (.of_insert ownedThrough_users hreplaced)
    exact (hlost (by decide +kernel)).2 clerkReplaced hnew
  have hkept : AgreeOn 6 clerks clerkLeft :=
    (husers _ clerkLeft hleft 6).2 (by decide +kernel)
  have hnothing : AgreeOn 5 readerDropped readerReplaced := by
    obtain ⟨-, hlost⟩ := hroles _ readerDropped hdropped
    exact (hlost 2 (by decide +kernel) readerDropped .refl).2 _ _ hnew 5
  exact ⟨clerks_reachable, hleft, hreplaced, hbare, hkept, hdropped, hnew,
    hnothing⟩

/-- The role of a clerk is deleted. The reader's role is left, but with a token
that is no text, and nobody who has it is given a permission set. -/
theorem smudged_reader_unread :
    smudged.Reachable
      ∧ ∃ s', smudged.delete .roles (· .id == .integer 1) = .ok s'
          ∧ smudged.StillGives (· .id == .integer 1) 5 "orders:view"
          ∧ ¬ smudged.Denies 5 "orders:view"
          ∧ ¬ ∃ set, ((ready s').permissionSet 5).answer = .ok set := by
  have hdelete : smudged.delete .roles (· .id == .integer 1)
      = .ok (answered (smudged.delete .roles (· .id == .integer 1))) :=
    eq_ok_answered (by decide +kernel)
  have hread : (answered
      (smudged.delete .roles (· .id == .integer 1))).tokensOf 5
        = .error (.noText .permission) := by
    decide +kernel
  refine ⟨smudged_reachable, _, hdelete, ?_, ?_, ?_⟩
  · exact Or.inl ⟨2, by unfold HasRole RoleGives; decide +kernel⟩
  · unfold Denies Direct
    decide +kernel
  · rintro ⟨set, hset⟩
    rw [permissionSet_error hread] at hset
    cases hset

end Database

end WorkRouting
