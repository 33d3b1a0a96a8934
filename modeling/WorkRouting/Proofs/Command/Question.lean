/-
What the question about a permission is answered. `Verdict.Due` lists the
answers by what the question says and what the rows of the store record: a
question that cannot be understood is refused, an employee who is not there is
missing, and otherwise the decision on the target that the question aims at is
told, unless the tokens of who asks are not legible: then there is no decision.
Nothing in it says how the command line, the settings and the database are gone
through to get there.

- One answer is always due (`Verdict.existsUnique_due`). No read of an employee
  fails over a store that accepted writes lead to, and the tokens are read
  where they are legible, so nothing else can come up.
- What is due is what the command answers, whatever else the workspace holds
  (`Workspace.can_answers_due`), and a question that is refused is refused
  before any settings are loaded.
- A question is taken for one about the collection only if it names no target
  at all (`targetOf_eq_none_iff`). Of several targets one is looked at, and an
  order that is not whole is refused, since the check without it would allow
  more.
-/
import WorkRouting.Proofs.Store.Reading
import WorkRouting.Proofs.Store.Tokens
import WorkRouting.Workspace.Basic

namespace WorkRouting

-- ============================================================== vocabulary

namespace AccessQuestion

/-- Nothing is given about an order. -/
def Orderless (q : AccessQuestion) : Prop :=
  q.orderDepartment = none ∧ q.orderOtdel = none ∧ q.orderBranch = none
    ∧ q.orderOffice = none ∧ q.orderCreator = none ∧ q.orderExecutor = none

/-- Something is given about an order, but not all that an order needs. -/
def HalfOrdered (q : AccessQuestion) : Prop :=
  ¬ q.Orderless ∧ (q.orderDepartment = none ∨ q.orderCreator = none
    ∨ q.orderExecutor = none)

/-- What a question is about: the employee it names, else the order it
describes, else a reference row if it says so, else the collection. -/
inductive AimsAt (s : Store) (q : AccessQuestion) : Option Target → Prop
  | employee {user : UserId} {a : Actor} :
      q.targetUser = some user → s.Employs user a →
      AimsAt s q (some (.user a.toTarget))
  | order {department : DepartmentId} {creator executor : UserId} :
      q.targetUser = none → q.orderDepartment = some department →
      q.orderCreator = some creator → q.orderExecutor = some executor →
      AimsAt s q (some (.order {
        department
        otdel := q.orderOtdel
        branch := q.orderBranch
        office := q.orderOffice
        creator
        executor }))
  | reference :
      q.targetUser = none → q.Orderless → q.isSimple = true →
      AimsAt s q (some .simple)
  | collection :
      q.targetUser = none → q.Orderless → q.isSimple = false →
      AimsAt s q none

end AccessQuestion

/-- What a question about a permission may be answered. -/
inductive Verdict where
  /-- The question cannot be understood. -/
  | refused (cause : String)
  /-- Somebody whom it names is not there. -/
  | missing (user : UserId)
  /-- It cannot be decided. -/
  | failed
  | decided (p : Permission) (allowed : Bool)

namespace Verdict

/-- The exit code and the line of a question that has no answer. -/
def unanswered (exitCode : Nat) (errorClass message correlationId : String) :
    Outcome :=
  ⟨exitCode, (Json.object [("command", .string "can"),
    ("status", .string "error"), ("error_class", .string errorClass),
    ("message", .string message),
    ("correlation_id", .string correlationId)]).render⟩

/-- The exit code and the line that tell a verdict to the user who asks. -/
def outcome (user : UserId) (correlationId : String) : Verdict → Outcome
  | refused cause => unanswered 10 "bad_request" cause correlationId
  | missing absent =>
      unanswered 11 "not_found"
        s!"user {idText absent} does not exist or is inactive" correlationId
  | failed =>
      unanswered 13 "internal" "An unexpected internal error occurred."
        correlationId
  | decided p allowed =>
      ⟨0, (Json.object [("command", .string "can"), ("status", .string "ok"),
        ("error_class", .null),
        ("message", .string (if allowed then "allowed" else "denied")),
        ("data", .object [("allowed", .bool allowed),
          ("permission", .string p.render),
          ("user_id", .int user.toInt)])]).render⟩

/-- The text under which half an order is refused. -/
def halfOrderText : String :=
  "an order target needs --order-department, --order-creator and "
    ++ "--order-executor"

/-- The verdict that is due on a question. -/
inductive Due (s : Store) (q : AccessQuestion) : Verdict → Prop
  | illegible {e : TokenError} :
      Permission.parse q.permission = .error e →
      Due s q (.refused e.message)
  | half {p : Permission} :
      Permission.parse q.permission = .ok p → q.HalfOrdered →
      Due s q (.refused halfOrderText)
  | asker {p : Permission} :
      Permission.parse q.permission = .ok p → ¬ q.HalfOrdered →
      s.Lacks q.user →
      Due s q (.missing q.user)
  | target {p : Permission} {a : Actor} {user : UserId} :
      Permission.parse q.permission = .ok p → ¬ q.HalfOrdered →
      s.Employs q.user a → q.targetUser = some user → s.Lacks user →
      Due s q (.missing user)
  | unread {p : Permission} {a : Actor} {target : Option Target} :
      Permission.parse q.permission = .ok p → ¬ q.HalfOrdered →
      s.Employs q.user a → q.AimsAt s target → ¬ s.Legible q.user →
      Due s q .failed
  | decision {p : Permission} {a : Actor} {target : Option Target}
      {held : PermissionSet} :
      Permission.parse q.permission = .ok p → ¬ q.HalfOrdered →
      s.Employs q.user a → q.AimsAt s target →
      ((Database.ready s).permissionSet q.user).answer = .ok held →
      Due s q (.decided p (canDo p a held target))

end Verdict

-- ============================================================ what is read

namespace Database

variable {s : Store} {a : Actor} {user : UserId}

theorem presentUser_of_employs (h : s.Sound) (ha : s.Employs user a) :
    (ready s).presentUser user = .ok a := by
  have hread : (ready s).activeUser user = .ok (some a) :=
    h.activeUser_of_employs ha
  rw [presentUser, hread]

theorem presentUser_of_lacks (h : s.Lacks user) :
    (ready s).presentUser user = .error (.domain (.notFound
      s!"user {idText user} does not exist or is inactive")) := by
  have hread : (ready s).activeUser user = .ok none :=
    Store.activeUser_of_lacks h
  rw [presentUser, hread]

end Database

-- ============================================================== the question

namespace AccessQuestion

variable {s : Store} {q : AccessQuestion} {p : Permission}
  {target : Option Target}

instance (q : AccessQuestion) : Decidable q.Orderless :=
  inferInstanceAs (Decidable (_ ∧ _ ∧ _ ∧ _ ∧ _ ∧ _))

instance (q : AccessQuestion) : Decidable q.HalfOrdered :=
  inferInstanceAs (Decidable (¬ _ ∧ _))

theorem mentionsOrder_eq_false_iff :
    q.mentionsOrder = false ↔ q.Orderless := by
  simp only [mentionsOrder, Orderless, Bool.or_eq_false_iff,
    Option.isSome_eq_false_iff, Option.isNone_iff_eq_none, and_assoc]

theorem order?_eq_none_iff :
    q.order? = none ↔ q.orderDepartment = none ∨ q.orderCreator = none
      ∨ q.orderExecutor = none := by
  unfold order?
  cases q.orderDepartment <;> cases q.orderCreator <;>
    cases q.orderExecutor <;> simp

theorem order?_of_whole {department : DepartmentId} {creator executor : UserId}
    (hdepartment : q.orderDepartment = some department)
    (hcreator : q.orderCreator = some creator)
    (hexecutor : q.orderExecutor = some executor) :
    q.order? = some {
      department
      otdel := q.orderOtdel
      branch := q.orderBranch
      office := q.orderOffice
      creator
      executor } := by
  simp [order?, hdepartment, hcreator, hexecutor]

/-- Half an order is refused for it: the question says something about an order
that is none. -/
theorem halfOrdered_iff :
    (q.mentionsOrder && q.order?.isNone) = true ↔ q.HalfOrdered := by
  rw [Bool.and_eq_true, Option.isNone_iff_eq_none, order?_eq_none_iff,
    ← Bool.not_eq_false, mentionsOrder_eq_false_iff, HalfOrdered]

/-- Where no order is described and none is refused, nothing is given about
one. -/
theorem orderless_of_order? (hwhole : ¬ q.HalfOrdered)
    (hnone : q.order? = none) : q.Orderless :=
  Decidable.byContradiction fun hgiven =>
    hwhole ⟨hgiven, order?_eq_none_iff.1 hnone⟩

theorem order?_of_orderless (h : q.Orderless) : q.order? = none :=
  order?_eq_none_iff.2 (Or.inl h.1)

theorem permission?_of_illegible {e : TokenError}
    (h : Permission.parse q.permission = .error e) :
    q.permission? = .error (.domain (.badRequest e.message)) := by
  rw [permission?, h]

theorem permission?_of_half (h : Permission.parse q.permission = .ok p)
    (hhalf : q.HalfOrdered) :
    q.permission? = .error (.domain (.badRequest Verdict.halfOrderText)) := by
  rw [permission?, h]
  dsimp only
  rw [if_pos (halfOrdered_iff.2 hhalf)]
  rfl

theorem permission?_eq_ok_iff :
    q.permission? = .ok p
      ↔ Permission.parse q.permission = .ok p ∧ ¬ q.HalfOrdered := by
  rw [← halfOrdered_iff]
  cases hparse : Permission.parse q.permission with
  | error e => simp [permission?, hparse]
  | ok p' =>
      simp only [permission?, hparse]
      split <;> simp [*]

-- =============================================================== the target

/-- A question that is not refused aims at something, or names somebody who is
not there. -/
theorem exists_aimsAt (h : s.Sound) (hwhole : ¬ q.HalfOrdered) :
    (∃ target, q.AimsAt s target)
      ∨ ∃ user, q.targetUser = some user ∧ s.Lacks user := by
  cases htarget : q.targetUser with
  | some user =>
      rcases h.employs_or_lacks user with ⟨a, ha⟩ | hlacks
      · exact Or.inl ⟨_, .employee htarget ha⟩
      · exact Or.inr ⟨user, rfl, hlacks⟩
  | none =>
      refine Or.inl ?_
      cases horder : q.order? with
      | none =>
          have hnothing := orderless_of_order? hwhole horder
          cases hsimple : q.isSimple with
          | true => exact ⟨_, .reference htarget hnothing hsimple⟩
          | false => exact ⟨_, .collection htarget hnothing hsimple⟩
      | some o =>
          have hsome : ¬ q.order? = none := by
            rw [horder]
            exact Option.some_ne_none o
          rw [order?_eq_none_iff, not_or, not_or] at hsome
          obtain ⟨hdepartment, hcreator, hexecutor⟩ := hsome
          obtain ⟨department, hdepartment⟩ :=
            Option.ne_none_iff_exists'.1 hdepartment
          obtain ⟨creator, hcreator⟩ := Option.ne_none_iff_exists'.1 hcreator
          obtain ⟨executor, hexecutor⟩ :=
            Option.ne_none_iff_exists'.1 hexecutor
          exact ⟨_, .order htarget hdepartment hcreator hexecutor⟩

/-- The target that is looked up is the one aimed at. -/
theorem AimsAt.targetOf_eq (h : q.AimsAt s target) (hs : s.Sound) :
    (Database.ready s).targetOf q = .ok target := by
  cases h with
  | employee htarget ha =>
      simp only [Database.targetOf, htarget,
        Database.presentUser_of_employs hs ha]
      rfl
  | order htarget hdepartment hcreator hexecutor =>
      simp only [Database.targetOf, htarget,
        order?_of_whole hdepartment hcreator hexecutor]
  | reference htarget hnothing hsimple =>
      simp only [Database.targetOf, htarget, order?_of_orderless hnothing,
        hsimple, if_true]
  | collection htarget hnothing hsimple =>
      simp [Database.targetOf, htarget, order?_of_orderless hnothing, hsimple]

/-- A question aims at one target. -/
theorem AimsAt.unique {target' : Option Target} (h : q.AimsAt s target)
    (hs : s.Sound) (h' : q.AimsAt s target') : target = target' :=
  Except.ok.inj ((h.targetOf_eq hs).symm.trans (h'.targetOf_eq hs))

/-- An employee who is aimed at is there. -/
theorem AimsAt.not_lacks {user : UserId} (h : q.AimsAt s target)
    (htarget : q.targetUser = some user) : ¬ s.Lacks user := by
  cases h with
  | employee hsome ha =>
      rw [htarget] at hsome
      cases hsome
      exact ha.not_lacks
  | order hnone | reference hnone | collection hnone =>
      rw [htarget] at hnone
      cases hnone

/-- The collection is asked about only where no target is named at all. -/
theorem targetOf_eq_none_iff {db : Database} (hp : q.permission? = .ok p) :
    db.targetOf q = .ok none
      ↔ q.isSimple = false ∧ q.targetUser = none ∧ q.Orderless := by
  have hwhole := (permission?_eq_ok_iff.1 hp).2
  constructor
  · intro h
    unfold Database.targetOf at h
    split at h
    · obtain ⟨a, -, hsome⟩ := map_eq_ok_iff.1 h
      cases hsome
    · next htarget =>
        split at h
        · cases h
        · next horder =>
            refine ⟨?_, htarget, orderless_of_order? hwhole horder⟩
            by_contra hsimple
            rw [if_pos (by simpa using hsimple)] at h
            cases h
  · rintro ⟨hsimple, htarget, hnothing⟩
    simp [Database.targetOf, htarget, order?_of_orderless hnothing, hsimple]

end AccessQuestion

namespace Database

variable {s : Store} {q : AccessQuestion} {p : Permission} {a : Actor}

theorem evaluate_of_asker (h : s.Lacks q.user) :
    (ready s).evaluate q p = .error (.domain (.notFound
      s!"user {idText q.user} does not exist or is inactive")) := by
  rw [evaluate, presentUser_of_lacks h]
  rfl

theorem evaluate_of_target {user : UserId} (hs : s.Sound)
    (ha : s.Employs q.user a) (htarget : q.targetUser = some user)
    (h : s.Lacks user) :
    (ready s).evaluate q p = .error (.domain (.notFound
      s!"user {idText user} does not exist or is inactive")) := by
  have hread : (ready s).targetOf q = .error (.domain (.notFound
      s!"user {idText user} does not exist or is inactive")) := by
    simp only [targetOf, htarget, presentUser_of_lacks h]
    rfl
  rw [evaluate, presentUser_of_employs hs ha, hread]
  rfl

theorem evaluate_of_decision {target : Option Target} {held : PermissionSet}
    (hs : s.Sound) (ha : s.Employs q.user a) (haims : q.AimsAt s target)
    (hheld : ((ready s).permissionSet q.user).answer = .ok held) :
    (ready s).evaluate q p = .ok (canDo p a held target) := by
  rw [evaluate, presentUser_of_employs hs ha, haims.targetOf_eq hs, hheld]
  rfl

theorem evaluate_of_unread {target : Option Target} (h : s.Reachable)
    (ha : s.Employs q.user a) (haims : q.AimsAt s target)
    (hillegible : ¬ s.Legible q.user) :
    (ready s).evaluate q p = .error (.persistence
      (ReadError.noText .permission).toDirectory.message) := by
  have hread := permissionSet_error
    ((h.fetches_tokensOf q.user).eq_error hillegible)
  rw [evaluate, presentUser_of_employs h.sound ha, haims.targetOf_eq h.sound,
    hread]
  rfl

end Database

-- =============================================================== the command

namespace Workspace

variable {w : Workspace} {s : Store} {settings : Settings} {opened : Opened}
  {q : AccessQuestion} {p : Permission}

/-- A question that is refused is refused at once, in every workspace. -/
theorem perform_can_of_refused {cause : String} (w : Workspace)
    (correlationId : String)
    (h : q.permission? = .error (.domain (.badRequest cause))) :
    w.perform correlationId (.can q)
      = (w, (Verdict.refused cause).outcome q.user correlationId) := by
  rw [perform, h]
  rfl

/-- Any other is put to the database. -/
theorem perform_can (correlationId : String)
    (hload : Settings.load w.surroundings {} = .ok settings)
    (hconnect : w.tree.connect settings.url = .ok opened)
    (hopened : opened.session.database = .ready s)
    (h : q.permission? = .ok p) :
    (w.perform correlationId (.can q)).2
      = match (Database.ready s).evaluate q p with
        | .ok allowed =>
            (Verdict.decided p allowed).outcome q.user correlationId
        | .error e => .ofApplicationError "can" e correlationId := by
  simp only [perform, h, reporting, onDatabase, hload, hconnect, Session.ask,
    hopened]
  cases (Database.ready s).evaluate q p <;> rfl

end Workspace

-- =============================================================== the verdict

namespace Verdict

variable {s : Store} {q : AccessQuestion} {v : Verdict} {p : Permission}

/-- A verdict on a question that is understood, from somebody who is there: the
target that is named is missing, or there is one to decide on. -/
theorem Due.of_present {a : Actor} (hv : Due s q v) (h : s.Sound)
    (hparse : Permission.parse q.permission = .ok p)
    (hwhole : ¬ q.HalfOrdered) (ha : s.Employs q.user a) :
    (∃ user, q.targetUser = some user ∧ s.Lacks user ∧ v = .missing user)
      ∨ ∃ target, q.AimsAt s target
        ∧ (¬ s.Legible q.user ∧ v = .failed
          ∨ ∃ held, ((Database.ready s).permissionSet q.user).answer = .ok held
            ∧ v = .decided p (canDo p a held target)) := by
  cases hv with
  | illegible hparse' =>
      rw [hparse] at hparse'
      cases hparse'
  | half _ hhalf => exact absurd hhalf hwhole
  | asker _ _ hlacks => exact absurd hlacks ha.not_lacks
  | target _ _ _ htarget hlacks => exact .inl ⟨_, htarget, hlacks, rfl⟩
  | unread _ _ _ haims hillegible =>
      exact .inr ⟨_, haims, .inl ⟨hillegible, rfl⟩⟩
  | decision hparse' _ ha' haims hheld =>
      rw [hparse, Except.ok.injEq] at hparse'
      rw [h.eq_of_employs ha' ha, ← hparse']
      exact .inr ⟨_, haims, .inr ⟨_, hheld, rfl⟩⟩

/-- On a question that is understood and aims at something, from somebody who
is there, one verdict is due: a decision where the tokens are legible, and
failure where they are not. -/
theorem existsUnique_due_of_aimsAt {a : Actor} {target : Option Target}
    (h : s.Reachable) (hparse : Permission.parse q.permission = .ok p)
    (hwhole : ¬ q.HalfOrdered) (ha : s.Employs q.user a)
    (haims : q.AimsAt s target) : ∃! v, Due s q v := by
  have hread : (∃ held,
      ((Database.ready s).permissionSet q.user).answer = .ok held)
        ↔ s.Legible q.user := Database.exists_permissionSet_iff h
  have hdue {v : Verdict} (hv : Due s q v) :
      ¬ s.Legible q.user ∧ v = .failed
        ∨ ∃ held, ((Database.ready s).permissionSet q.user).answer = .ok held
          ∧ v = .decided p (canDo p a held target) := by
    obtain ⟨user, htarget, hlacks, -⟩ | ⟨target', haims', hdecided⟩ :=
      hv.of_present h.sound hparse hwhole ha
    · exact absurd hlacks (haims.not_lacks htarget)
    · rwa [haims.unique h.sound haims']
  by_cases hlegible : s.Legible q.user
  · obtain ⟨held, hheld⟩ := hread.2 hlegible
    refine ⟨_, .decision hparse hwhole ha haims hheld, fun v hv => ?_⟩
    obtain ⟨hillegible, -⟩ | ⟨held', hheld', rfl⟩ := hdue hv
    · exact absurd hlegible hillegible
    · rw [hheld, Except.ok.injEq] at hheld'
      rw [hheld']
  · refine ⟨_, .unread hparse hwhole ha haims hlegible, fun v hv => ?_⟩
    obtain ⟨-, rfl⟩ | ⟨held, hheld, -⟩ := hdue hv
    · rfl
    · exact absurd (hread.1 ⟨held, hheld⟩) hlegible

/-- On a question that is understood, from somebody who is there, one verdict
is due. -/
theorem existsUnique_due_of_present {a : Actor} (h : s.Reachable)
    (hparse : Permission.parse q.permission = .ok p)
    (hwhole : ¬ q.HalfOrdered) (ha : s.Employs q.user a) :
    ∃! v, Due s q v := by
  obtain ⟨target, haims⟩ | ⟨user, htarget, hlacks⟩ :=
    q.exists_aimsAt h.sound hwhole
  · exact existsUnique_due_of_aimsAt h hparse hwhole ha haims
  · refine ⟨_, .target hparse hwhole ha htarget hlacks, fun v hv => ?_⟩
    obtain ⟨user', htarget', -, rfl⟩ | ⟨target, haims, -⟩ :=
      hv.of_present h.sound hparse hwhole ha
    · rw [htarget, Option.some.injEq] at htarget'
      rw [htarget']
    · exact absurd hlacks (haims.not_lacks htarget)

/-- On every question one verdict is due: what a constructor asks for rules the
others out. -/
theorem existsUnique_due (h : s.Reachable) (q : AccessQuestion) :
    ∃! v, Due s q v := by
  cases hparse : Permission.parse q.permission with
  | error e =>
      refine ⟨_, .illegible hparse, fun v hv => ?_⟩
      cases hv <;> simp_all
  | ok p =>
      by_cases hhalf : q.HalfOrdered
      · refine ⟨_, .half hparse hhalf, fun v hv => ?_⟩
        cases hv <;> simp_all
      · rcases h.sound.employs_or_lacks q.user with ⟨a, ha⟩ | hlacks
        · exact existsUnique_due_of_present h hparse hhalf ha
        · refine ⟨_, .asker hparse hhalf hlacks, fun v hv => ?_⟩
          cases hv with
          | illegible hparse' => simp_all
          | half _ hhalf' => exact absurd hhalf' hhalf
          | asker => rfl
          | target _ _ ha | unread _ _ ha | decision _ _ ha =>
              exact absurd hlacks ha.not_lacks

/-- A verdict of refusal is due to the question alone. -/
theorem Due.permission?_eq {cause : String} (h : Due s q (.refused cause)) :
    q.permission? = .error (.domain (.badRequest cause)) := by
  cases h with
  | illegible hparse => exact AccessQuestion.permission?_of_illegible hparse
  | half hparse hhalf => exact AccessQuestion.permission?_of_half hparse hhalf

end Verdict

/-- The answers to questions about permissions, in every workspace with valid
settings that name a database that can be opened, whatever accepted writes made
of it. On every question one verdict is due, and the command tells it; it fails
only over tokens that are not legible, on a question from somebody who is there
about somebody or something that is. A refusal does not depend on the workspace
at all. And a question that is not refused is evaluated without a target only
if it names none: no flag, no employee and nothing about an order. -/
theorem Workspace.can_answers_due {w : Workspace} {settings : Settings}
    {opened : Opened} {s : Store}
    (hload : Settings.load w.surroundings {} = .ok settings)
    (hconnect : w.tree.connect settings.url = .ok opened)
    (hopened : opened.session.database = .ready s) (hs : s.Reachable)
    (correlationId : String) (q : AccessQuestion) :
    (∃! v, Verdict.Due s q v)
      ∧ (∀ v, Verdict.Due s q v →
          (w.perform correlationId (.can q)).2
            = v.outcome q.user correlationId)
      ∧ (∀ cause, Verdict.Due s q (.refused cause) → ∀ w' : Workspace,
          w'.perform correlationId (.can q)
            = (w', (Verdict.refused cause).outcome q.user correlationId))
      ∧ ∀ p, q.permission? = .ok p →
          ((Database.ready s).targetOf q = .ok none
            ↔ q.isSimple = false ∧ q.targetUser = none ∧ q.Orderless) := by
  refine ⟨Verdict.existsUnique_due hs q, fun v hv => ?_,
    fun cause hcause w' =>
      w'.perform_can_of_refused correlationId hcause.permission?_eq,
    fun p hp => AccessQuestion.targetOf_eq_none_iff hp⟩
  have hasked {p : Permission} (hparse : Permission.parse q.permission = .ok p)
      (hwhole : ¬ q.HalfOrdered) :=
    perform_can correlationId hload hconnect hopened
      (AccessQuestion.permission?_eq_ok_iff.2 ⟨hparse, hwhole⟩)
  cases hv with
  | illegible hparse =>
      rw [w.perform_can_of_refused correlationId
        (AccessQuestion.permission?_of_illegible hparse)]
  | half hparse hhalf =>
      rw [w.perform_can_of_refused correlationId
        (AccessQuestion.permission?_of_half hparse hhalf)]
  | asker hparse hwhole hlacks =>
      rw [hasked hparse hwhole, Database.evaluate_of_asker hlacks]
      rfl
  | target hparse hwhole ha htarget hlacks =>
      rw [hasked hparse hwhole,
        Database.evaluate_of_target hs.sound ha htarget hlacks]
      rfl
  | unread hparse hwhole ha haims hillegible =>
      rw [hasked hparse hwhole,
        Database.evaluate_of_unread hs ha haims hillegible]
      rfl
  | decision hparse hwhole ha haims hheld =>
      rw [hasked hparse hwhole,
        Database.evaluate_of_decision hs.sound ha haims hheld]

/-- A database where the settings look for it. -/
def Workspace.office (s : Store) : Workspace where
  tree := { nodes := [(["orderdesk.db"], .database (.ready s))] }

theorem Workspace.office_connect (s : Store) :
    (office s).tree.connect ({} : Settings).url
      = .ok ⟨⟨.ready s, true⟩, some ["orderdesk.db"]⟩ := by
  have hurl : DatabaseUrl.parse ({} : Settings).url
      = .ok { name := "orderdesk.db", creates := true } := by
    decide +kernel
  rw [Tree.connect, hurl]
  rfl

/-- The second clerk may update anything, and is told so about the first. Half
an order is not taken for none, and a stranger is not there. -/
theorem Workspace.clerks_answered :
    ((office Database.clerks).perform "c-1" (.can {
        user := 6
        permission := "orders:update"
        targetUser := some 5 })).2
        = (Verdict.decided ⟨.orders, .update, none⟩ true).outcome 6 "c-1"
      ∧ ((office Database.clerks).perform "c-1" (.can {
          user := 6
          permission := "orders:update"
          orderDepartment := some 1 })).2
        = (Verdict.refused Verdict.halfOrderText).outcome 6 "c-1"
      ∧ ((office Database.clerks).perform "c-1" (.can {
          user := 9
          permission := "orders:update" })).2
        = (Verdict.missing 9).outcome 9 "c-1" := by
  have hload : Settings.load (office Database.clerks).surroundings {}
      = .ok {} := rfl
  have hparse : Permission.parse "orders:update"
      = .ok ⟨.orders, .update, none⟩ := by
    decide +kernel
  have hsound := Database.clerks_reachable.sound
  have hfirst : Database.clerks.Employs 5 { id := 5, department := 1 } :=
    hsound.activeUser_eq_some_iff.1 (by decide +kernel)
  have hsecond : Database.clerks.Employs 6 { id := 6, department := 1 } :=
    hsound.activeUser_eq_some_iff.1 (by decide +kernel)
  have hstranger : Database.clerks.Lacks 9 := by
    unfold Store.Lacks
    decide +kernel
  have htokens : Database.clerks.tokensOf 6 = .ok ["superuser"] := by
    decide +kernel
  have hallowed : canDo ⟨.orders, .update, none⟩ { id := 6, department := 1 }
      (PermissionSet.ofTokens ["superuser"]).answer
      (some (.user ({ id := 5, department := 1 } : Actor).toTarget))
        = true := by
    decide +kernel
  have hdue (q : AccessQuestion) :=
    (can_answers_due hload (office_connect _) rfl Database.clerks_reachable
      "c-1" q).2.1
  refine ⟨?_, hdue _ _ (.half hparse (by decide)),
    hdue _ _ (.asker hparse (by decide) hstranger)⟩
  rw [← hallowed]
  exact hdue _ _ (.decision hparse (by decide) hsecond
    (.employee rfl hfirst) (Database.permissionSet_answer htokens))

/-- Where a role has a token that is no text, a clerk who has the role is there
and asks about the collection, and still gets no decision. -/
theorem Workspace.smudged_unanswered :
    Database.smudged.Reachable
      ∧ Settings.load (office Database.smudged).surroundings {} = .ok {}
      ∧ Permission.parse "orders:view" = .ok ⟨.orders, .view, none⟩
      ∧ Database.smudged.Employs 5 { id := 5, department := 1 }
      ∧ ((office Database.smudged).perform "c-1" (.can {
          user := 5
          permission := "orders:view" })).2.exitCode = 13 := by
  have hload : Settings.load (office Database.smudged).surroundings {}
      = .ok {} := rfl
  have hparse : Permission.parse "orders:view"
      = .ok ⟨.orders, .view, none⟩ := by
    decide +kernel
  have hreach := Database.smudged_reachable
  have hemploys : Database.smudged.Employs 5 { id := 5, department := 1 } :=
    hreach.sound.activeUser_eq_some_iff.1 (by decide +kernel)
  have hillegible : ¬ Database.smudged.Legible 5 := by
    rw [← (hreach.fetches_tokensOf 5).answers_iff,
      Database.smudged_tokensOf]
    rintro ⟨tokens, htokens⟩
    cases htokens
  refine ⟨hreach, hload, hparse, hemploys, ?_⟩
  rw [perform_can "c-1" hload (office_connect _) rfl
      (AccessQuestion.permission?_eq_ok_iff.2 ⟨hparse, by decide⟩),
    Database.evaluate_of_unread hreach hemploys
      (.collection rfl (by decide) rfl) hillegible]
  rfl

end WorkRouting
