/-
The canonical tokens of a permission set, for every way to make one.

A run makes a set by steps (`Step`): two of them start over, the others add to
what is there. What a run has given is said of the steps alone (`Given`): some
step gives the grant and none behind it starts over. The set holds exactly that
(`has_built_iff`), so the tokens of the set are those of what was given, in
byte order and each once (`pairwise_tokens`, `mem_tokens_built`), and since no
two grants share a token they determine the set (`tokens_inj`).

Reading the tokens back gives a set of legible grants, always. It is the set
itself exactly when there was nothing else in it (`ofTokens_tokens_iff`), and
only a permission granted as a value can be something else: what a token gives
has been read, and what is read is legible (`Grant.legible_of_parse`).
-/
import WorkRouting.Proofs.Access.PermissionSet
import WorkRouting.Proofs.Text.Utf8

namespace WorkRouting

namespace PermissionSet

open Text

variable {set set' : PermissionSet} {x : Grant}

-- ================================================================== tokens

/-- The tokens of a set ascend in byte order, so none is there twice. -/
theorem pairwise_tokens (set : PermissionSet) :
    set.tokens.Pairwise fun s t => Utf8.encode s < Utf8.encode t := by
  unfold tokens
  rw [List.pairwise_map]
  exact set.ordered.imp fun h => Utf8.encode_lt_encode_iff.2 h

theorem mem_tokens {text : String} :
    text ∈ set.tokens ↔ ∃ x ∈ set.grants, x.token = text :=
  List.mem_map

theorem token_mem_tokens : x.token ∈ set.tokens ↔ x ∈ set.grants := by
  rw [mem_tokens]
  constructor
  · rintro ⟨y, hy, heq⟩
    rwa [← Grant.token_injective heq]
  · exact fun hx => ⟨x, hx, rfl⟩

/-- Sets with the same tokens are the same. -/
theorem tokens_inj : set.tokens = set'.tokens ↔ set = set' := by
  constructor
  · intro h
    refine eq_of_mem_iff fun x => ?_
    rw [← token_mem_tokens, h, token_mem_tokens]
  · exact congrArg tokens

/-- What the tokens of a set give: as long as all that is in it is legible,
that is what is in it. -/
theorem mem_ofTokens_tokens (h : ∀ y ∈ set.grants, y.Legible) :
    x ∈ (ofTokens set.tokens).answer.grants ↔ x ∈ set.grants := by
  simp only [mem_ofTokens, Grant.parse_trim_eq_ok_iff]
  constructor
  · rintro ⟨raw, hraw, -, htrim⟩
    obtain ⟨y, hy, rfl⟩ := mem_tokens.1 hraw
    rw [Grant.trim_token (h y hy)] at htrim
    rwa [← Grant.token_injective htrim]
  · intro hx
    exact ⟨x.token, token_mem_tokens.2 hx, h x hx, Grant.trim_token (h x hx)⟩

/-- The tokens of a set give the set exactly when its permissions are
legible. -/
theorem ofTokens_tokens_iff :
    (ofTokens set.tokens).answer = set
      ↔ ∀ p, set.contains p = true → p.Legible := by
  constructor
  · intro h p hp
    rw [contains_iff_mem, ← h] at hp
    obtain ⟨raw, -, hparse⟩ := mem_ofTokens.1 hp
    exact Grant.legible_of_parse hparse
  · intro h
    refine eq_of_mem_iff fun x => mem_ofTokens_tokens fun y hy => ?_
    cases y with
    | superuser => trivial
    | scope s => trivial
    | permission p => exact h p (contains_iff_mem.2 hy)

-- ==================================================================== runs

/-- One way to make a set, or to add to one. -/
inductive Step where
  /-- Start over from raw tokens. -/
  | tokens (raw : List String)
  /-- Start over with the superuser flag and nothing else. -/
  | superuser
  /-- Add what a token gives. -/
  | token (text : String)
  /-- Add a permission as a value, whatever its field. -/
  | grant (p : Permission)
  | scope (s : Scope)
  deriving DecidableEq

namespace Step

/-- The set behind a step. A token that is refused leaves the set as it is. -/
def after (set : PermissionSet) : Step → PermissionSet
  | tokens raw => (ofTokens raw).answer
  | superuser => .superuser
  | token text =>
      match set.insertToken text with
      | .ok set' => set'
      | .error _ => set
  | grant p => set.grant p
  | scope s => set.withScope s

/-- Whether the step drops what was there before. -/
def startsOver : Step → Bool
  | tokens _ | superuser => true
  | token _ | grant _ | scope _ => false

/-- What the step gives, by itself. -/
def Gives (x : Grant) : Step → Prop
  | tokens raw => ∃ text ∈ raw, Grant.parse (trim text) = .ok x
  | superuser => x = .superuser
  | token text => Grant.parse text = .ok x
  | grant p => x = .permission p
  | scope s => x = .scope s

theorem gives_token_iff {text : String} {g : Grant}
    (h : Grant.parse text = .ok g) : (token text).Gives x ↔ x = g := by
  rw [Gives, h, Except.ok.injEq, eq_comm]

theorem mem_after {step : Step} :
    x ∈ (step.after set).grants
      ↔ step.Gives x ∨ step.startsOver = false ∧ x ∈ set.grants := by
  cases step with
  | tokens raw => simp [after, startsOver, Gives, mem_ofTokens]
  | superuser => simp [after, startsOver, Gives, PermissionSet.superuser]
  | token text =>
      cases h : Grant.parse text with
      | error e => simp [after, startsOver, Gives, insertToken, Except.map, h]
      | ok g =>
          simp [after, startsOver, Gives, insertToken, Except.map, h,
            mem_insert, eq_comm]
  | grant p => simp [after, startsOver, Gives, PermissionSet.grant, mem_insert]
  | scope s => simp [after, startsOver, Gives, withScope, mem_insert]

/-- Only a permission granted as a value may be illegible. -/
theorem Gives.legible {step : Step} (h : step.Gives x)
    (hgrant : ∀ p, step ≠ grant p) : x.Legible := by
  cases step with
  | tokens raw =>
      obtain ⟨text, -, hparse⟩ := h
      exact Grant.legible_of_parse hparse
  | superuser =>
      cases h
      trivial
  | token text => exact Grant.legible_of_parse h
  | grant p => exact absurd rfl (hgrant p)
  | scope s =>
      cases h
      trivial

end Step

/-- Steps that do not start over add what they give, and nothing else. -/
theorem mem_foldl_after {steps : List Step}
    (h : ∀ step ∈ steps, step.startsOver = false) :
    x ∈ (steps.foldl Step.after set).grants
      ↔ x ∈ set.grants ∨ ∃ step ∈ steps, step.Gives x := by
  induction steps generalizing set with
  | nil => simp
  | cons step rest ih =>
      obtain ⟨hstep, hrest⟩ := List.forall_mem_cons.1 h
      rw [List.foldl_cons, ih hrest, Step.mem_after]
      simp only [hstep, true_and, List.mem_cons, exists_eq_or_imp]
      rw [or_assoc, or_left_comm]

/-- The set that a run makes, from nothing. -/
def built (steps : List Step) : PermissionSet := steps.foldl Step.after empty

/-- What a run has given and not dropped again. -/
def Given (steps : List Step) (x : Grant) : Prop :=
  ∃ front step back, steps = front ++ step :: back ∧ step.Gives x
    ∧ ∀ later ∈ back, later.startsOver = false

theorem not_given_nil : ¬ Given [] x := by
  rintro ⟨front, step, back, h, -⟩
  simp at h

theorem given_append_singleton {steps : List Step} {last : Step} :
    Given (steps ++ [last]) x
      ↔ last.Gives x ∨ last.startsOver = false ∧ Given steps x := by
  constructor
  · -- what gives the grant is the last step, or the last step is behind it
    rintro ⟨front, step, back, h, hgives, hback⟩
    rcases List.eq_nil_or_concat' back with rfl | ⟨back, later, rfl⟩
    · obtain ⟨-, hlast⟩ := List.append_inj' h rfl
      cases hlast
      exact .inl hgives
    · rw [← List.cons_append, ← List.append_assoc] at h
      obtain ⟨hsteps, hlast⟩ := List.append_inj' h rfl
      cases hlast
      exact .inr ⟨hback last (by simp), front, step, back, hsteps, hgives,
        fun later hlater => hback later (by simp [hlater])⟩
  · rintro (hgives | ⟨hlast, front, step, back, rfl, hgives, hback⟩)
    · exact ⟨steps, last, [], rfl, hgives, by simp⟩
    · refine ⟨front, step, back ++ [last], by simp, hgives, ?_⟩
      intro later hlater
      rcases List.mem_append.1 hlater with hlater | hlater
      · exact hback later hlater
      · rwa [List.mem_singleton.1 hlater]

/-- A run makes the set of what it has given. -/
theorem mem_built {steps : List Step} :
    x ∈ (built steps).grants ↔ Given steps x := by
  induction steps using List.reverseRecOn with
  | nil => exact iff_of_false List.not_mem_nil not_given_nil
  | append_singleton steps last ih =>
      rw [given_append_singleton, ← ih, built, List.foldl_concat]
      exact Step.mem_after

theorem has_built_iff {steps : List Step} :
    (built steps).has x = true ↔ Given steps x :=
  has_iff_mem.trans mem_built

theorem built_eq_iff {steps steps' : List Step} :
    built steps = built steps' ↔ ∀ x, Given steps x ↔ Given steps' x := by
  simp only [← mem_built]
  exact ⟨fun h x => by rw [h], eq_of_mem_iff⟩

theorem mem_tokens_built {steps : List Step} {text : String} :
    text ∈ (built steps).tokens ↔ ∃ x, Given steps x ∧ x.token = text := by
  simp only [mem_tokens, mem_built]

/-- Without a permission granted as a value, all that was given is legible. -/
theorem Given.legible {steps : List Step} (h : Given steps x)
    (hgrant : ∀ p, Step.grant p ∉ steps) : x.Legible := by
  obtain ⟨front, step, back, rfl, hgives, -⟩ := h
  refine hgives.legible fun p hstep => hgrant p ?_
  simp [hstep]

/-- The tokens of a set, over every run that makes one. They ascend strictly
in byte order and are those of what was given; they are the same for two runs
exactly when the sets are, which is when the runs have given the same. Read
back, they make the set again exactly when every permission in it is legible,
as in a run without a permission granted as a value. -/
theorem tokens_canonical (steps : List Step) :
    (built steps).tokens.Pairwise (fun s t => Utf8.encode s < Utf8.encode t)
    ∧ (∀ text, text ∈ (built steps).tokens
        ↔ ∃ x, Given steps x ∧ x.token = text)
    ∧ (∀ x, (built steps).has x = true ↔ Given steps x)
    ∧ (∀ steps', ((built steps).tokens = (built steps').tokens
          ↔ built steps = built steps')
        ∧ (built steps = built steps'
          ↔ ∀ x, (built steps).has x = (built steps').has x))
    ∧ ((ofTokens (built steps).tokens).answer = built steps
        ↔ ∀ p, (built steps).contains p = true → p.Legible)
    ∧ ((∀ p, Step.grant p ∉ steps) →
        (ofTokens (built steps).tokens).answer = built steps) := by
  refine ⟨pairwise_tokens _, fun _ => mem_tokens_built, fun _ => has_built_iff,
    fun steps' => ⟨tokens_inj, ?_⟩, ofTokens_tokens_iff, fun hgrant => ?_⟩
  · rw [built_eq_iff]
    refine forall_congr' fun x => ?_
    rw [Bool.eq_iff_iff, has_built_iff, has_built_iff]
  · refine ofTokens_tokens_iff.2 fun p hp => ?_
    exact Given.legible (mem_built.1 (contains_iff_mem.1 hp)) hgrant

/-- A run that only reads: blanks, a repetition and refused tokens leave no
trace, and what was there before the raw tokens is gone. -/
def readRun : List Step :=
  [.superuser, .tokens ["orders:view:😀", " scope:own ", "root", "scope:own"],
    .token "orders:view:～", .token "users:view ", .token "scope:own ",
    .scope .all]

/-- A permission that no token gives. -/
def valueOnly : Permission := ⟨.orders, .update, some "a:b"⟩

/-- A run that grants it. -/
def valueRun : List Step := [.tokens ["users:view"], .grant valueOnly]

theorem tokens_canonical_runs :
    (built readRun).tokens
        = ["orders:view:～", "orders:view:😀", "scope:all", "scope:own",
          "users:view"]
      ∧ (ofTokens (built readRun).tokens).answer = built readRun
      ∧ (built valueRun).tokens = ["orders:update:a:b", "users:view"]
      ∧ (ofTokens (built valueRun).tokens).answer ≠ built valueRun := by
  obtain ⟨-, -, -, -, -, hread⟩ := tokens_canonical readRun
  obtain ⟨-, -, hhas, -, hback, -⟩ := tokens_canonical valueRun
  refine ⟨by decide +kernel, hread fun p h => by simp [readRun] at h,
    by decide +kernel, fun h => ?_⟩
  have hp : (built valueRun).has (.permission valueOnly) = true :=
    (hhas _).2 ⟨[.tokens ["users:view"]], _, [], rfl, rfl, by simp⟩
  exact (hback.1 h valueOnly hp "a:b" rfl).2.1 (by decide)

end PermissionSet

end WorkRouting
