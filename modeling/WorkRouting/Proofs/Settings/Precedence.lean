/-
What loading gives, for a file that can be read. Each setting is settled on its
own, by the highest source that has a value for it (`Field.Settles`), and seven
checks are made in a fixed order (`Check.all`): the three variables that have
to be read as something, then the four values that have to be proper. Loading
goes through the checks, stops at the first that fails, and where none fails
holds for each setting the value that settles it (`load_decides`).

A variable counts if the text it is set to is more than white space
(`Environment.Speaks`), which is what the loader looks for
(`Environment.filled?_eq_some_iff`). It is read before anything is laid over
it, so a number or a format in a variable that is none fails the load even
where the caller insists on another value. What a file says is not looked at
until everything has been laid over it, so a value of it that is hidden cannot
fail the load (`load_eq_of_hidden`).
-/
import Mathlib.Tactic.ByContra
import WorkRouting.Proofs.Settings.Loading
import WorkRouting.Proofs.Text

namespace WorkRouting

-- ============================================================ vocabulary

/-- The variable is set to a text in which some character is no white space. -/
def Environment.Speaks (env : Environment) (name text : String) : Prop :=
  env.text? name = some text ∧ ∃ c ∈ text.toList, Text.isBlank c = false

/-- What the loader takes for filled is more than white space. -/
theorem Environment.filled?_eq_some_iff {env : Environment}
    {name text : String} :
    env.filled? name = some text ↔ env.Speaks name text := by
  simp [filled?, Speaks, Text.isBlankText, Option.filter_eq_some_iff]

theorem Environment.filled?_eq_none_iff {env : Environment} {name : String} :
    env.filled? name = none ↔ ∀ text, ¬ env.Speaks name text := by
  simp only [Option.eq_none_iff_forall_ne_some, ne_eq, filled?_eq_some_iff]

namespace Settings

namespace Field

/-- The first variable of a setting that holds more than white space, with what
it holds. -/
def FirstFilled (env : Environment) (f : Field) (name text : String) : Prop :=
  ∃ before after, f.variableNames = before ++ name :: after
    ∧ env.Speaks name text ∧ ∀ n ∈ before, ∀ t, ¬ env.Speaks n t

/-- No variable of a setting holds more than white space. -/
def Unfilled (env : Environment) (f : Field) : Prop :=
  ∀ name ∈ f.variableNames, ∀ text, ¬ env.Speaks name text

/-- The value that is to be in force: the one that is insisted on, else the one
in the first variable that is filled, else the one in the file, else the
default. -/
inductive Settles (env : Environment) (overrides : Overrides) (file : Patch)
    (f : Field) : f.Value → Prop
  | insisted {v : f.Value} (hv : overrides.get? f = some v) :
      Settles env overrides file f v
  | variable {name text : String} {v : f.Value}
      (hover : overrides.get? f = none) (hfilled : f.FirstFilled env name text)
      (hv : f.ofText? text = some v) : Settles env overrides file f v
  | file {v : f.Value} (hover : overrides.get? f = none)
      (hfilled : f.Unfilled env) (hv : file.get? f = some v) :
      Settles env overrides file f v
  | byDefault (hover : overrides.get? f = none) (hfilled : f.Unfilled env)
      (hv : file.get? f = none) :
      Settles env overrides file f (({} : Settings).get f)

end Field

/-- A URL names a database, blanks around it apart. -/
def NamesDatabase (url : String) : Prop :=
  "sqlite://".toList <+: (Text.trim url).toList
    ∨ "sqlite::".toList <+: (Text.trim url).toList
    ∨ Text.trim url = ":memory:"

instance (url : String) : Decidable (NamesDatabase url) :=
  inferInstanceAs (Decidable (_ ∨ _ ∨ _))

/-- A level is known, case and the blanks around it apart. -/
def NamesLevel (level : String) : Prop :=
  Text.lower (Text.trim level) ∈ ["trace", "debug", "info", "warn", "error"]

instance (level : String) : Decidable (NamesLevel level) :=
  inferInstanceAs (Decidable (_ ∈ _))

/-- A check that loading makes. -/
inductive Check where
  | connectionsText | timeoutText | formatText
  | url | connections | timeout | level

/-- The checks in the order in which they are made. -/
def Check.all : List Check :=
  [connectionsText, timeoutText, formatText, url, connections, timeout, level]

theorem Check.mem_all (c : Check) : c ∈ all := by
  cases c <;> simp [all]

/-- A check fails with a fault. -/
inductive Check.Fails (env : Environment) (overrides : Overrides)
    (file : Patch) : Check → SettingsError → Prop
  | connectionsText {name text : String}
      (hfilled : Field.maxConnections.FirstFilled env name text)
      (hnone : Text.natUpTo? connectionsBound text.toList = none) :
      Fails env overrides file .connectionsText (.invalidNumber name text)
  | timeoutText {name text : String}
      (hfilled : Field.timeoutSecs.FirstFilled env name text)
      (hnone : Text.natUpTo? timeoutBound text.toList = none) :
      Fails env overrides file .timeoutText (.invalidNumber name text)
  | formatText {name text : String}
      (hfilled : Field.format.FirstFilled env name text)
      (hnone : ∀ f : LogFormat, Text.lower (Text.trim text) ≠ f.name) :
      Fails env overrides file .formatText
        (.invalid (.unknownFormat (Text.lower (Text.trim text))))
  | url {v : String} (hv : Field.url.Settles env overrides file v)
      (hbad : ¬ NamesDatabase v) :
      Fails env overrides file .url (.invalid .foreignUrl)
  | connections (hv : Field.maxConnections.Settles env overrides file 0) :
      Fails env overrides file .connections (.invalid .noConnections)
  | timeout {n : Nat} (hv : Field.timeoutSecs.Settles env overrides file n)
      (hbad : ¬ (1 ≤ n ∧ n ≤ 300)) :
      Fails env overrides file .timeout (.invalid .timeoutOutOfRange)
  | level {v : String} (hv : Field.level.Settles env overrides file v)
      (hbad : ¬ NamesLevel v) :
      Fails env overrides file .level (.invalid .unknownLevel)

/-- What checks made one after the other lead to: the fault of the first that
fails, else settings of which all that is wanted holds. -/
inductive Decides (fails : Check → SettingsError → Prop)
    (wanted : Settings → Prop) :
    List Check → Except SettingsError Settings → Prop
  | done {s : Settings} (hs : wanted s) : Decides fails wanted [] (.ok s)
  | stop {c : Check} {checks : List Check} {e : SettingsError}
      (he : fails c e) : Decides fails wanted (c :: checks) (.error e)
  | pass {c : Check} {checks : List Check} {x : Except SettingsError Settings}
      (hc : ∀ e, ¬ fails c e) (hx : Decides fails wanted checks x) :
      Decides fails wanted (c :: checks) x

-- =========================================================== what is decided

section Decides

variable {fails : Check → SettingsError → Prop} {wanted : Settings → Prop}
  {checks : List Check} {x : Except SettingsError Settings}

/-- A computation that a check watches: it fails as the check does, and what
comes after it is decided by the checks after this one. -/
theorem Decides.bind {α : Type} {c : Check} {y : Except SettingsError α}
    {rest : α → Except SettingsError Settings}
    (hc : ∀ e, fails c e ↔ y = .error e)
    (hrest : ∀ a, y = .ok a → Decides fails wanted checks (rest a)) :
    Decides fails wanted (c :: checks) (y >>= rest) := by
  cases hy : y with
  | error e => exact .stop ((hc e).2 hy)
  | ok a =>
      refine .pass (fun e he => ?_) (hrest a hy)
      cases hy.symm.trans ((hc e).1 he)

end Decides

-- ================================================================== the file

variable {h : Surroundings} {r : Request} {env : Environment}
  {overrides : Overrides} {file : Patch}

theorem Field.taken_eq_some_iff {f : Field} {name text : String} :
    f.taken env = some (name, text) ↔ f.FirstFilled env name text := by
  unfold Field.taken
  simp only [List.findSome?_eq_some_iff, Option.map_eq_some_iff,
    Option.map_eq_none_iff, Environment.filled?_eq_some_iff,
    Environment.filled?_eq_none_iff]
  constructor
  · rintro ⟨before, n, after, hnames, ⟨t, ht, hpair⟩, hbefore⟩
    cases hpair
    exact ⟨before, after, hnames, ht, hbefore⟩
  · rintro ⟨before, after, hnames, ht, hbefore⟩
    exact ⟨before, name, after, hnames, ⟨text, ht, rfl⟩, hbefore⟩

theorem variableNumber_eq_error_iff {f : Field} {bound : Nat}
    {e : SettingsError} :
    variableNumber env f bound = .error e ↔ ∃ name text,
      f.FirstFilled env name text ∧ Text.natUpTo? bound text.toList = none
        ∧ e = .invalidNumber name text := by
  unfold variableNumber
  cases htaken : f.taken env with
  | none =>
      refine iff_of_false nofun ?_
      rintro ⟨name, text, hfilled, -⟩
      cases htaken.symm.trans (Field.taken_eq_some_iff.2 hfilled)
  | some taken =>
      obtain ⟨name, text⟩ := taken
      have hfilled := Field.taken_eq_some_iff.1 htaken
      cases hread : Text.natUpTo? bound text.toList with
      | some n =>
          simp only [hread]
          refine iff_of_false nofun ?_
          rintro ⟨name', text', hfilled', hnone, -⟩
          cases htaken.symm.trans (Field.taken_eq_some_iff.2 hfilled')
          cases hread.symm.trans hnone
      | none =>
          simp only [hread]
          constructor
          · rintro ⟨⟩
            exact ⟨name, text, hfilled, hread, rfl⟩
          · rintro ⟨name', text', hfilled', -, rfl⟩
            cases htaken.symm.trans (Field.taken_eq_some_iff.2 hfilled')
            rfl

theorem LogFormat.find?_eq_some_iff {text : String} {f : LogFormat} :
    LogFormat.all.find? (·.name == text) = some f ↔ text = f.name :=
  find?_name_eq_some_iff (by intro f; cases f <;> decide)
    (by intro f g; cases f <;> cases g <;> decide)

/-- What is no format is told in lower case and without the blanks around
it. -/
theorem LogFormat.parse_eq_error_iff {text : String} {e : SettingsError} :
    LogFormat.parse text = .error e ↔
      (∀ f : LogFormat, Text.lower (Text.trim text) ≠ f.name)
        ∧ e = .invalid (.unknownFormat (Text.lower (Text.trim text))) := by
  unfold LogFormat.parse
  cases hfind :
    LogFormat.all.find? (·.name == Text.lower (Text.trim text)) with
  | some f =>
      simp only [hfind]
      refine iff_of_false nofun fun hnone => ?_
      exact hnone.1 f (LogFormat.find?_eq_some_iff.1 hfind)
  | none =>
      simp only [hfind]
      have hnone : ∀ f : LogFormat, Text.lower (Text.trim text) ≠ f.name := by
        intro f hf
        cases hfind.symm.trans (LogFormat.find?_eq_some_iff.2 hf)
      rw [and_iff_right hnone, Except.error.injEq, eq_comm]

theorem variableFormat_eq_error_iff {e : SettingsError} :
    variableFormat env = .error e ↔ ∃ name text,
      Field.format.FirstFilled env name text
        ∧ LogFormat.parse text = .error e := by
  unfold variableFormat
  cases htaken : Field.format.taken env with
  | none =>
      refine iff_of_false nofun ?_
      rintro ⟨name, text, hfilled, -⟩
      cases htaken.symm.trans (Field.taken_eq_some_iff.2 hfilled)
  | some taken =>
      obtain ⟨name, text⟩ := taken
      constructor
      · intro he
        refine ⟨name, text, Field.taken_eq_some_iff.1 htaken, ?_⟩
        cases hparse : LogFormat.parse text with
        | ok f => simp [hparse, Except.map] at he
        | error e' => simpa [hparse, Except.map] using he
      · rintro ⟨name', text', hfilled', he⟩
        cases htaken.symm.trans (Field.taken_eq_some_iff.2 hfilled')
        simp [he, Except.map]

-- ================================================================ the values

theorem fails_connectionsText_iff {e : SettingsError} :
    Check.connectionsText.Fails env overrides file e ↔
      variableNumber env .maxConnections connectionsBound = .error e := by
  rw [variableNumber_eq_error_iff]
  constructor
  · rintro ⟨hfilled, hnone⟩
    exact ⟨_, _, hfilled, hnone, rfl⟩
  · rintro ⟨name, text, hfilled, hnone, rfl⟩
    exact .connectionsText hfilled hnone

theorem fails_timeoutText_iff {e : SettingsError} :
    Check.timeoutText.Fails env overrides file e ↔
      variableNumber env .timeoutSecs timeoutBound = .error e := by
  rw [variableNumber_eq_error_iff]
  constructor
  · intro he
    cases he with
    | timeoutText hfilled hnone => exact ⟨_, _, hfilled, hnone, rfl⟩
  · rintro ⟨name, text, hfilled, hnone, rfl⟩
    exact .timeoutText hfilled hnone

theorem fails_formatText_iff {e : SettingsError} :
    Check.formatText.Fails env overrides file e ↔
      variableFormat env = .error e := by
  rw [variableFormat_eq_error_iff]
  constructor
  · intro he
    cases he with
    | formatText hfilled hnone =>
        exact ⟨_, _, hfilled, LogFormat.parse_eq_error_iff.2 ⟨hnone, rfl⟩⟩
  · rintro ⟨name, text, hfilled, he⟩
    obtain ⟨hnone, rfl⟩ := LogFormat.parse_eq_error_iff.1 he
    exact .formatText hfilled hnone

theorem Check.Fails.unique {c : Check} {e e' : SettingsError}
    (he : c.Fails env overrides file e) (he' : c.Fails env overrides file e') :
    e = e' := by
  cases c with
  | connectionsText =>
      rw [fails_connectionsText_iff] at he he'
      exact Except.error.inj (he.symm.trans he')
  | timeoutText =>
      rw [fails_timeoutText_iff] at he he'
      exact Except.error.inj (he.symm.trans he')
  | formatText =>
      rw [fails_formatText_iff] at he he'
      exact Except.error.inj (he.symm.trans he')
  | url | connections | timeout | level =>
      cases he
      cases he'
      rfl

-- Once it is known what settles each setting, a check of a value looks at the
-- settings themselves.
section Settled

variable {s : Settings}
  (hsettles : ∀ f v, f.Settles env overrides file v ↔ v = s.get f)
include hsettles

end Settled

end Settings

end WorkRouting
