/-
What loading settles, setting by setting: the value that is insisted on, else
the one in a variable, else the one in the file, else the default. The five
settings hold different kinds of values, so a setting comes with the type of
what it holds, and each source is asked for the value of a setting; one
statement then serves all five.
-/
import WorkRouting.Settings.Load
import WorkRouting.Proofs.Except

namespace WorkRouting

-- ================================================== placeholders

/-- Nothing is filled in where no placeholder opens. -/
theorem Environment.interpolate_eq_self {value : String → Option String}
    {cs : List Char} (h : ¬ ['$', '\x7b'] <:+: cs) :
    interpolate value cs = .ok cs := by
  fun_induction interpolate value cs with
  | case1 => rfl
  | case2 rest | case3 rest | case4 rest =>
      exact absurd (List.infix_append' [] ['$', '\x7b'] rest) h
  | case5 c rest _ ih =>
      have hrest : ¬ ['$', '\x7b'] <:+: rest :=
        fun hin => h (hin.trans (List.suffix_cons c rest).isInfix)
      rw [ih hrest]
      rfl

theorem Environment.fill_eq_self {env : Environment} {text : String}
    (h : ¬ ['$', '\x7b'] <:+: text.toList) : env.fill text = .ok text := by
  rw [fill, interpolate_eq_self h]
  exact congrArg Except.ok (String.ofList_toList)

-- ================================================== documents

namespace Toml

/-- Something stands at the end of a path: a value under its last key, or,
where a table with that key could be, an array, which gives all fields of a
record in their order. -/
def supplies (v : Toml) (path : List String) : Bool :=
  (v.at? path).isSome ||
    match v.at? path.dropLast with
    | some (array _ _) => true
    | _ => false

theorem supplies_cons (v : Toml) (key name : String) (path : List String) :
    v.supplies (key :: name :: path)
      = (v.get? key).any (·.supplies (name :: path)) := by
  simp only [supplies, at?, List.dropLast_cons_cons]
  cases v.get? key with
  | none => rfl
  | some w => rfl

theorem supplies_eq_isSome {v : Toml} {path : List String}
    (h : ∀ byHeaders items,
      v.at? path.dropLast ≠ some (array byHeaders items)) :
    v.supplies path = (v.at? path).isSome := by
  unfold supplies
  split
  · next byHeaders items harray => exact absurd harray (h byHeaders items)
  · exact Bool.or_false _

/-- The fields of a record that are there are those that the value supplies. -/
theorem map_isSome_of_record {names : List String} {v : Toml}
    {fields : List (Option Toml)} (h : record names v = some fields) :
    fields.map (·.isSome) = names.map (v.supplies [·]) := by
  cases v with
  | table origin entries =>
      cases h
      rw [List.map_map]
      refine List.map_congr_left fun name _ => ?_
      simp only [Function.comp_apply, supplies, at?, get?,
        List.dropLast_singleton, Option.bind_fun_some, Bool.or_false]
  | array byHeaders items =>
      obtain ⟨hlength, hfields⟩ := Option.ite_none_right_eq_some.1 h
      cases hfields
      rw [List.map_map]
      -- as many items as names, and each of them is there
      refine List.ext_getElem ?_ fun i _ _ => ?_
      · rw [List.length_map, List.length_map, List.length_take]
        exact Nat.min_eq_left hlength
      · simp only [List.getElem_map, Function.comp_apply, Option.isSome_some,
          supplies, at?, List.dropLast_singleton, Bool.or_true]
  | datetime literal =>
      cases h
      rw [List.map_map]
      exact List.map_congr_left fun name _ => rfl
  | string _ | integer _ | float _ | boolean _ => cases h

theorem isSome_of_optional {α : Type} {read : Toml → Option α}
    {field : Option Toml} {found : Option α}
    (h : optional read field = some found) : found.isSome = field.isSome := by
  cases field with
  | none =>
      cases h
      rfl
  | some v =>
      obtain ⟨x, -, hx⟩ := Option.map_eq_some_iff.1 h
      cases hx
      rfl

end Toml

namespace Settings

-- ================================================== values by setting

/-- What a setting holds. -/
abbrev Field.Value : Field → Type
  | .url => String
  | .maxConnections => Nat
  | .timeoutSecs => Nat
  | .level => String
  | .format => LogFormat

/-- The value of a setting. -/
def get (s : Settings) : (f : Field) → f.Value
  | .url => s.url
  | .maxConnections => s.maxConnections
  | .timeoutSecs => s.timeoutSecs
  | .level => s.level
  | .format => s.format

/-- The value that a patch has for a setting, if it has one. -/
def Patch.get? (p : Patch) : (f : Field) → Option f.Value
  | .url => p.url
  | .maxConnections => p.maxConnections
  | .timeoutSecs => p.timeoutSecs
  | .level => p.level
  | .format => p.format

@[simp] theorem Patch.get?_empty (f : Field) : ({} : Patch).get? f = none := by
  cases f <;> rfl

/-- The value of a setting that the caller insists on, where that can be and is
so. -/
def Overrides.get? (o : Overrides) : (f : Field) → Option f.Value
  | .url => o.url
  | .maxConnections => none
  | .timeoutSecs => none
  | .level => o.level
  | .format => o.format

@[simp] theorem Overrides.get?_empty (f : Field) :
    ({} : Overrides).get? f = none := by
  cases f <;> rfl

/-- The value that the text of a variable is for a setting. -/
def Field.ofText? : (f : Field) → String → Option f.Value
  | .url, text => some text
  | .maxConnections, text => Text.natUpTo? connectionsBound text.toList
  | .timeoutSecs, text => Text.natUpTo? timeoutBound text.toList
  | .level, text => some text
  | .format, text => (LogFormat.parse text).toOption

theorem get_patched (s : Settings) (p : Patch) (f : Field) :
    (s.patched p).get f = (p.get? f).getD (s.get f) := by
  cases f <;> rfl

theorem get_overridden (s : Settings) (o : Overrides) (f : Field) :
    (s.overridden o).get f = (o.get? f).getD (s.get f) := by
  cases f <;> rfl

-- ================================================== what variables say

variable {env : Environment} {f : Field} {name text : String}

/-- The variable that a value is taken from is one of the setting's own. -/
theorem Field.filled_of_taken (h : f.taken env = some (name, text)) :
    name ∈ f.variableNames ∧ env.filled? name = some text := by
  obtain ⟨n, hn, hfound⟩ := List.exists_of_findSome?_eq_some h
  obtain ⟨t, ht, hpair⟩ := Option.map_eq_some_iff.1 hfound
  cases hpair
  exact ⟨hn, ht⟩

theorem Field.taken_eq_none_iff :
    f.taken env = none
      ↔ ∀ name ∈ f.variableNames, env.filled? name = none := by
  simp only [Field.taken, List.findSome?_eq_none_iff, Option.map_eq_none_iff]

/-- What is found for a setting is what the text taken from a variable stands
for, and a text that stands for nothing is not taken. -/
def Reads {α : Type} (read : String → Option α)
    (taken : Option (String × String)) (found : Option α) : Prop :=
  match taken with
  | none => found = none
  | some (_, text) => ∃ v, read text = some v ∧ found = some v

theorem reads_variableNumber {bound : Nat} {found : Option Nat}
    (h : variableNumber env f bound = .ok found) :
    Reads (fun text => Text.natUpTo? bound text.toList) (f.taken env)
      found := by
  unfold variableNumber at h
  cases htaken : f.taken env with
  | none =>
      rw [htaken] at h
      cases h
      rfl
  | some taken =>
      obtain ⟨name, text⟩ := taken
      rw [htaken] at h
      cases hread : Text.natUpTo? bound text.toList with
      | none =>
          simp only [hread] at h
          cases h
      | some n =>
          simp only [hread] at h
          cases h
          exact ⟨n, hread, rfl⟩

theorem reads_variableFormat {found : Option LogFormat}
    (h : variableFormat env = .ok found) :
    Reads (Field.ofText? .format) (Field.format.taken env) found := by
  unfold variableFormat at h
  cases htaken : Field.format.taken env with
  | none =>
      rw [htaken] at h
      cases h
      rfl
  | some taken =>
      obtain ⟨name, text⟩ := taken
      rw [htaken] at h
      obtain ⟨v, hv, hfound⟩ := map_eq_ok_iff.1 h
      have hread : Field.ofText? .format text = some v := by
        rw [Field.ofText?, hv]
        rfl
      exact ⟨v, hread, hfound.symm⟩

theorem reads_text (taken : Option (String × String)) :
    Reads some taken (taken.map (·.2)) := by
  cases taken with
  | none => rfl
  | some taken => exact ⟨taken.2, rfl, rfl⟩

/-- The variables say for each setting what the text taken from one of them
is. -/
theorem reads_variablePatch {vars : Patch} (h : variablePatch env = .ok vars)
    (f : Field) : Reads f.ofText? (f.taken env) (vars.get? f) := by
  obtain ⟨maxConnections, hmax, h⟩ := bind_eq_ok_iff.1 h
  obtain ⟨timeoutSecs, htime, h⟩ := bind_eq_ok_iff.1 h
  obtain ⟨format, hformat, h⟩ := bind_eq_ok_iff.1 h
  cases h
  cases f with
  | url => exact reads_text (Field.url.taken env)
  | maxConnections => exact reads_variableNumber hmax
  | timeoutSecs => exact reads_variableNumber htime
  | level => exact reads_text (Field.level.taken env)
  | format => exact reads_variableFormat hformat

-- ================================================== what a document says

/-- A section has a value for a setting where it supplies the setting's key. -/
theorem isSome_get?_section {read : Toml → Option Patch} {field : Option Toml}
    {found : Option Patch} {f : Field} {name : String}
    (h : Toml.optional read field = some found)
    (hread : ∀ v p, read v = some p →
      (p.get? f).isSome = v.supplies [name]) :
    ((found.getD {}).get? f).isSome = field.any (·.supplies [name]) := by
  cases field with
  | none =>
      cases h
      rw [Option.getD_none, Patch.get?_empty]
      rfl
  | some v =>
      obtain ⟨p, hp, hfound⟩ := Option.map_eq_some_iff.1 h
      cases hfound
      exact hread v p hp

theorem isSome_of_database? {v : Toml} {p : Patch}
    (h : Patch.database? v = some p) :
    p.url.isSome = v.supplies ["url"]
      ∧ p.maxConnections.isSome = v.supplies ["max_connections"]
      ∧ p.timeoutSecs.isSome = v.supplies ["timeout_secs"] := by
  obtain ⟨fields, hfields, h⟩ := Option.bind_eq_some_iff.1 h
  have hsupplied := Toml.map_isSome_of_record hfields
  split at h
  · next url maxConnections timeoutSecs =>
    obtain ⟨url', hurl, h⟩ := Option.bind_eq_some_iff.1 h
    obtain ⟨maxConnections', hmax, h⟩ := Option.bind_eq_some_iff.1 h
    obtain ⟨timeoutSecs', htime, h⟩ := Option.bind_eq_some_iff.1 h
    cases h
    simp only [List.map_cons, List.map_nil, List.cons.injEq] at hsupplied
    obtain ⟨hs₁, hs₂, hs₃, -⟩ := hsupplied
    exact ⟨(Toml.isSome_of_optional hurl).trans hs₁,
      (Toml.isSome_of_optional hmax).trans hs₂,
      (Toml.isSome_of_optional htime).trans hs₃⟩
  · cases h

theorem isSome_of_logging? {v : Toml} {p : Patch}
    (h : Patch.logging? v = some p) :
    p.level.isSome = v.supplies ["level"]
      ∧ p.format.isSome = v.supplies ["format"] := by
  obtain ⟨fields, hfields, h⟩ := Option.bind_eq_some_iff.1 h
  have hsupplied := Toml.map_isSome_of_record hfields
  split at h
  · next level format =>
    obtain ⟨level', hlevel, h⟩ := Option.bind_eq_some_iff.1 h
    obtain ⟨format', hformat, h⟩ := Option.bind_eq_some_iff.1 h
    cases h
    simp only [List.map_cons, List.map_nil, List.cons.injEq] at hsupplied
    obtain ⟨hs₁, hs₂, -⟩ := hsupplied
    exact ⟨(Toml.isSome_of_optional hlevel).trans hs₁,
      (Toml.isSome_of_optional hformat).trans hs₂⟩
  · cases h

/-- A document says something about the settings whose paths it supplies, and
about no others. -/
theorem isSome_get?_ofToml? {origin : Toml.Origin} {entries : Toml.Entries}
    {p : Patch} (h : Patch.ofToml? (.table origin entries) = some p)
    (f : Field) :
    (p.get? f).isSome = (Toml.table origin entries).supplies f.path := by
  obtain ⟨d, hd, h⟩ := Option.bind_eq_some_iff.1 h
  obtain ⟨l, hl, h⟩ := Option.bind_eq_some_iff.1 h
  cases h
  cases f with
  | url =>
      rw [Field.path, Toml.supplies_cons]
      exact isSome_get?_section hd fun _ _ hp => (isSome_of_database? hp).1
  | maxConnections =>
      rw [Field.path, Toml.supplies_cons]
      exact isSome_get?_section hd fun _ _ hp => (isSome_of_database? hp).2.1
  | timeoutSecs =>
      rw [Field.path, Toml.supplies_cons]
      exact isSome_get?_section hd fun _ _ hp => (isSome_of_database? hp).2.2
  | level =>
      rw [Field.path, Toml.supplies_cons]
      exact isSome_get?_section hl fun _ _ hp => (isSome_of_logging? hp).1
  | format =>
      rw [Field.path, Toml.supplies_cons]
      exact isSome_get?_section hl fun _ _ hp => (isSome_of_logging? hp).2

-- ================================================== loading

variable {h : Surroundings} {r : Request} {s : Settings}

/-- Loading succeeds with the defaults under two patches and the overrides,
where both the file and the variables can be read and the outcome is valid. -/
theorem load_eq_ok_iff :
    load h r = .ok s ↔ ∃ file vars, requestedPatch h r = .ok file
      ∧ variablePatch h.env = .ok vars
      ∧ s = ((patched {} file).patched vars).overridden r.overrides
      ∧ s.validate = .ok () := by
  constructor
  · intro hload
    obtain ⟨file, hfile, hload⟩ := bind_eq_ok_iff.1 hload
    obtain ⟨vars, hvars, hload⟩ := bind_eq_ok_iff.1 hload
    obtain ⟨hvalid, hs⟩ := check_eq_ok_iff.1 hload
    cases hs
    exact ⟨file, vars, hfile, hvars, rfl, hvalid⟩
  · rintro ⟨file, vars, hfile, hvars, hs, hvalid⟩
    subst hs
    exact bind_eq_ok_iff.2 ⟨file, hfile, bind_eq_ok_iff.2 ⟨vars, hvars,
      check_eq_ok_iff.2 ⟨hvalid, rfl⟩⟩⟩

theorem fileText_eq_ok_iff {path text : String} :
    fileText h path = .ok text ↔ h.file path = .text text := by
  unfold fileText
  cases h.file path with
  | text t => rw [Except.ok.injEq, FileContent.text.injEq]
  | folder | notText | absent => exact ⟨nofun, nofun⟩

/-- A file that is asked for speaks where one is there. -/
theorem filePatch_of_requestedPatch {p : Patch}
    (hp : requestedPatch h r = .ok p) :
    (filePath? h r.path = none ∧ p = {})
      ∨ ∃ path, filePath? h r.path = some path ∧ filePatch h path = .ok p := by
  unfold requestedPatch at hp
  cases hpath : filePath? h r.path with
  | none =>
      simp only [hpath] at hp
      split at hp
      · cases hp
      · cases hp
        exact .inl ⟨rfl, rfl⟩
  | some path =>
      rw [hpath] at hp
      exact .inr ⟨path, rfl, hp⟩

/-- Which value is in force: that of the highest source that has one. -/
theorem exists_get_of_load (hload : load h r = .ok s) :
    ∃ file vars, requestedPatch h r = .ok file ∧ variablePatch h.env = .ok vars
      ∧ ∀ f, s.get f = (r.overrides.get? f).getD
          ((vars.get? f).getD
            ((file.get? f).getD (({} : Settings).get f))) := by
  obtain ⟨file, vars, hfile, hvars, rfl, -⟩ := load_eq_ok_iff.1 hload
  refine ⟨file, vars, hfile, hvars, fun f => ?_⟩
  rw [get_overridden, get_patched, get_patched]

/-- Where nothing is insisted on and a variable serves, its text is the value
in force. -/
theorem ofText?_of_taken (hload : load h {} = .ok s)
    (htaken : f.taken h.env = some (name, text)) :
    f.ofText? text = some (s.get f) := by
  obtain ⟨file, vars, -, hvars, hget⟩ := exists_get_of_load hload
  have hreads := reads_variablePatch hvars f
  rw [htaken] at hreads
  obtain ⟨v, hv, hfound⟩ := hreads
  rw [hget f, Overrides.get?_empty, Option.getD_none, hfound,
    Option.getD_some, hv]

/-- Where no variable serves either, the value is that of the file or the
default. -/
theorem get_of_not_taken (hload : load h {} = .ok s)
    (htaken : f.taken h.env = none) :
    ∃ file, requestedPatch h {} = .ok file
      ∧ s.get f = (file.get? f).getD (({} : Settings).get f) := by
  obtain ⟨file, vars, hfile, hvars, hget⟩ := exists_get_of_load hload
  have hreads := reads_variablePatch hvars f
  rw [htaken] at hreads
  have hnone : vars.get? f = none := hreads
  refine ⟨file, hfile, ?_⟩
  rw [hget f, Overrides.get?_empty, Option.getD_none, hnone, Option.getD_none]

end Settings

end WorkRouting
