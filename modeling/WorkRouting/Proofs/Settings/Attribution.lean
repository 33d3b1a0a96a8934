/-
Whether the report is right about where the settings come from. Loading and the
report look at the same surroundings in two ways. Loading passes over a
variable without text, or with nothing but blanks in it, and fills the
placeholders of a file before reading it; the report stops at the first
variable that is set at all, and reads the file as it stands.

The place that a value is taken from is unique (`exists_takenFrom`), and the
report names it exactly where the two ways come to the same
(`takenFrom_source_iff`). They do where no variable of the setting is set
without saying anything, the file has no placeholder, and its sections are
tables (`takenFrom_source`).
-/
import WorkRouting.Settings.Report
import WorkRouting.Proofs.Settings.Loading

namespace WorkRouting.Settings

variable {h : Surroundings} {s : Settings} {f : Field}

-- =============================================== the file as loading reads it

/-- A file as a document, placeholders filled. -/
def filledDocument (h : Surroundings) (path : String) : Option Toml :=
  match h.file path with
  | .text s => (h.env.fill s).toOption.bind Toml.read
  | _ => none

/-- The file that is there has something for the setting when its placeholders
are filled. -/
def Field.InFile (h : Surroundings) (f : Field) : Prop :=
  ∃ path v, filePath? h none = some path ∧ filledDocument h path = some v
    ∧ v.supplies f.path

theorem filledDocument_of_text {path text filled : String}
    (htext : h.file path = .text text) (hfill : h.env.fill text = .ok filled) :
    filledDocument h path = Toml.read filled := by
  unfold filledDocument
  rw [htext]
  simp only [hfill, Except.toOption, Option.bind_some]

/-- Without a placeholder there is only one way to read a file. -/
theorem filledDocument_eq_plain {path : String}
    (hplain : ∀ text, h.file path = .text text →
      ¬ ['$', '\x7b'] <:+: text.toList) :
    filledDocument h path = plainDocument h path := by
  unfold plainDocument
  cases hfile : h.file path with
  | text text =>
      exact filledDocument_of_text hfile
        (Environment.fill_eq_self (hplain text hfile))
  | folder | notText | absent =>
      unfold filledDocument
      rw [hfile]

/-- What a file says is what its document says. -/
theorem exists_document_of_filePatch {path : String} {p : Patch}
    (hp : filePatch h path = .ok p) :
    ∃ v, filledDocument h path = some v
      ∧ ∀ f, (p.get? f).isSome = v.supplies f.path := by
  obtain ⟨text, htext, hp⟩ := bind_eq_ok_iff.1 hp
  obtain ⟨filled, hfill, hp⟩ := bind_eq_ok_iff.1 hp
  split at hp
  · next q hq =>
    cases hp
    obtain ⟨v, hv, hof⟩ := Option.bind_eq_some_iff.1 hq
    have hdocument := filledDocument_of_text (fileText_eq_ok_iff.1 htext) hfill
    refine ⟨v, hdocument.trans hv, fun f => ?_⟩
    obtain ⟨d, -, hd⟩ := Option.map_eq_some_iff.1 hv
    subst hd
    exact isSome_get?_ofToml? hof f
  · cases hp

theorem inFile_iff_of_filePatch {path : String} {p : Patch}
    (hpath : filePath? h none = some path) (hp : filePatch h path = .ok p) :
    f.InFile h ↔ (p.get? f).isSome := by
  obtain ⟨v, hv, hsupplies⟩ := exists_document_of_filePatch hp
  rw [hsupplies f]
  constructor
  · rintro ⟨path', v', hpath', hv', hf⟩
    cases hpath.symm.trans hpath'
    cases hv.symm.trans hv'
    exact hf
  · intro hf
    exact ⟨path, v, hpath, hv, hf⟩

-- ================================================== where values come from

/-- The place that the value in force is taken from: the first variable of the
setting that has more than blanks in it, else the file that is there, if it
says something, else the program itself. -/
inductive Field.TakenFrom (h : Surroundings) (s : Settings) (f : Field) :
    Source → Prop
  | ofVariable {name text : String}
      (htaken : f.taken h.env = some (name, text))
      (hvalue : f.ofText? text = some (s.get f)) :
      TakenFrom h s f (.variable name)
  | ofFile {path : String} {p : Patch} (htaken : f.taken h.env = none)
      (hpath : filePath? h none = some path) (hp : filePatch h path = .ok p)
      (hvalue : p.get? f = some (s.get f)) : TakenFrom h s f (.file path)
  | ofDefault (htaken : f.taken h.env = none)
      (hsilent : ∀ path p, filePath? h none = some path →
        filePatch h path = .ok p → p.get? f = none)
      (hvalue : s.get f = ({} : Settings).get f) : TakenFrom h s f .builtin

theorem Field.TakenFrom.unique {x y : Source} (hx : f.TakenFrom h s x)
    (hy : f.TakenFrom h s y) : x = y := by
  cases hx with
  | ofVariable htaken hvalue =>
      cases hy with
      | ofVariable htaken' _ =>
          cases htaken.symm.trans htaken'
          rfl
      | ofFile htaken' | ofDefault htaken' => cases htaken.symm.trans htaken'
  | ofFile htaken hpath hp hvalue =>
      cases hy with
      | ofVariable htaken' _ => cases htaken.symm.trans htaken'
      | ofFile _ hpath' =>
          cases hpath.symm.trans hpath'
          rfl
      | ofDefault _ hsilent => cases hvalue.symm.trans (hsilent _ _ hpath hp)
  | ofDefault htaken hsilent hvalue =>
      cases hy with
      | ofVariable htaken' _ => cases htaken.symm.trans htaken'
      | ofFile _ hpath hp hvalue' =>
          cases hvalue'.symm.trans (hsilent _ _ hpath hp)
      | ofDefault => rfl

-- Loading pins down what each of the places stands for.
section Loaded

variable (hload : load h {} = .ok s)
include hload

theorem Field.takenFrom_variable_iff {name : String} :
    f.TakenFrom h s (.variable name)
      ↔ ∃ text, f.taken h.env = some (name, text) := by
  constructor
  · rintro ⟨htaken, -⟩
    exact ⟨_, htaken⟩
  · rintro ⟨text, htaken⟩
    exact .ofVariable htaken (ofText?_of_taken hload htaken)

/-- Where no variable serves, either the file says what is in force, or it says
nothing and the default is. -/
theorem Field.takenFrom_of_not_taken (htaken : f.taken h.env = none) :
    (f.InFile h ∧ ∃ path, filePath? h none = some path
        ∧ f.TakenFrom h s (.file path))
      ∨ (¬ f.InFile h ∧ f.TakenFrom h s .builtin) := by
  obtain ⟨file, hfile, hget⟩ := get_of_not_taken hload htaken
  obtain ⟨hpath, hempty⟩ | ⟨path, hpath, hp⟩ :=
    filePatch_of_requestedPatch hfile
  · rw [hempty, Patch.get?_empty, Option.getD_none] at hget
    have hsilent : ∀ path, filePath? h none ≠ some path := by
      intro path hpath'
      cases hpath.symm.trans hpath'
    refine .inr ⟨?_, .ofDefault htaken
      (fun path _ hpath' _ => absurd hpath' (hsilent path)) hget⟩
    rintro ⟨path, -, hpath', -⟩
    exact hsilent path hpath'
  · cases hvalue : file.get? f with
    | some v =>
        rw [hvalue, Option.getD_some] at hget
        rw [← hget] at hvalue
        refine .inl ⟨?_, path, hpath, .ofFile htaken hpath hp hvalue⟩
        rw [inFile_iff_of_filePatch hpath hp, hvalue]
        rfl
    | none =>
        rw [hvalue, Option.getD_none] at hget
        refine .inr
          ⟨?_, .ofDefault htaken (fun path' p' hpath' hp' => ?_) hget⟩
        · rw [inFile_iff_of_filePatch hpath hp, hvalue]
          exact Bool.false_ne_true
        · cases hpath.symm.trans hpath'
          cases hp.symm.trans hp'
          exact hvalue

/-- The value of each setting is taken from one place. -/
theorem Field.exists_takenFrom (f : Field) : ∃ x, f.TakenFrom h s x := by
  cases htaken : f.taken h.env with
  | some taken =>
      exact ⟨_, (takenFrom_variable_iff hload).2 ⟨taken.2, htaken⟩⟩
  | none =>
      obtain ⟨-, path, -, hx⟩ | ⟨-, hx⟩ := takenFrom_of_not_taken hload htaken
      · exact ⟨_, hx⟩
      · exact ⟨_, hx⟩

end Loaded

-- ================================================== what the report looks at

/-- A variable that is not set has nothing in it. -/
theorem filled?_of_not_isSet {env : Environment} {name : String}
    (hset : env.isSet name = false) : env.filled? name = none := by
  rw [Environment.isSet, Option.isSome_eq_false_iff,
    Option.isNone_iff_eq_none] at hset
  rw [Environment.filled?, Environment.text?, hset]
  rfl

/-- Where the report stops at a variable, the value is taken from that variable
just if there is more than blanks in it. -/
theorem Field.exists_taken_iff_of_isSet {env : Environment} {name : String}
    (hname : f.variableNames.find? env.isSet = some name) :
    (∃ text, f.taken env = some (name, text)) ↔ (env.filled? name).isSome := by
  constructor
  · rintro ⟨text, htaken⟩
    rw [(filled_of_taken htaken).2]
    rfl
  · intro hfilled
    obtain ⟨text, htext⟩ := Option.isSome_iff_exists.1 hfilled
    obtain ⟨-, before, after, hnames, hbefore⟩ :=
      List.find?_eq_some_iff_append.1 hname
    refine ⟨text, ?_⟩
    -- the names before the one that is set have nothing in them
    have hskip : before.findSome?
        (fun n => (env.filled? n).map (n, ·)) = none := by
      rw [List.findSome?_eq_none_iff]
      intro n hn
      rw [filled?_of_not_isSet (by simpa using hbefore n hn)]
      rfl
    rw [taken, hnames, List.findSome?_append, hskip, List.findSome?_cons,
      htext]
    rfl

theorem Field.taken_of_not_isSet {env : Environment}
    (hnone : f.variableNames.find? env.isSet = none) : f.taken env = none := by
  rw [taken_eq_none_iff]
  intro name hname
  have hset := List.find?_eq_none.1 hnone name hname
  exact filled?_of_not_isSet (by simpa using hset)

theorem Field.fileSource?_eq_some_iff {path : String} :
    f.fileSource? h = some path ↔ filePath? h none = some path
      ∧ ∃ v, plainDocument h path = some v ∧ (v.at? f.path).isSome := by
  unfold fileSource?
  constructor
  · intro hsource
    obtain ⟨path', hpath, hsource⟩ := Option.bind_eq_some_iff.1 hsource
    obtain ⟨v, hv, hsource⟩ := Option.bind_eq_some_iff.1 hsource
    obtain ⟨hkey, hsource⟩ := Option.ite_none_right_eq_some.1 hsource
    cases hsource
    exact ⟨hpath, v, hv, hkey⟩
  · rintro ⟨hpath, v, hv, hkey⟩
    exact Option.bind_eq_some_iff.2 ⟨path, hpath,
      Option.bind_eq_some_iff.2 ⟨v, hv, if_pos hkey⟩⟩

-- ================================================== the lines of the report

theorem Source.toList_render (x : Source) :
    x.render.toList = match x with
      | .variable name => "env (".toList ++ name.toList ++ [')']
      | .file path => "file (".toList ++ path.toList ++ [')']
      | .builtin => "default".toList := by
  match x with
  | .variable name =>
      change ("env (" ++ name ++ ")").toList = _
      rw [String.toList_append, String.toList_append]
      rfl
  | .file path =>
      change ("file (" ++ path ++ ")").toList = _
      rw [String.toList_append, String.toList_append]
      rfl
  | .builtin => rfl

/-- No two places are shown alike. -/
theorem Source.render_injective {x y : Source} (hxy : x.render = y.render) :
    x = y := by
  have hlist := congrArg String.toList hxy
  rw [toList_render, toList_render] at hlist
  cases x <;> cases y <;> simp_all [String.toList_inj]

/-- The line about a setting that names a place. -/
def Field.lineNaming (s : Settings) (f : Field) (x : Source) : String :=
  let key := String.intercalate "." f.path
  s!"- {key} = {f.text s} (source: {x.render})"

/-- The line in the report names the place that the report has found, and no
other. -/
theorem Field.line_eq_lineNaming_iff {x : Source} :
    f.line h s = f.lineNaming s x ↔ f.source h = x := by
  constructor
  · intro hline
    simp only [line, lineNaming, String.append_left_inj,
      String.append_right_inj] at hline
    exact Source.render_injective hline
  · rintro rfl
    rfl

-- ================================================== when the report is right

/-- The report is right about a setting exactly in these surroundings: the
variable that it stops at holds more than blanks, and where it stops at none,
the file has the setting's key as it stands just if it has something for the
setting once its placeholders are filled. -/
theorem Field.takenFrom_source_iff (hload : load h {} = .ok s) (f : Field) :
    f.TakenFrom h s (f.source h) ↔
      (∀ name, f.variableNames.find? h.env.isSet = some name →
          (h.env.filled? name).isSome)
        ∧ (f.variableNames.find? h.env.isSet = none →
          ((f.fileSource? h).isSome ↔ f.InFile h)) := by
  cases hset : f.variableNames.find? h.env.isSet with
  | some name =>
      have hsource : f.source h = .variable name := by
        simp only [source, hset]
      rw [hsource, takenFrom_variable_iff hload,
        exists_taken_iff_of_isSet hset]
      constructor
      · intro hfilled
        refine ⟨fun name' hname' => ?_, nofun⟩
        cases hname'
        exact hfilled
      · rintro ⟨hfilled, -⟩
        exact hfilled name rfl
  | none =>
      have htruth := takenFrom_of_not_taken hload (taken_of_not_isSet hset)
      suffices f.TakenFrom h s (f.source h)
          ↔ ((f.fileSource? h).isSome ↔ f.InFile h) from
        ⟨fun hx => ⟨nofun, fun _ => this.1 hx⟩, fun hx => this.2 (hx.2 rfl)⟩
      cases hfile : f.fileSource? h with
      | some path =>
          have hsource : f.source h = .file path := by
            simp only [source, hset, hfile]
          obtain ⟨hpath, -⟩ := fileSource?_eq_some_iff.1 hfile
          rw [hsource]
          obtain ⟨hin, path', hpath', hx⟩ | ⟨hout, hx⟩ := htruth
          · cases hpath.symm.trans hpath'
            exact iff_of_true hx (iff_of_true rfl hin)
          · refine iff_of_false (fun hy => ?_) fun hiff => hout (hiff.1 rfl)
            cases hx.unique hy
      | none =>
          have hsource : f.source h = .builtin := by
            simp only [source, hset, hfile]
          rw [hsource]
          obtain ⟨hin, path', -, hx⟩ | ⟨hout, hx⟩ := htruth
          · refine iff_of_false (fun hy => ?_) fun hiff => ?_
            · cases hx.unique hy
            · cases hiff.2 hin
          · exact iff_of_true hx (iff_of_false Bool.false_ne_true hout)

/-- The report is right wherever no variable of the setting is set without
anything in it, and the file that is there opens no placeholder and has no
array for a section. -/
theorem Field.takenFrom_source (hload : load h {} = .ok s)
    (hfilled : ∀ name ∈ f.variableNames, h.env.isSet name →
      (h.env.filled? name).isSome)
    (hplain : ∀ path text, filePath? h none = some path →
      h.file path = .text text → ¬ ['$', '\x7b'] <:+: text.toList)
    (htables : ∀ path v byHeaders items, filePath? h none = some path →
      plainDocument h path = some v →
      v.at? f.path.dropLast ≠ some (.array byHeaders items)) :
    f.TakenFrom h s (f.source h) := by
  rw [takenFrom_source_iff hload f]
  refine ⟨fun name hname => ?_, fun _ => ?_⟩
  · exact hfilled name (List.mem_of_find?_eq_some hname)
      (List.find?_some hname)
  · rw [Option.isSome_iff_exists]
    constructor
    · rintro ⟨path, hsource⟩
      obtain ⟨hpath, v, hv, hkey⟩ := fileSource?_eq_some_iff.1 hsource
      refine ⟨path, v, hpath, ?_, ?_⟩
      · rw [filledDocument_eq_plain fun text => hplain path text hpath, hv]
      · rw [Toml.supplies_eq_isSome (htables path v · · hpath hv)]
        exact hkey
    · rintro ⟨path, v, hpath, hv, hsupplies⟩
      rw [filledDocument_eq_plain fun text => hplain path text hpath] at hv
      rw [Toml.supplies_eq_isSome (htables path v · · hpath hv)] at hsupplies
      exact ⟨path, fileSource?_eq_some_iff.2 ⟨hpath, v, hv, hsupplies⟩⟩

/-- The place that the line about a setting names is the one that the value was
taken from exactly in these surroundings: the first variable that is set has
more than blanks in it, and where none is set, the file that is there has the
setting's key as it stands just if it has something for the setting once its
placeholders are filled. -/
theorem Field.line_truthful_iff (hload : load h {} = .ok s) {x : Source}
    (hline : f.line h s = f.lineNaming s x) :
    f.TakenFrom h s x ↔
      (∀ name, f.variableNames.find? h.env.isSet = some name →
          (h.env.filled? name).isSome)
        ∧ (f.variableNames.find? h.env.isSet = none →
          ((f.fileSource? h).isSome ↔ f.InFile h)) := by
  rw [← line_eq_lineNaming_iff.1 hline]
  exact takenFrom_source_iff hload f

/-- Surroundings with one of the variables set and a file that has a level. -/
def sampleSurroundings : Surroundings where
  env := ⟨[("ORDERDESK_DATABASE_URL", some ":memory:")]⟩
  file := fun path =>
    if path = "orderdesk.toml" then .text "[logging]\nlevel = \"debug\"\n"
    else .absent

theorem filePatch_sampleSurroundings :
    filePatch sampleSurroundings "orderdesk.toml"
      = .ok { level := some "debug" } := by
  have hread : (Toml.read "[logging]\nlevel = \"debug\"\n").bind Patch.ofToml?
      = some { level := some "debug" } := by decide +kernel
  refine bind_eq_ok_iff.2 ⟨_, rfl, bind_eq_ok_iff.2
    ⟨_, Environment.fill_eq_self (by decide +kernel), ?_⟩⟩
  rw [hread]
  rfl

theorem load_sampleSurroundings :
    load sampleSurroundings {} = .ok { url := ":memory:", level := "debug" } :=
  load_eq_ok_iff.2 ⟨_, { url := some ":memory:" },
    filePatch_sampleSurroundings, rfl, rfl, rfl⟩

theorem inFile_sampleSurroundings_iff :
    (f.fileSource? sampleSurroundings).isSome
      ↔ f.InFile sampleSurroundings := by
  rw [inFile_iff_of_filePatch rfl filePatch_sampleSurroundings]
  cases f <;> decide +kernel

/-- The URL is attributed to its variable, the level to the file and the format
to neither, and rightly so. -/
theorem Field.sample_lines_truthful :
    Field.url.TakenFrom sampleSurroundings
        { url := ":memory:", level := "debug" }
        (.variable "ORDERDESK_DATABASE_URL")
      ∧ Field.level.TakenFrom sampleSurroundings
        { url := ":memory:", level := "debug" } (.file "orderdesk.toml")
      ∧ Field.format.TakenFrom sampleSurroundings
        { url := ":memory:", level := "debug" } .builtin := by
  refine ⟨?fromVariable, ?fromFile, ?byDefault⟩
  case fromVariable =>
    refine (line_truthful_iff load_sampleSurroundings
      (line_eq_lineNaming_iff.2 rfl)).2 ⟨fun name hname => ?_, nofun⟩
    cases hname
    rfl
  case fromFile =>
    exact (line_truthful_iff load_sampleSurroundings
      (line_eq_lineNaming_iff.2 (by decide +kernel))).2
      ⟨nofun, fun _ => inFile_sampleSurroundings_iff⟩
  case byDefault =>
    exact (line_truthful_iff load_sampleSurroundings
      (line_eq_lineNaming_iff.2 (by decide +kernel))).2
      ⟨nofun, fun _ => inFile_sampleSurroundings_iff⟩

/-- Surroundings with a variable that is set to a blank. -/
def blankSurroundings : Surroundings where
  env := ⟨[("ORDERDESK_DATABASE_URL", some " ")]⟩
  file := fun _ => .absent

/-- The report names a variable that is set to a blank, though the value is the
default. -/
theorem Field.blank_line_untruthful :
    load blankSurroundings {} = .ok {}
      ∧ Field.url.line blankSurroundings {}
        = Field.url.lineNaming {} (.variable "ORDERDESK_DATABASE_URL")
      ∧ ¬ Field.url.TakenFrom blankSurroundings {}
          (.variable "ORDERDESK_DATABASE_URL")
      ∧ Field.url.TakenFrom blankSurroundings {} .builtin := by
  have hload : load blankSurroundings {} = .ok {} := rfl
  have htruth : Field.url.TakenFrom blankSurroundings {} .builtin :=
    .ofDefault rfl (fun _ _ hpath _ => nomatch hpath) rfl
  refine ⟨hload, line_eq_lineNaming_iff.2 rfl, fun hx => ?_, htruth⟩
  cases hx.unique htruth

end WorkRouting.Settings
