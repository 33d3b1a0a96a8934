/-
Command lines that are read back. A command is written as its name and its
options, each with its value behind an equals sign or, where the value does not
begin with a dash, as an argument of its own. However the options are arranged
and whichever of the two ways each is written, the line is read as the command
it was written for; and a line that has an option twice is no command.

The two ways are read at different times. A value behind an equals sign is
taken at once, one that stands apart only when the next option comes or the
line ends. What carries the proof is that this makes no difference
(`Reading.run_written`): a reading that settles to some state and then goes
through written options does what taking them one by one from that state does.
The rest is about taking options (`Reading.foldlM_record`) and about the table
of options of a command (`Command.options`), which is looked up by name, so
that their order does not matter.
-/
import Mathlib.Data.List.Nodup
import WorkRouting.Command.Line
import WorkRouting.Proofs.Except
import WorkRouting.Proofs.Text
import WorkRouting.Proofs.Text.Digits

namespace WorkRouting

open CommandLine

-- ============================================================== vocabulary

namespace CommandLine

/-- The text of a value. -/
def OptionValue.written : OptionValue → String
  | number n => idText n
  | text s => s
  | set => ""

def OptionValue.kind : OptionValue → Kind
  | number _ => .number
  | text _ => .text
  | set => .flag

/-- An option as it is written: whether its value stands apart from it. -/
structure Written where
  name : String
  value : OptionValue
  apart : Bool := false
  deriving DecidableEq, Repr

namespace Written

def option (w : Written) : String × OptionValue := (w.name, w.value)

/-- The arguments that the option comes to; a flag is its name alone. -/
def args (w : Written) : List String :=
  match w.value with
  | .set => ["--" ++ w.name]
  | v =>
      if w.apart then ["--" ++ w.name, v.written]
      else ["--" ++ w.name ++ "=" ++ v.written]

theorem args_flag {w : Written} (hset : w.value = .set) :
    w.args = ["--" ++ w.name] := by
  rw [args, hset]

theorem args_value {w : Written} (hvalue : w.value ≠ .set) :
    w.args = if w.apart then ["--" ++ w.name, w.value.written]
      else ["--" ++ w.name ++ "=" ++ w.value.written] := by
  rw [args]
  split
  · next hset => exact absurd hset hvalue
  · rfl

/-- A value that stands apart does not begin with a dash. -/
def Legible (w : Written) : Prop :=
  w.apart = true → w.value.written.toList.head? ≠ some '-'

instance (w : Written) : Decidable w.Legible :=
  inferInstanceAs (Decidable (_ → _))

end Written

/-- The arguments of a command with these options. -/
def Verb.line (verb : Verb) (ws : List Written) : List String :=
  verb.name :: ws.flatMap Written.args

end CommandLine

namespace Command

def verb : Command → Verb
  | migrate => .migrate
  | seed => .seed
  | config => .config
  | route .. => .route
  | predefinedRoute _ => .predefinedRoute
  | can _ => .can

/-- The options of a command and the values it gives them. -/
def options : Command → List (String × Option OptionValue)
  | migrate | seed | config => []
  | route order executor =>
      [("order-type", some (.number order.orderType)),
        ("department", order.department.map .number),
        ("otdel", order.otdel.map .number),
        ("branch", order.branch.map .number),
        ("office", order.office.map .number),
        ("executor", executor.map .number)]
  | predefinedRoute orderType => [("order-type", some (.number orderType))]
  | can q =>
      [("user", some (.number q.user)),
        ("permission", some (.text q.permission)),
        ("simple", if q.isSimple then some .set else none),
        ("target-user", q.targetUser.map .number),
        ("order-department", q.orderDepartment.map .number),
        ("order-otdel", q.orderOtdel.map .number),
        ("order-branch", q.orderBranch.map .number),
        ("order-office", q.orderOffice.map .number),
        ("order-creator", q.orderCreator.map .number),
        ("order-executor", q.orderExecutor.map .number)]

/-- The options that are given. -/
def given (c : Command) : Found :=
  c.options.filterMap fun (name, value) => value.map (name, ·)

/-- The options as written are those of the command, in some order. -/
structure WrittenAs (c : Command) (ws : List Written) : Prop where
  options : (ws.map Written.option).Perm c.given
  legible : ∀ w ∈ ws, w.Legible

end Command

namespace CommandLine

-- ================================================================ arguments

namespace Shape

theorem of_long {arg : String} {cs : List Char}
    (harg : arg.toList = '-' :: '-' :: cs) (hcs : cs ≠ []) :
    Shape.of arg
      = long (String.ofList (Text.cut '=' cs).1)
          ((Text.cut '=' cs).2.map String.ofList) := by
  unfold Shape.of
  rw [harg]
  cases cs with
  | nil => exact absurd rfl hcs
  | cons c cs => rfl

/-- The name of an option alone. -/
theorem of_name {name : String} (hname : '=' ∉ name.toList)
    (hne : name.toList ≠ []) : Shape.of ("--" ++ name) = long name none := by
  have harg : ("--" ++ name).toList = '-' :: '-' :: name.toList := by simp
  rw [of_long harg hne, Text.cut_of_not_mem hname]
  simp

/-- The name of an option and, behind the first equals sign, its value. -/
theorem of_name_value {name : String} (hname : '=' ∉ name.toList)
    (value : String) :
    Shape.of ("--" ++ name ++ "=" ++ value) = long name (some value) := by
  have harg : ("--" ++ name ++ "=" ++ value).toList
      = '-' :: '-' :: (name.toList ++ '=' :: value.toList) := by
    simp
  rw [of_long harg (by simp), Text.cut_append hname]
  simp

theorem of_plain {arg : String} (harg : arg.toList.head? ≠ some '-') :
    Shape.of arg = plain := by
  unfold Shape.of
  split
  · next h => simp [h] at harg
  · next h => simp [h] at harg
  · next h => simp [h] at harg
  · rfl

end Shape

-- ================================================================== options

theorem lookup_isSome_iff {found : Found} {name : String} :
    (found.lookup name).isSome = true ↔ name ∈ found.map Prod.fst := by
  rw [List.lookup_isSome_iff, List.mem_map]
  exact exists_congr fun p => and_congr_right fun _ =>
    beq_iff_eq.trans eq_comm

/-- Every value is read back from its text. -/
theorem OptionValue.read_written (v : OptionValue) :
    read v.kind v.written = .ok v := by
  cases v with
  | number n =>
      simp only [kind, written, read, idText, Text.ofInt, String.toList_ofList,
        Text.int?_intDigits, Option.bind_some, id64?_toInt]
  | text s => rfl
  | set => rfl

namespace Verb

theorem ofName?_name (verb : Verb) : ofName? verb.name = some verb := by
  cases verb <;> decide

theorem name_ne_helpName (verb : Verb) : verb.name ≠ helpName := by
  cases verb <;> decide

theorem names_nodup (verb : Verb) : (verb.options.map Spec.name).Nodup := by
  cases verb <;> decide

/-- The names of options can be told from their values and from help. -/
theorem clean_of_mem_options {verb : Verb} {spec : Spec}
    (h : spec ∈ verb.options) :
    '=' ∉ spec.name.toList ∧ spec.name.toList ≠ [] ∧ spec.name ≠ "help" := by
  have hall : ∀ spec ∈ verb.options,
      '=' ∉ spec.name.toList ∧ spec.name.toList ≠ [] ∧ spec.name ≠ "help" := by
    cases verb <;> decide
  exact hall spec h

/-- An option is found by its name. -/
theorem find?_name_eq {verb : Verb} {spec : Spec} (h : spec ∈ verb.options) :
    verb.options.find? (·.name == spec.name) = some spec :=
  find?_key_eq h fun _ hspec' =>
    List.inj_on_of_nodup_map verb.names_nodup hspec' h

end Verb

/-- The option as written is one of the command's, with a value of its kind. -/
structure Written.Fits (verb : Verb) (w : Written) (spec : Spec) : Prop where
  mem : spec ∈ verb.options
  name : spec.name = w.name
  kind : spec.kind = w.value.kind
  legible : w.Legible

-- ================================================================== reading

namespace Reading

variable {r r' : Reading} {verb : Verb} {w : Written} {spec : Spec}

/-- Takes an option with the value it was written for. -/
def record (r : Reading) (w : Written) : Except UsageError Reading :=
  if (r.found.lookup w.name).isSome then .error .repeatedOption
  else .ok ⟨r.found ++ [w.option], none⟩

theorem take_eq_record (h : w.Fits verb spec) :
    r.take spec w.value.written = r.record w := by
  unfold take record
  rw [h.name, h.kind, OptionValue.read_written]
  split <;> rfl

/-- Behind a recorded option nothing waits. -/
theorem settle_of_record (h : r.record w = .ok r') : r'.settle = .ok r' := by
  unfold record at h
  split at h
  · cases h
  · cases h
    rfl

/-- An option that waits is settled as it would have been taken at once. -/
theorem settle_pending (h : w.Fits verb spec) :
    settle { r with pending := some (spec, some w.value.written) }
      = r.record w :=
  take_eq_record (r := { r with pending := _ }) h

/-- An argument that is an option is one step of the reading. -/
theorem run_cons_long {specs : List Spec} {arg name : String}
    {value : Option String} (harg : Shape.of arg = .long name value)
    (rest : List String) :
    r.run specs (arg :: rest)
      = (r.long specs name value).bind (·.run specs rest) := by
  rw [run, harg, if_neg nofun, step, harg]

/-- What stands behind an option that wants a value is its value. -/
theorem run_cons_plain {specs : List Spec} {arg : String}
    (harg : Shape.of arg = .plain) (rest : List String) :
    run { r with pending := some (spec, none) } specs (arg :: rest)
      = run { r with pending := some (spec, some arg) } specs rest := by
  rw [run, harg, if_neg nofun, step, harg]
  rfl

theorem long_flag (h : w.Fits verb spec) (hset : w.value = .set) :
    r.long verb.options w.name none = r.settle.bind (·.record w) := by
  have hhelp := (Verb.clean_of_mem_options h.mem).2.2
  have htake : ∀ r₀ : Reading, r₀.take spec "" = r₀.record w := by
    intro r₀
    rw [← take_eq_record h, hset]
    rfl
  simp only [long, ← h.name, if_neg hhelp, Verb.find?_name_eq h.mem, h.kind,
    hset, OptionValue.kind, htake]

theorem long_value (h : w.Fits verb spec) (hvalue : w.value ≠ .set) :
    r.long verb.options w.name (some w.value.written)
      = r.settle.bind (·.record w) := by
  have hhelp := (Verb.clean_of_mem_options h.mem).2.2
  simp only [long, ← h.name, if_neg hhelp, Verb.find?_name_eq h.mem, h.kind,
    ← take_eq_record h]
  cases hv : w.value with
  | set => exact absurd hv hvalue
  | number n => rfl
  | text s => rfl

theorem long_waiting (h : w.Fits verb spec) (hvalue : w.value ≠ .set) :
    r.long verb.options w.name none
      = r.settle.map fun r => { r with pending := some (spec, none) } := by
  have hhelp := (Verb.clean_of_mem_options h.mem).2.2
  simp only [long, ← h.name, if_neg hhelp, Verb.find?_name_eq h.mem, h.kind]
  cases hv : w.value with
  | set => exact absurd hv hvalue
  | number n => rfl
  | text s => rfl

/-- Options as written are taken one by one, from what the reading settles to.
It does not matter that a value apart is taken later than one behind an equals
sign, since whatever comes next settles it first. -/
theorem run_written {ws : List Written}
    (hfits : ∀ w ∈ ws, ∃ spec, w.Fits verb spec) (r : Reading) :
    r.run verb.options (ws.flatMap Written.args)
      = r.settle.bind fun r₀ => ws.foldlM record r₀ := by
  induction ws generalizing r with
  | nil =>
      rw [List.flatMap_nil, run]
      cases r.settle <;> rfl
  | cons w ws ih =>
      obtain ⟨spec, h⟩ := hfits w List.mem_cons_self
      have hrest := ih fun w' hw' => hfits w' (List.mem_cons_of_mem w hw')
      obtain ⟨hclean, hne, -⟩ := Verb.clean_of_mem_options h.mem
      rw [h.name] at hclean hne
      -- an option that is taken at once leaves nothing waiting for the rest
      have htaken : ∀ r₀ : Reading,
          (r₀.record w).bind (·.run verb.options (ws.flatMap Written.args))
            = (w :: ws).foldlM record r₀ := by
        intro r₀
        rw [List.foldlM_cons]
        refine bind_congr_of_ok fun r₁ hr₁ => ?_
        rw [hrest, settle_of_record hr₁]
        rfl
      rw [List.flatMap_cons]
      by_cases hset : w.value = .set
      · rw [Written.args_flag hset, List.singleton_append,
          run_cons_long (Shape.of_name hclean hne), long_flag h hset]
        exact (bind_assoc r.settle _ _).trans (congrArg _ (funext htaken))
      · rw [Written.args_value hset]
        cases hapart : w.apart with
        | false =>
            rw [if_neg Bool.false_ne_true, List.singleton_append,
              run_cons_long (Shape.of_name_value hclean _),
              long_value h hset]
            exact (bind_assoc r.settle _ _).trans
              (congrArg _ (funext htaken))
        | true =>
            rw [if_pos rfl, List.cons_append, List.singleton_append,
              run_cons_long (Shape.of_name hclean hne),
              long_waiting h hset]
            cases r.settle with
            | error e => rfl
            | ok r₀ =>
                refine (run_cons_plain (Shape.of_plain (h.legible hapart))
                  _).trans ?_
                rw [hrest, settle_pending h]
                show _ = (w :: ws).foldlM record r₀
                rw [List.foldlM_cons]
                rfl

/-- Options are recorded in the order in which they come, as long as no name
comes twice. -/
theorem foldlM_record (ws : List Written) (r : Reading)
    (hr : (r.found.map Prod.fst).Nodup) (hsettled : r.pending = none) :
    ws.foldlM record r
      = if (r.found.map Prod.fst ++ ws.map Written.name).Nodup
        then .ok ⟨r.found ++ ws.map Written.option, none⟩
        else .error .repeatedOption := by
  induction ws generalizing r with
  | nil =>
      obtain ⟨found, pending⟩ := r
      cases hsettled
      simp [hr]
      rfl
  | cons w ws ih =>
      rw [List.foldlM_cons, List.map_cons, List.map_cons]
      by_cases hmem : w.name ∈ r.found.map Prod.fst
      · have htwice : ¬ (r.found.map Prod.fst
            ++ w.name :: ws.map Written.name).Nodup := by
          intro hnodup
          exact List.disjoint_of_nodup_append hnodup hmem List.mem_cons_self
        rw [if_neg htwice, record, if_pos (lookup_isSome_iff.2 hmem)]
        rfl
      · have hnew : ((r.found ++ [w.option]).map Prod.fst).Nodup := by
          rw [List.map_append]
          exact hr.append (List.nodup_singleton _)
            (List.disjoint_singleton.2 hmem)
        rw [record, if_neg (mt lookup_isSome_iff.1 hmem)]
        refine (ih ⟨r.found ++ [w.option], none⟩ hnew rfl).trans ?_
        simp only [List.map_append, List.map_cons, List.map_nil,
          List.append_assoc, List.singleton_append, Written.option]

end Reading

section ReadOptions

variable {verb : Verb} {ws : List Written}

/-- Options as written are the options that are read. -/
theorem readOptions_written (hfits : ∀ w ∈ ws, ∃ spec, w.Fits verb spec)
    (hnodup : (ws.map Written.name).Nodup)
    (hrequired : ∀ spec ∈ verb.options, spec.required = true →
      spec.name ∈ ws.map Written.name) :
    readOptions verb (ws.flatMap Written.args)
      = .ok (ws.map Written.option) := by
  have hrun : ({} : Reading).run verb.options (ws.flatMap Written.args)
      = .ok ⟨ws.map Written.option, none⟩ := by
    rw [Reading.run_written hfits]
    refine (Reading.foldlM_record ws {} List.nodup_nil rfl).trans ?_
    rw [if_pos (by simpa using hnodup)]
    rfl
  have hpresent : (verb.options.any fun s =>
      s.required && ((ws.map Written.option).lookup s.name).isNone)
        = false := by
    rw [List.any_eq_false]
    intro spec hspec hmissing
    rw [Bool.and_eq_true, Option.isNone_iff_eq_none] at hmissing
    have hname : spec.name ∈ (ws.map Written.option).map Prod.fst := by
      rw [List.map_map]
      exact hrequired spec hspec hmissing.1
    have hsome := lookup_isSome_iff.2 hname
    rw [hmissing.2] at hsome
    cases hsome
  unfold readOptions
  rw [hrun]
  refine (if_neg ?_).trans rfl
  rw [hpresent]
  exact Bool.false_ne_true

/-- A name that comes twice is refused. -/
theorem readOptions_repeated (hfits : ∀ w ∈ ws, ∃ spec, w.Fits verb spec)
    (htwice : ¬ (ws.map Written.name).Nodup) :
    readOptions verb (ws.flatMap Written.args) = .error .repeatedOption := by
  have hrun : ({} : Reading).run verb.options (ws.flatMap Written.args)
      = .error .repeatedOption := by
    rw [Reading.run_written hfits]
    refine (Reading.foldlM_record ws {} List.nodup_nil rfl).trans ?_
    rw [if_neg (by simpa using htwice)]
  unfold readOptions
  rw [hrun]
  rfl

/-- A line that begins with the name of a command is that command's. -/
theorem parse_line (verb : Verb) (ws : List Written) :
    parse (verb.line ws)
      = (readOptions verb (ws.flatMap Written.args)).bind verb.command := by
  rw [Verb.line, parse, if_neg verb.name_ne_helpName, Verb.ofName?_name]

end ReadOptions

end CommandLine

-- ========================================================== the table

namespace Command

variable {c : Command} {name : String} {v : OptionValue}

theorem names_eq (c : Command) :
    c.options.map Prod.fst = c.verb.options.map Spec.name := by
  cases c <;> rfl

theorem names_nodup (c : Command) : (c.options.map Prod.fst).Nodup := by
  rw [c.names_eq]
  exact c.verb.names_nodup

theorem mem_given_iff : (name, v) ∈ c.given ↔ (name, some v) ∈ c.options := by
  simp [given, List.mem_filterMap]

/-- An option is given a value of its own kind. -/
theorem exists_spec (h : (name, some v) ∈ c.options) :
    ∃ spec ∈ c.verb.options, spec.name = name ∧ spec.kind = v.kind := by
  have hall : ∀ o ∈ c.options, ∃ spec ∈ c.verb.options,
      spec.name = o.1 ∧ ∀ v, o.2 = some v → spec.kind = v.kind := by
    cases c <;> simp [options, verb, Verb.options, OptionValue.kind]
  obtain ⟨spec, hspec, hname, hkind⟩ := hall _ h
  exact ⟨spec, hspec, hname, hkind v rfl⟩

/-- What a command requires is given. -/
theorem exists_value_of_required {spec : Spec} (h : spec ∈ c.verb.options)
    (hrequired : spec.required = true) :
    ∃ v, (spec.name, some v) ∈ c.options := by
  have hall : ∀ spec ∈ c.verb.options, spec.required = true →
      ∃ v, (spec.name, some v) ∈ c.options := by
    cases c <;> simp [options, verb, Verb.options]
  exact hall spec h hrequired

/-- Where no name comes twice, looking up is finding. -/
theorem lookup_eq_some_iff_mem {β : Type _} {l : List (String × β)} {b : β}
    (h : (l.map Prod.fst).Nodup) : l.lookup name = some b ↔ (name, b) ∈ l := by
  constructor
  · intro hlookup
    obtain ⟨before, rest, rfl, -⟩ := List.lookup_eq_some_iff.1 hlookup
    simp
  · intro hmem
    obtain ⟨before, rest, rfl⟩ := List.append_of_mem hmem
    refine List.lookup_eq_some_iff.2 ⟨before, rest, rfl, fun p hp => ?_⟩
    rw [bne_iff_ne]
    rintro rfl
    rw [List.map_append] at h
    exact List.disjoint_of_nodup_append h (List.mem_map_of_mem hp)
      List.mem_cons_self

namespace WrittenAs

variable {ws : List Written}

theorem mem_options (h : c.WrittenAs ws) {w : Written} (hw : w ∈ ws) :
    (w.name, some w.value) ∈ c.options :=
  mem_given_iff.1 (h.options.mem_iff.1 (List.mem_map_of_mem hw))

theorem fits (h : c.WrittenAs ws) {w : Written} (hw : w ∈ ws) :
    ∃ spec, w.Fits c.verb spec := by
  obtain ⟨spec, hmem, hname, hkind⟩ := exists_spec (h.mem_options hw)
  exact ⟨spec, hmem, hname, hkind, h.legible w hw⟩

/-- No name comes twice, since none does among the options. -/
theorem names_nodup (h : c.WrittenAs ws) : (ws.map Written.name).Nodup := by
  have hgiven : (c.given.map Prod.fst).Sublist (c.options.map Prod.fst) := by
    unfold given
    generalize c.options = os
    induction os with
    | nil => exact List.Sublist.slnil
    | cons o os ih =>
        obtain ⟨name, value⟩ := o
        cases value with
        | none => exact ih.cons name
        | some v => exact ih.cons_cons name
  have hnames : (ws.map Written.option).map Prod.fst
      = ws.map Written.name := by
    rw [List.map_map]
    rfl
  rw [← hnames]
  exact ((h.options.map Prod.fst).nodup_iff).2
    (c.names_nodup.sublist hgiven)

/-- What is required is written. -/
theorem required_mem (h : c.WrittenAs ws) {spec : Spec}
    (hspec : spec ∈ c.verb.options) (hrequired : spec.required = true) :
    spec.name ∈ ws.map Written.name := by
  obtain ⟨v, hv⟩ := exists_value_of_required hspec hrequired
  obtain ⟨w, hw, hoption⟩ :=
    List.mem_map.1 (h.options.mem_iff.2 (mem_given_iff.2 hv))
  exact List.mem_map.2 ⟨w, hw, congrArg Prod.fst hoption⟩

/-- A name is looked up in the table, in whatever order it was written. -/
theorem lookup_eq (h : c.WrittenAs ws) (name : String) :
    (ws.map Written.option).lookup name = (c.options.lookup name).join := by
  have hnodup : ((ws.map Written.option).map Prod.fst).Nodup := by
    rw [List.map_map]
    exact h.names_nodup
  refine Option.ext fun v => ?_
  rw [lookup_eq_some_iff_mem hnodup, h.options.mem_iff, mem_given_iff,
    ← lookup_eq_some_iff_mem c.names_nodup, Option.join_eq_some_iff]

theorem number?_eq (h : c.WrittenAs ws) (name : String) (v : Option Int64)
    (hv : c.options.lookup name = some (v.map .number)) :
    Found.number? (ws.map Written.option) name = v := by
  rw [Found.number?, h.lookup_eq, hv]
  cases v <;> rfl

theorem required_eq (h : c.WrittenAs ws) (name : String) (n : Int64)
    (hn : c.options.lookup name = some (some (.number n))) :
    Found.required (ws.map Written.option) name = .ok n := by
  rw [Found.required, h.number?_eq name (some n) hn]

theorem requiredText_eq (h : c.WrittenAs ws) (name text : String)
    (htext : c.options.lookup name = some (some (.text text))) :
    Found.requiredText (ws.map Written.option) name = .ok text := by
  rw [Found.requiredText, h.lookup_eq, htext]
  rfl

/-- The options make the command that they are of. -/
theorem command_eq (h : c.WrittenAs ws) :
    c.verb.command (ws.map Written.option) = .ok c := by
  cases c with
  | migrate | seed | config => rfl
  | route order executor =>
      simp only [verb, Verb.command, h.required_eq "order-type" _ rfl,
        h.number?_eq "department" order.department rfl,
        h.number?_eq "otdel" order.otdel rfl,
        h.number?_eq "branch" order.branch rfl,
        h.number?_eq "office" order.office rfl,
        h.number?_eq "executor" executor rfl]
      rfl
  | predefinedRoute orderType =>
      simp only [verb, Verb.command, h.required_eq "order-type" _ rfl]
      rfl
  | can q =>
      have hsimple : ((ws.map Written.option).lookup "simple").isSome
          = q.isSimple := by
        rw [h.lookup_eq]
        show (if q.isSimple then some OptionValue.set else none).isSome = _
        cases q.isSimple <;> rfl
      simp only [verb, Verb.command, h.required_eq "user" _ rfl,
        h.requiredText_eq "permission" _ rfl, hsimple,
        h.number?_eq "target-user" q.targetUser rfl,
        h.number?_eq "order-department" q.orderDepartment rfl,
        h.number?_eq "order-otdel" q.orderOtdel rfl,
        h.number?_eq "order-branch" q.orderBranch rfl,
        h.number?_eq "order-office" q.orderOffice rfl,
        h.number?_eq "order-creator" q.orderCreator rfl,
        h.number?_eq "order-executor" q.orderExecutor rfl]
      rfl

/-- A command is read back from the line that it is written as. -/
theorem parse_eq (h : c.WrittenAs ws) : parse (c.verb.line ws) = .ok c := by
  rw [parse_line, readOptions_written (fun w hw => h.fits hw) h.names_nodup
    fun spec hspec hrequired => h.required_mem hspec hrequired]
  exact h.command_eq

/-- One more option of a name that is written already, wherever it is put, is
one too many. -/
theorem parse_eq_repeatedOption {before after : List Written} {w w' : Written}
    (h : c.WrittenAs (before ++ after)) (hw : w ∈ before ++ after)
    (hname : w'.name = w.name) (hkind : w'.value.kind = w.value.kind)
    (hlegible : w'.Legible) :
    parse (c.verb.line (before ++ w' :: after)) = .error .repeatedOption := by
  have hfits : ∀ w₀ ∈ before ++ w' :: after, ∃ spec, w₀.Fits c.verb spec := by
    intro w₀ hw₀
    rcases List.mem_cons.1 (List.perm_middle.mem_iff.1 hw₀) with rfl | hw₀
    · obtain ⟨spec, hspec⟩ := h.fits hw
      exact ⟨spec, hspec.mem, hspec.name.trans hname.symm,
        hspec.kind.trans hkind.symm, hlegible⟩
    · exact h.fits hw₀
  have htwice : ¬ ((before ++ w' :: after).map Written.name).Nodup := by
    rw [(List.perm_middle.map Written.name).nodup_iff, List.map_cons,
      List.nodup_cons, hname]
    exact fun hnodup => hnodup.1 (List.mem_map_of_mem hw)
  rw [parse_line, readOptions_repeated hfits htwice]
  rfl

end WrittenAs

/-- Every arrangement of the options given can be written, with any of them
apart whose value does not begin with a dash. -/
theorem writtenAs_of_perm {os : Found} (apart : String → Bool)
    (hos : os.Perm c.given)
    (hlegible : ∀ o ∈ os, apart o.1 = true →
      o.2.written.toList.head? ≠ some '-') :
    c.WrittenAs (os.map fun o => ⟨o.1, o.2, apart o.1⟩) where
  options := by
    rw [List.map_map]
    exact (List.Perm.of_eq (List.map_id _)).trans hos
  legible w hw := by
    obtain ⟨o, ho, rfl⟩ := List.mem_map.1 hw
    exact hlegible o ho

end Command

-- ========================================================== lines read back

/-- A command is read back from every line that it is written as: from its
options in any order, each behind an equals sign or apart. Such a line is there
for every order and every choice of options to stand apart whose values do not
begin with a dash. With one of its options a second time, in either way, with
the same value or another and wherever it is put, the line is refused. Hence
two commands are never written alike. -/
theorem CommandLine.parse_written (c : Command) :
    (∀ ws, c.WrittenAs ws → parse (c.verb.line ws) = .ok c)
      ∧ (∀ (os : Found) (apart : String → Bool), os.Perm c.given →
          (∀ o ∈ os, apart o.1 = true →
            o.2.written.toList.head? ≠ some '-') →
          c.WrittenAs (os.map fun o => ⟨o.1, o.2, apart o.1⟩))
      ∧ (∀ before after w w', c.WrittenAs (before ++ after) →
          w ∈ before ++ after → w'.name = w.name →
          w'.value.kind = w.value.kind → w'.Legible →
          parse (c.verb.line (before ++ w' :: after))
            = .error .repeatedOption)
      ∧ ∀ c' ws ws', c.WrittenAs ws → c'.WrittenAs ws' →
          c.verb.line ws = c'.verb.line ws' → c = c' := by
  refine ⟨fun ws h => h.parse_eq,
    fun os apart hos hlegible => Command.writtenAs_of_perm apart hos hlegible,
    fun before after w w' h hw hname hkind hlegible =>
      h.parse_eq_repeatedOption hw hname hkind hlegible, ?_⟩
  intro c' ws ws' h h' hline
  have hread := h.parse_eq
  rw [hline, h'.parse_eq] at hread
  exact (Except.ok.inj hread).symm

/-- A question with the least identifier there is, a permission that looks like
an option, and an order of which only the otdel is known. -/
def AccessQuestion.awkward : AccessQuestion where
  user := Int64.minValue
  permission := "--user=1"
  isSimple := true
  orderOtdel := some 7

/-- It is read back from its options backwards with the otdel apart, and
refused when another otdel is put in front. -/
theorem CommandLine.awkward_read :
    parse ["can", "--order-otdel", "7", "--simple", "--permission=--user=1",
        "--user=-9223372036854775808"] = .ok (.can .awkward)
      ∧ parse ["can", "--order-otdel=8", "--order-otdel", "7", "--simple",
          "--permission=--user=1", "--user=-9223372036854775808"]
        = .error .repeatedOption := by
  obtain ⟨hread, hwrite, htwice, -⟩ := parse_written (.can .awkward)
  have hwritten : (Command.can .awkward).WrittenAs
      [⟨"order-otdel", .number 7, true⟩, ⟨"simple", .set, false⟩,
        ⟨"permission", .text "--user=1", false⟩,
        ⟨"user", .number Int64.minValue, false⟩] :=
    hwrite (Command.can .awkward).given.reverse (· == "order-otdel")
      (List.reverse_perm _) (by decide)
  constructor
  · have hline := hread _ hwritten
    exact hline
  · have hline := htwice [] _ ⟨"order-otdel", .number 7, true⟩
      ⟨"order-otdel", .number 8, false⟩ hwritten (by decide) rfl rfl
      (by decide)
    exact hline

end WorkRouting
