/-
The command line. Arguments are taken from left to right, and the first fault
or request for help ends the reading; what is missing is found last. A value
that stands apart from its option is only looked at when the next option comes
or the line ends, so a fault in between wins over a fault in the value.
-/
import WorkRouting.Command.Basic

namespace WorkRouting.CommandLine

-- ================================================== outcomes

/-- Why a command line is no command. -/
inductive UsageError where
  /-- Not a fault: help was asked for. -/
  | help
  | missingCommand
  | unknownCommand
  | unknownArgument
  | missingOption
  | missingValue
  | badValue
  | repeatedOption
  | unexpectedValue
  deriving DecidableEq, Repr

def UsageError.exitCode : UsageError → Nat
  | help => 0
  | _ => 2

-- ================================================== grammar

/-- What an option takes. -/
inductive Kind where
  | number
  | text
  | flag
  deriving DecidableEq, Repr

structure Spec where
  name : String
  kind : Kind := .number
  required : Bool := false
  deriving DecidableEq, Repr

/-- The name of a command. -/
inductive Verb where
  | migrate | seed | config | route | predefinedRoute | can
  deriving DecidableEq, Repr

namespace Verb

def name : Verb → String
  | migrate => "migrate"
  | seed => "seed"
  | config => "config"
  | route => "route"
  | predefinedRoute => "predefined-route"
  | can => "can"

def all : List Verb := [migrate, seed, config, route, predefinedRoute, can]

def ofName? (text : String) : Option Verb := all.find? (·.name == text)

def options : Verb → List Spec
  | migrate | seed | config => []
  | route =>
      [{ name := "order-type", required := true }, { name := "department" },
        { name := "otdel" }, { name := "branch" }, { name := "office" },
        { name := "executor" }]
  | predefinedRoute => [{ name := "order-type", required := true }]
  | can =>
      [{ name := "user", required := true },
        { name := "permission", kind := .text, required := true },
        { name := "simple", kind := .flag }, { name := "target-user" },
        { name := "order-department" }, { name := "order-otdel" },
        { name := "order-branch" }, { name := "order-office" },
        { name := "order-creator" }, { name := "order-executor" }]

end Verb

-- ================================================== arguments

/-- An argument by its shape. -/
inductive Shape where
  /-- Two dashes alone: no options behind them. -/
  | separator
  /-- Two dashes and a name, perhaps with a value behind an equals sign. -/
  | long (name : String) (value : Option String)
  /-- A dash and letters. -/
  | short (first : Char)
  | plain
  deriving DecidableEq, Repr

def Shape.of (arg : String) : Shape :=
  match arg.toList with
  | ['-', '-'] => separator
  | '-' :: '-' :: rest =>
      let (name, value) := Text.cut '=' rest
      long (String.ofList name) (value.map String.ofList)
  | '-' :: c :: _ => short c
  | _ => plain

-- ================================================== options of a command

/-- The value of an option. -/
inductive OptionValue where
  | number (n : Int64)
  | text (s : String)
  | set
  deriving DecidableEq, Repr

/-- The value that a text is. -/
def OptionValue.read (kind : Kind) (text : String) :
    Except UsageError OptionValue :=
  match kind with
  | .flag => .ok set
  | .text => .ok (.text text)
  | .number =>
      match (Text.int? text.toList).bind id64? with
      | some n => .ok (number n)
      | none => .error .badValue

/-- What has been read of a command. -/
structure Reading where
  /-- The options so far. -/
  found : List (String × OptionValue) := []
  /-- An option whose value stands apart: still to come, or not yet read. -/
  pending : Option (Spec × Option String) := none

namespace Reading

/-- Takes an option with its value. -/
def take (r : Reading) (spec : Spec) (text : String) :
    Except UsageError Reading := do
  if (r.found.lookup spec.name).isSome then throw .repeatedOption
  return ⟨r.found ++ [(spec.name, ← OptionValue.read spec.kind text)], none⟩

/-- Takes the option that waits. -/
def settle (r : Reading) : Except UsageError Reading :=
  match r.pending with
  | none => .ok r
  | some (_, none) => .error .missingValue
  | some (spec, some text) => r.take spec text

/-- Takes an argument that names an option. -/
def long (r : Reading) (specs : List Spec) (name : String)
    (value : Option String) : Except UsageError Reading :=
  if name = "help" then
    match value with
    | some _ => .error .unexpectedValue
    | none => r.settle.bind fun _ => .error .help
  else
    match specs.find? (·.name == name) with
    | none => .error .unknownArgument
    | some spec =>
        match spec.kind, value with
        | .flag, some _ => .error .unexpectedValue
        | .flag, none => r.settle.bind (·.take spec "")
        | _, some text => r.settle.bind (·.take spec text)
        | _, none =>
            r.settle.map fun r => { r with pending := some (spec, none) }

/-- Takes one argument. -/
def step (r : Reading) (specs : List Spec) (arg : String) :
    Except UsageError Reading :=
  match Shape.of arg with
  | .separator | .plain =>
      match r.pending with
      | some (spec, none) => .ok { r with pending := some (spec, some arg) }
      | _ => .error .unknownArgument
  | .long name value => r.long specs name value
  | .short first =>
      if first = 'h' then r.settle.bind fun _ => .error .help
      else .error .unknownArgument

/-- Takes all arguments. Nothing may stand behind the separator, since no
command takes an argument without a name. -/
def run (r : Reading) (specs : List Spec) :
    List String → Except UsageError Reading
  | [] => r.settle
  | arg :: rest =>
      if Shape.of arg = .separator then
        if rest = [] then r.settle else .error .unknownArgument
      else (r.step specs arg).bind (·.run specs rest)

end Reading

/-- The options of a command, the required ones among them. -/
def readOptions (verb : Verb) (args : List String) :
    Except UsageError (List (String × OptionValue)) := do
  let r ← ({} : Reading).run verb.options args
  let missing (s : Spec) := s.required && (r.found.lookup s.name).isNone
  if verb.options.any missing then throw .missingOption
  return r.found

-- ================================================== commands

/-- The options by name. -/
abbrev Found := List (String × OptionValue)

def Found.number? (found : Found) (name : String) : Option Int64 :=
  match found.lookup name with
  | some (.number n) => some n
  | _ => none

def Found.required (found : Found) (name : String) : Except UsageError Int64 :=
  match Found.number? found name with
  | some n => .ok n
  | none => .error .missingOption

def Found.requiredText (found : Found) (name : String) :
    Except UsageError String :=
  match found.lookup name with
  | some (.text s) => .ok s
  | _ => .error .missingOption

/-- The command that its options make. -/
def Verb.command (verb : Verb) (found : Found) :
    Except UsageError Command := do
  let number? := Found.number? found
  match verb with
  | .migrate => return .migrate
  | .seed => return .seed
  | .config => return .config
  | .route =>
      let order : Context := {
        orderType := ← Found.required found "order-type"
        department := number? "department"
        otdel := number? "otdel"
        branch := number? "branch"
        office := number? "office" }
      return .route order (number? "executor")
  | .predefinedRoute =>
      return .predefinedRoute (← Found.required found "order-type")
  | .can =>
      return .can {
        user := ← Found.required found "user"
        permission := ← Found.requiredText found "permission"
        isSimple := (found.lookup "simple").isSome
        targetUser := number? "target-user"
        orderDepartment := number? "order-department"
        orderOtdel := number? "order-otdel"
        orderBranch := number? "order-branch"
        orderOffice := number? "order-office"
        orderCreator := number? "order-creator"
        orderExecutor := number? "order-executor" }

/-- The command that shows help on another one, or on itself. -/
def helpName : String := "help"

/-- What a request for help by its command comes to. Commands have no commands
of their own, so one name at most may follow. -/
def helpOn : List String → UsageError
  | [] => .help
  | [name] =>
      if name = helpName || (Verb.ofName? name).isSome then .help
      else .unknownCommand
  | _ => .unknownCommand

/-- The command behind the separator: none can be given there, and a name that
would be one elsewhere is an argument too many. -/
def afterSeparator : List String → UsageError
  | [] => .missingCommand
  | name :: _ =>
      if name = helpName || (Verb.ofName? name).isSome then .unknownArgument
      else .unknownCommand

/-- The command that the arguments of the program make. -/
def parse : List String → Except UsageError Command
  | [] => .error .missingCommand
  | arg :: rest =>
      if arg = helpName then .error (helpOn rest)
      else
        match Verb.ofName? arg with
        | some verb => (readOptions verb rest).bind verb.command
        | none =>
            match Shape.of arg with
            | .separator => .error (afterSeparator rest)
            | .long name value => .error <|
                if name = "help" then
                  if value.isSome then .unexpectedValue else .help
                else .unknownArgument
            | .short first =>
                .error (if first = 'h' then .help else .unknownArgument)
            | .plain => .error .unknownCommand

-- ================================================== usage

/-- An option as the usage shows it, in brackets where it may be left out. -/
def Spec.usage (s : Spec) : String :=
  let shown := match s.kind with
    | .flag => "--" ++ s.name
    | .number => "--" ++ s.name ++ " N"
    | .text => "--" ++ s.name ++ " TEXT"
  if s.required then shown else "[" ++ shown ++ "]"

/-- A line for every command. -/
def usage : String :=
  Text.lines (Verb.all.map fun v =>
    String.intercalate " " (v.name :: v.options.map Spec.usage)) ++ "\n"

end WorkRouting.CommandLine
