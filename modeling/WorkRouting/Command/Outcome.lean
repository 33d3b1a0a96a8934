/-
The result of a command: an exit code and one line of JSON. A success has no
error class, an application error carries the correlation id of its log entry,
and data is there exactly when the command has some, a null being some.
-/
import WorkRouting.Failure
import WorkRouting.Json.Printer

namespace WorkRouting

structure Outcome where
  exitCode : Nat
  output : String
  deriving DecidableEq, Repr

namespace Outcome

/-- What a command says about itself. -/
structure Report where
  command : String
  errorClass : Option String := none
  message : String
  correlationId : Option String := none
  data : Option Json := none

/-- The status follows from the error class. -/
def Report.status (r : Report) : String :=
  if r.errorClass.isNone then "ok" else "error"

/-- The report with its members in their fixed order. Data has its keys in byte
order, since nothing else fixes one. -/
def Report.toJson (r : Report) : Json :=
  .object ([("command", .string r.command), ("status", .string r.status),
      ("error_class", r.errorClass.elim .null .string),
      ("message", .string r.message)]
    ++ (r.correlationId.map fun id =>
      ("correlation_id", Json.string id)).toList
    ++ (r.data.map fun v => ("data", v.sorted)).toList)

def Report.exit (r : Report) (code : Nat) : Outcome := ⟨code, r.toJson.render⟩

def successWithData (command message : String) (data : Option Json) :
    Outcome :=
  Report.exit { command, message, data } 0

def success (command message : String) : Outcome :=
  successWithData command message none

def failure (command errorClass message : String) (exitCode : Nat) : Outcome :=
  Report.exit { command, errorClass := some errorClass, message } exitCode

/-- An application error as its interface error shows it. -/
def ofApplicationError (command : String) (e : ApplicationError)
    (correlationId : String) : Outcome :=
  let shown := e.toInterfaceAs correlationId
  Report.exit
    { command
      errorClass := some shown.errorClass
      message := shown.userMessage
      correlationId := some shown.correlationId }
    shown.exitCode

end Outcome

end WorkRouting
