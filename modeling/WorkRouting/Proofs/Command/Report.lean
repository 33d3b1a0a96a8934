/-
What a line of output says. `Outcome.Tells` looks at an outcome from outside,
as a script does that reads its output: a single line of JSON, which read back
is an object with the parts of a report under their keys. A part that is not
there has no key, which differs from a key with a null under it.

Every outcome tells the report that it was made for, whatever its texts and its
data hold (`Report.exit_tells`), because a printed value is read back as it
was. The data comes back with its keys in order; data that has them in order,
as every map has, comes back as it is.
-/
import WorkRouting.Command.Outcome
import WorkRouting.Proofs.Json.KeyOrder
import WorkRouting.Proofs.Json.RoundTrip

namespace WorkRouting

-- ==================================================== under another id

namespace InterfaceError

@[simp] theorem correlationId_withCorrelationId (e : InterfaceError)
    (id : String) : (e.withCorrelationId id).correlationId = id := by
  cases e <;> rfl

@[simp] theorem errorClass_withCorrelationId (e : InterfaceError)
    (id : String) : (e.withCorrelationId id).errorClass = e.errorClass := by
  cases e <;> rfl

@[simp] theorem userMessage_withCorrelationId (e : InterfaceError)
    (id : String) : (e.withCorrelationId id).userMessage = e.userMessage := by
  cases e <;> rfl

@[simp] theorem exitCode_withCorrelationId (e : InterfaceError)
    (id : String) : (e.withCorrelationId id).exitCode = e.exitCode := by
  cases e <;> rfl

end InterfaceError

namespace Outcome

-- ============================================================ vocabulary

/-- The keys that a line of output may have, in their order. -/
def keys : List String :=
  ["command", "status", "error_class", "message", "correlation_id", "data"]

/-- Members carry the parts of a report, each under its key. -/
structure Carries (members : List (String × Json)) (r : Report) : Prop where
  command : members.lookup "command" = some (.string r.command)
  status : members.lookup "status"
    = some (.string (if r.errorClass = none then "ok" else "error"))
  errorClass : members.lookup "error_class"
    = some (r.errorClass.elim .null .string)
  message : members.lookup "message" = some (.string r.message)
  correlationId : members.lookup "correlation_id"
    = r.correlationId.map Json.string
  data : members.lookup "data" = r.data
  keyed : (members.map (·.1)).Sublist keys

/-- The output of an outcome is one line of JSON, and it says what a report
says. -/
structure Tells (o : Outcome) (r : Report) : Prop where
  line : ∀ c ∈ o.output.toList, 0x20 ≤ c.toNat
  carried : ∃ members, Json.read o.output = some (.object members)
    ∧ Carries members r

-- ============================================================= the report

/-- The report with the keys of its data in order. -/
def Report.sorted (r : Report) : Report :=
  { r with data := r.data.map Json.sorted }

/-- An outcome tells the report it was made for. -/
theorem Report.exit_tells (r : Report) (code : Nat) :
    (r.exit code).Tells r.sorted where
  line := Json.plain_of_mem_render
  carried := by
    refine ⟨_, Json.read_render _, ?_⟩
    obtain ⟨command, errorClass, message, correlationId, data⟩ := r
    cases errorClass <;> cases correlationId <;> cases data <;>
      exact ⟨rfl, rfl, rfl, rfl, rfl, rfl, by simp [keys]⟩

/-- What is shown of an application error is what its interface error shows,
under the correlation id of its log entry. -/
theorem ofApplicationError_eq (command : String) (e : ApplicationError)
    (id : String) :
    ofApplicationError command e id
      = Report.exit {
          command
          errorClass := some e.toInterface.errorClass
          message := e.toInterface.userMessage
          correlationId := some id } e.toInterface.exitCode := by
  simp only [ofApplicationError, ApplicationError.toInterfaceAs,
    InterfaceError.errorClass_withCorrelationId,
    InterfaceError.userMessage_withCorrelationId,
    InterfaceError.correlationId_withCorrelationId,
    InterfaceError.exitCode_withCorrelationId]

-- ============================================================ the outcomes

/-- The three kinds of outcome each tell what they were made for, on one line:
a success its data, an explicit null too, a failure its class, an application
error its correlation id besides. Data comes back sorted, which is as it was
just if its keys were in order. -/
theorem outcomes_tell :
    (∀ command message data,
        (successWithData command message data).Tells
          { command, message, data := data.map Json.sorted })
      ∧ (∀ command errorClass message code,
          (failure command errorClass message code).Tells
            { command, errorClass := some errorClass, message })
      ∧ (∀ command e id,
          (ofApplicationError command e id).Tells {
            command
            errorClass := some e.toInterface.errorClass
            message := e.toInterface.userMessage
            correlationId := some id })
      ∧ ∀ v : Json, v.sorted.Ordered ∧ (v.sorted = v ↔ v.Ordered) := by
  refine ⟨fun command message data => ?success,
    fun command errorClass message code => ?failure,
    fun command e id => ?application, fun v => ⟨v.ordered_sorted, ?_, ?_⟩⟩
  case success => exact Report.exit_tells { command, message, data } 0
  case failure =>
    exact Report.exit_tells
      { command, errorClass := some errorClass, message } code
  case application =>
    rw [ofApplicationError_eq]
    exact Report.exit_tells _ e.toInterface.exitCode
  · intro hv
    rw [← hv]
    exact v.ordered_sorted
  · exact v.sorted_eq_self

end Outcome

end WorkRouting
