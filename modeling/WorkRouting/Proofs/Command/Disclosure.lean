/-
What a failure lets out. Inside, an error knows its cause: the text of the
database, the name of a variable, who was denied what. Outside, only a class, a
message and the correlation id of the log entry are seen, and the message of a
denial or of an internal error is the same for all of them.

So errors that are kept apart inside are one to the caller
(`ApplicationError.Indistinct`): the outcome of one is that of the other, to
the last character, under the same correlation id. Only what the caller has to
know, that an executor is not there or that nobody answers for an order, is
told in its own words and nothing besides.
-/
import WorkRouting.Proofs.Command.Report
import WorkRouting.Store.Directory

namespace WorkRouting

-- ============================================================ vocabulary

/-- Two errors differ in nothing but their correlation ids. -/
inductive InterfaceError.SameButId : InterfaceError → InterfaceError → Prop
  | badRequest (cause a b : String) :
      SameButId (.badRequest cause a) (.badRequest cause b)
  | notFound (cause a b : String) :
      SameButId (.notFound cause a) (.notFound cause b)
  | forbidden (a b : String) : SameButId (.forbidden a) (.forbidden b)
  | internal (cause a b : String) :
      SameButId (.internal cause a) (.internal cause b)

namespace ApplicationError

/-- Errors of the store and of the settings, and lookups and reads that
failed. -/
inductive Internal : ApplicationError → Prop
  | persistence (cause : String) : Internal (.persistence cause)
  | configuration (cause : String) : Internal (.configuration cause)
  | lookup (error : DirectoryError) :
      Internal (RoutingError.directory error).toApplication
  | read (error : ReadError) :
      Internal (RoutingError.directory error.toDirectory).toApplication

/-- Errors that nobody outside can tell apart: any two internal ones, and any
two denials. -/
inductive Indistinct : ApplicationError → ApplicationError → Prop
  | internal {e e' : ApplicationError} (h : e.Internal) (h' : e'.Internal) :
      Indistinct e e'
  | denied (d d' : AccessDenied) : Indistinct d.toApplication d'.toApplication

-- ================================================================= the id

theorem sameButId_toInterfaceAs (e : ApplicationError) (id : String) :
    (e.toInterfaceAs id).SameButId e.toInterface := by
  unfold toInterfaceAs
  cases e.toInterface <;> constructor

theorem correlationId_toInterfaceAs (e : ApplicationError) (id : String) :
    (e.toInterfaceAs id).correlationId = id :=
  InterfaceError.correlationId_withCorrelationId e.toInterface id

-- ============================================================= the causes

theorem Internal.exists_toInterface {e : ApplicationError} (h : e.Internal) :
    ∃ cause, e.toInterface = .internal cause unassigned := by
  cases h <;> exact ⟨_, rfl⟩

variable {e e' : ApplicationError}

/-- Of an internal error nothing is told but that it is one. -/
theorem Internal.outcome_eq (h : e.Internal) (command id : String) :
    Outcome.ofApplicationError command e id
      = Outcome.Report.exit {
          command
          errorClass := some "internal"
          message := "An unexpected internal error occurred."
          correlationId := some id } 13 := by
  obtain ⟨cause, hcause⟩ := h.exists_toInterface
  rw [Outcome.ofApplicationError_eq, hcause]
  rfl

theorem Indistinct.outcome_eq (h : e.Indistinct e') (command id : String) :
    Outcome.ofApplicationError command e id
      = Outcome.ofApplicationError command e' id := by
  cases h with
  | internal h h' => rw [h.outcome_eq, h'.outcome_eq]
  | denied d d' => rfl

end ApplicationError

-- ============================================================ what is told

/-- The class under which a caller is told why there is no executor. -/
def RoutingError.errorClass : RoutingError → String
  | executorNotFound _ => "not_found"
  | noOrganizationalUnit | noHolderForPositionType _
  | noHolderForPosition .. =>
      "bad_request"
  | directory _ => "internal"

/-- An order without an executor is told in the words of the decision. -/
theorem RoutingError.outcome_tells {e : RoutingError}
    (h : ∀ cause, e ≠ .directory cause) (command id : String) :
    (Outcome.ofApplicationError command e.toApplication id).Tells {
      command
      errorClass := some e.errorClass
      message := e.message
      correlationId := some id } := by
  rw [Outcome.ofApplicationError_eq]
  cases e with
  | executorNotFound _ | noOrganizationalUnit | noHolderForPositionType _
  | noHolderForPosition _ _ => exact Outcome.Report.exit_tells _ _
  | directory cause => exact absurd rfl (h cause)

/-- Causes stay inside. An error is shown under exactly the correlation id it
is given, and is otherwise the one that is shown without an id; its kind
decides the exit code. Errors of the store, the settings and the lookups have
one outcome, whatever their texts, and so have all denials. A decision that
found no executor is told in its own words, with no data. -/
theorem ApplicationError.causes_stay_inside :
    (∀ (e : ApplicationError) id,
        (e.toInterfaceAs id).correlationId = id
          ∧ (e.toInterfaceAs id).SameButId e.toInterface)
      ∧ (∀ command cause id,
          (Outcome.ofApplicationError command
              (.domain (.badRequest cause)) id).exitCode = 10
            ∧ (Outcome.ofApplicationError command
              (.domain (.notFound cause)) id).exitCode = 11)
      ∧ (∀ command (d : AccessDenied) id,
          (Outcome.ofApplicationError command d.toApplication id).exitCode
            = 12)
      ∧ (∀ command (e : ApplicationError) id, e.Internal →
          (Outcome.ofApplicationError command e id).exitCode = 13)
      ∧ (∀ command (e e' : ApplicationError) id, e.Indistinct e' →
          Outcome.ofApplicationError command e id
            = Outcome.ofApplicationError command e' id)
      ∧ ∀ command (e : RoutingError) id, (∀ cause, e ≠ .directory cause) →
          (Outcome.ofApplicationError command e.toApplication id).Tells {
            command
            errorClass := some e.errorClass
            message := e.message
            correlationId := some id } := by
  refine ⟨fun e id => ?id, fun command cause id => ⟨rfl, rfl⟩,
    fun command d id => rfl, fun command e id h => ?internal,
    fun command e e' id h => h.outcome_eq command id,
    fun command e id h => RoutingError.outcome_tells h command id⟩
  case id =>
    exact ⟨e.correlationId_toInterfaceAs id, e.sameButId_toInterfaceAs id⟩
  case internal => rw [h.outcome_eq, Outcome.Report.exit]

/-- A broken disk and a locked database have one outcome, and so have two
denials; an executor who is not there is named. -/
theorem ApplicationError.sample_causes :
    (∀ id, Outcome.ofApplicationError "can"
          (.persistence "disk I/O error at page 7") id
        = Outcome.ofApplicationError "can"
          (RoutingError.directory
            (.unavailable "database is locked")).toApplication id)
      ∧ (Outcome.ofApplicationError "can"
          (.configuration "no level") "r-1").exitCode = 13
      ∧ (∀ id, Outcome.ofApplicationError "can"
          (AccessDenied.toApplication ⟨1, "orders:delete"⟩) id
        = Outcome.ofApplicationError "can"
          (AccessDenied.toApplication ⟨2, "users:view"⟩) id)
      ∧ (Outcome.ofApplicationError "route"
          (RoutingError.executorNotFound 77).toApplication "r-2").Tells {
        command := "route"
        errorClass := some "not_found"
        message := "executor 77 does not exist or is inactive"
        correlationId := some "r-2" } := by
  obtain ⟨-, -, -, hcode, hsame, htold⟩ := causes_stay_inside
  refine ⟨fun id => hsame _ _ _ id (.internal (.persistence _) (.lookup _)),
    hcode _ _ _ (.configuration _), fun id => hsame _ _ _ id (.denied _ _), ?_⟩
  exact htold "route" (.executorNotFound 77) "r-2" nofun

end WorkRouting
