/-
How failures leave the program. Every failure becomes one of a few application
errors, which know what happened, and those become interface errors, which know
only what a caller may be told and under which correlation id it was logged.
-/
import WorkRouting.Access.Decision
import WorkRouting.Routing.Resolution

namespace WorkRouting

-- ================================================== inside

inductive DomainError where
  | badRequest (cause : String)
  | notFound (cause : String)
  | forbidden (denied : AccessDenied)
  deriving DecidableEq, Repr

def DomainError.message : DomainError → String
  | badRequest cause => s!"bad request: {cause}"
  | notFound cause => s!"not found: {cause}"
  | forbidden denied => denied.message

inductive ApplicationError where
  | domain (error : DomainError)
  | persistence (cause : String)
  | configuration (cause : String)
  deriving DecidableEq, Repr

def ApplicationError.message : ApplicationError → String
  | domain error => error.message
  | persistence cause => s!"persistence failure: {cause}"
  | configuration cause => s!"configuration failure: {cause}"

def AccessDenied.toApplication (d : AccessDenied) : ApplicationError :=
  .domain (.forbidden d)

/-- A missing executor was asked for by id and is not found; an order that
nobody answers for is a bad request; a lookup that failed is nobody's fault but
the store's. -/
def RoutingError.toApplication (e : RoutingError) : ApplicationError :=
  match e with
  | executorNotFound _ => .domain (.notFound e.message)
  | noOrganizationalUnit | noHolderForPositionType _
  | noHolderForPosition .. =>
      .domain (.badRequest e.message)
  | directory error => .persistence error.message

-- ================================================== outside

inductive InterfaceError where
  | badRequest (cause correlationId : String)
  | notFound (cause correlationId : String)
  | forbidden (correlationId : String)
  | internal (cause correlationId : String)
  deriving DecidableEq, Repr

namespace InterfaceError

def message : InterfaceError → String
  | badRequest cause _ => s!"bad request: {cause}"
  | notFound cause _ => s!"not found: {cause}"
  | forbidden _ => "forbidden"
  | internal cause _ => s!"internal error: {cause}"

/-- What a caller is told. Causes of denials and of internal errors stay
inside. -/
def userMessage : InterfaceError → String
  | badRequest cause _ | notFound cause _ => cause
  | forbidden _ => "You do not have permission to perform this action."
  | internal .. => "An unexpected internal error occurred."

def correlationId : InterfaceError → String
  | badRequest _ id | notFound _ id | forbidden id | internal _ id => id

/-- The same error under another correlation id. -/
def withCorrelationId (id : String) : InterfaceError → InterfaceError
  | badRequest cause _ => badRequest cause id
  | notFound cause _ => notFound cause id
  | forbidden _ => forbidden id
  | internal cause _ => internal cause id

/-- The class that a caller sees. -/
def errorClass : InterfaceError → String
  | badRequest .. => "bad_request"
  | notFound .. => "not_found"
  | forbidden _ => "forbidden"
  | internal .. => "internal"

def exitCode : InterfaceError → Nat
  | badRequest .. => 10
  | notFound .. => 11
  | forbidden _ => 12
  | internal .. => 13

end InterfaceError

namespace ApplicationError

/-- The correlation id of an error that nobody has given one. -/
def unassigned : String := "unassigned"

/-- What leaves the program, without a correlation id of its own. -/
def toInterface : ApplicationError → InterfaceError
  | domain (.badRequest cause) => .badRequest cause unassigned
  | domain (.notFound cause) => .notFound cause unassigned
  | domain (.forbidden _) => .forbidden unassigned
  | persistence cause | configuration cause => .internal cause unassigned

/-- What leaves the program under a correlation id. -/
def toInterfaceAs (e : ApplicationError) (correlationId : String) :
    InterfaceError :=
  e.toInterface.withCorrelationId correlationId

end ApplicationError

end WorkRouting
