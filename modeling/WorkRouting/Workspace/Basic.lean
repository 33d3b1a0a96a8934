/-
The program at work: commands over environment variables and a tree of files.
A command that needs a database loads the settings, opens the database that
they name, works on it and leaves it behind as the work left it, also where the
work failed.
-/
import WorkRouting.Command.Answer
import WorkRouting.Command.Line
import WorkRouting.Settings.Report
import WorkRouting.Workspace.Connection

namespace WorkRouting

-- ================================================== failures

/-- Why a command has no answer. -/
inductive CommandFailure where
  | settings (error : SettingsError)
  | connection (error : ConnectionError)
  | work (error : WorkError)
  deriving DecidableEq, Repr

/-- The result of a command that failed. What went wrong outside the
application is told as it is; the rest is told as the interface allows. -/
def Outcome.ofFailure (command correlationId : String) :
    CommandFailure → Outcome
  | .settings e =>
      failure command "config_validation"
        s!"configuration issue: {e.message}" 2
  | .connection e => failure command "db_connectivity" e.message 4
  | .work (.migration e) =>
      failure command "migration"
        s!"while executing migrations: {e.reported}" 5
  | .work (.seeding e) =>
      failure command "seed_execution" (ReadError.refused e).message 6
  | .work (.application e) => ofApplicationError command e correlationId

-- ================================================== commands

structure Workspace where
  env : Environment := {}
  tree : Tree := {}

namespace Workspace

/-- What commands see of the workspace. -/
def surroundings (w : Workspace) : Surroundings := ⟨w.env, w.tree.content⟩

/-- Works on the database that the settings name. -/
def onDatabase (w : Workspace)
    (work : Session → Session × Except WorkError α) :
    Workspace × Except CommandFailure α :=
  match Settings.load w.surroundings {} with
  | .error e => (w, .error (.settings e))
  | .ok s =>
      match w.tree.connect s.url with
      | .error e => (w, .error (.connection e))
      | .ok opened =>
          let (session, answer) := work opened.session
          ({ w with tree := w.tree.closed { opened with session } },
            answer.mapError .work)

/-- Works on the database and tells what came of it. -/
def reporting (w : Workspace) (command correlationId : String)
    (work : Session → Session × Except WorkError α) (tell : α → Outcome) :
    Workspace × Outcome :=
  match w.onDatabase work with
  | (w, .ok answer) => (w, tell answer)
  | (w, .error e) => (w, .ofFailure command correlationId e)

/-- Performs a command. An error that is logged is logged under the
correlation id. -/
def perform (w : Workspace) (correlationId : String) :
    Command → Workspace × Outcome
  | .migrate =>
      w.reporting "migrate" correlationId (·.migrate) fun _ => .ofMigration
  | .seed => w.reporting "seed" correlationId (·.seed) .ofSummary
  | .config => (w, ⟨0, Settings.report w.surroundings⟩)
  | .route order executor =>
      w.reporting "route" correlationId (·.ask (·.executorOf order executor))
        .ofResolution
  | .predefinedRoute orderType =>
      w.reporting "predefined-route" correlationId
        (·.ask (·.unitsOf orderType)) (.ofPredefinedRoute orderType)
  | .can q =>
      match q.permission? with
      | .error e => (w, .ofApplicationError "can" e correlationId)
      | .ok p =>
          w.reporting "can" correlationId (·.ask (·.evaluate q p))
            (.ofDecision q.user p)

/-- Runs the program on its arguments; what it prints ends its line. A command
line that is no command prints nothing here. -/
def run (w : Workspace) (correlationId : String) (args : List String) :
    Workspace × Outcome :=
  match CommandLine.parse args with
  | .error e => (w, ⟨e.exitCode, ""⟩)
  | .ok command =>
      let (w, outcome) := w.perform correlationId command
      (w, { outcome with output := outcome.output ++ "\n" })

end Workspace

end WorkRouting
