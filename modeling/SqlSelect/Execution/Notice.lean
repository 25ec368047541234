import SqlSelect.Execution.Context
import SqlSelect.Execution.Outcome
import SqlSelect.Query.Render

/-! What can be observed while a statement runs.

Durations are in nanoseconds. The observations of a run are kept as one list in the order in
which they happened. -/
namespace SqlSelect.Execution

/-- What a hook is told. -/
inductive HookNotice where
  | before (ctx : Context)
  | after (ctx : Context) (elapsed : Nat) (outcome : Outcome)
deriving DecidableEq, Repr

/-- What a monitor is told. -/
inductive MonitorNotice where
  | started (ctx : Context)
  | completed (ctx : Context) (elapsed : Nat) (outcome : Outcome)
  | slow (ctx : Context) (elapsed : Nat)
deriving DecidableEq, Repr

/-- How urgent a log event is. -/
inductive Severity where
  | error
  | warn
  | info
  | debug
  | trace
deriving DecidableEq, Repr

def Severity.name : Severity → String
  | .error => "ERROR"
  | .warn => "WARN"
  | .info => "INFO"
  | .debug => "DEBUG"
  | .trace => "TRACE"

structure LogEvent where
  severity : Severity
  target : String
  fields : List (String × String)
deriving DecidableEq, Repr

/-- The target of every event of this library. -/
def logTarget : String := "fluentsql.sql"

inductive Observation where
  /-- A statement reached the database. -/
  | statement (s : Statement)
  | hook (id : String) (notice : HookNotice)
  | monitor (id : String) (notice : MonitorNotice)
  /-- A notice that went into the statistics of this name. -/
  | counted (id : String) (notice : MonitorNotice)
  | log (event : LogEvent)
deriving DecidableEq, Repr

end SqlSelect.Execution
