import SqlSelect.Execution.Notice

/-! Running statements.

An executor answers a statement with rows or an error, and with what was observed on the way.
What rows and errors are is up to the executor. -/
namespace SqlSelect.Execution
variable {ρ ε : Type}

/-- The run of a statement. -/
structure Run (ρ ε : Type) where
  observed : List Observation
  result : Except ε ρ

abbrev Executor (ρ ε : Type) := Statement → Run ρ ε

/-- A database that gives this result to whatever it is asked. -/
def Executor.answering (result : Except ε ρ) : Executor ρ ε := fun s => ⟨[.statement s], result⟩

/-- What is logged before a query is performed. -/
def performEvent (s : Statement) : LogEvent :=
  ⟨.debug, logTarget,
    [("message", "perform"), ("sql", s.sql), ("args", Nat.repr s.args.length)]⟩

end SqlSelect.Execution

namespace SqlSelect
open Execution

/-- Hands the query's statement to an executor, once, and returns its result as it is. -/
def Query.perform {ρ ε : Type} (q : Query) (executor : Executor ρ ε) : Run ρ ε :=
  let ran := executor q.statement
  { ran with observed := .log (performEvent q.statement) :: ran.observed }

end SqlSelect
