import SqlSelect.Text.Clip

/-! How the run of a statement ended, as hooks and monitors see it. -/
namespace SqlSelect.Execution

inductive Outcome where
  | success
  | error (message : String)
deriving DecidableEq, Repr

namespace Outcome

/-- The longest message kept whole, in bytes. -/
def messageBudget : Nat := 512

/-- A failure, with its message shortened if it is long. -/
def ofError (message : String) : Outcome := .error (Text.ellipsized messageBudget message)

def isError : Outcome → Bool
  | .success => false
  | .error _ => true

def message? : Outcome → Option String
  | .success => none
  | .error message => some message

def text : Outcome → String
  | .success => "ok"
  | .error message => "error: " ++ message

end Outcome

end SqlSelect.Execution
