import SqlSelect.Execution.Notice

/-! Hooks see every statement before and after it runs.

A composite hook passes each notice on to its members in order, so only its leaves show
anything. -/
namespace SqlSelect.Execution

/-- Writes statements to the log before they run, and failures after. -/
structure LogHook where
  severity : Severity := .debug
  /-- The longest SQL text written whole, in bytes. -/
  maxSql : Option Nat := some 200
deriving DecidableEq, Repr

namespace LogHook

def shortened (h : LogHook) (sql : String) : String :=
  match h.maxSql with
  | none => sql
  | some budget => Text.ellipsized budget sql

/-- The whole milliseconds in a duration, as a 64-bit count. -/
def milliseconds (elapsed : Nat) : Nat := elapsed / 1000000 % 18446744073709551616

def events (h : LogHook) : HookNotice → List LogEvent
  | .before ctx =>
    [⟨h.severity, logTarget, [("tag", ctx.tagText), ("arg_count", Nat.repr ctx.argCount),
      ("sql", h.shortened ctx.sql), ("fields", ctx.fieldsText)]⟩]
  | .after _ _ .success => []
  | .after ctx elapsed (.error message) =>
    [⟨.warn, logTarget, [("message", "query failed"), ("tag", ctx.tagText),
      ("elapsed_ms", Nat.repr (milliseconds elapsed)), ("error", message)]⟩]

end LogHook

inductive Hook where
  | quiet
  | observer (id : String)
  | log (hook : LogHook)
  | all (hooks : List Hook)

namespace Hook

mutual

/-- The hooks that are not composed of others, in the order they are told. -/
def leaves : Hook → List Hook
  | .all hooks => leavesOfAll hooks
  | hook => [hook]

def leavesOfAll : List Hook → List Hook
  | [] => []
  | hook :: hooks => hook.leaves ++ leavesOfAll hooks

end

mutual

/-- What is observed when a hook gets a notice. -/
def observations (notice : HookNotice) : Hook → List Observation
  | .quiet => []
  | .observer id => [.hook id notice]
  | .log hook => (hook.events notice).map .log
  | .all hooks => observationsOfAll notice hooks

def observationsOfAll (notice : HookNotice) : List Hook → List Observation
  | [] => []
  | hook :: hooks => hook.observations notice ++ observationsOfAll notice hooks

end

/-- How many hooks a composite holds itself; any other hook counts as one. -/
def size : Hook → Nat
  | .all hooks => hooks.length
  | _ => 1

end Hook

end SqlSelect.Execution
