import SqlSelect.Execution.Executor
import SqlSelect.Execution.Hook
import SqlSelect.Execution.Monitor

/-! Layers of instrumentation around an executor.

A layer tells its hook of every statement, and its monitor too once monitoring is switched on.
It never changes a statement or a result. A statement is slow when it takes strictly longer
than the threshold. -/
namespace SqlSelect.Execution
variable {ρ ε : Type}

/-- The settings of a layer. -/
structure Config where
  threshold : Option Nat := none
  enabled : Bool := false
deriving DecidableEq, Repr

namespace Config

def withThreshold (c : Config) (threshold : Nat) : Config := { c with threshold := some threshold }

def monitoring (c : Config) (enabled : Bool) : Config := { c with enabled := enabled }

def isSlow (c : Config) (elapsed : Nat) : Bool :=
  match c.threshold with
  | none => false
  | some threshold => threshold < elapsed

end Config

structure Layer where
  monitor : Monitor := .silent
  hook : Option Hook := none
  config : Config := {}
  tag : Option String := none

namespace Layer

def withConfig (l : Layer) (config : Config) : Layer := { l with config := config }

def withMonitor (l : Layer) (monitor : Monitor) : Layer := { l with monitor := monitor }

/-- Sets the hook in place of the one there was. -/
def withHook (l : Layer) (hook : Hook) : Layer := { l with hook := some hook }

/-- Adds a hook behind the one there is. -/
def addHook (l : Layer) (hook : Hook) : Layer :=
  { l with hook := some (match l.hook with
    | none => hook
    | some first => .all [first, hook]) }

def withTag (l : Layer) (tag : String) : Layer := { l with tag := some tag }

/-- Switches monitoring on or off. -/
def monitoring (l : Layer) (enabled : Bool) : Layer :=
  { l with config := l.config.monitoring enabled }

def context (l : Layer) (s : Statement) : Context :=
  { sql := s.sql, argCount := s.args.length, tag := l.tag }

/-- What is observed when the layer's hook gets a notice. -/
def tellHook (l : Layer) (notice : HookNotice) : List Observation :=
  l.hook.toList.flatMap (Hook.observations notice)

/-- What is observed when the layer's monitor gets a notice, which it does only while
monitoring is switched on. -/
def tellMonitor (l : Layer) (notice : MonitorNotice) : List Observation :=
  if l.config.enabled then l.monitor.observations notice else []

def outcome (describe : ε → String) : Except ε ρ → Outcome
  | .ok _ => .success
  | .error e => .ofError (describe e)

/-- An executor with the layer around it, where `elapsed` is what its clock measures and
`describe` words the executor's errors. -/
def around (l : Layer) (describe : ε → String) (elapsed : Nat) (inner : Executor ρ ε) :
    Executor ρ ε := fun s =>
  let ctx := l.context s
  let ran := inner s
  let outcome := outcome describe ran.result
  { observed := l.tellHook (.before ctx) ++ l.tellMonitor (.started ctx) ++ ran.observed ++
      l.tellHook (.after ctx elapsed outcome) ++ l.tellMonitor (.completed ctx elapsed outcome) ++
      if l.config.isSlow elapsed then l.tellMonitor (.slow ctx elapsed) else []
    result := ran.result }

end Layer

/-- An executor behind layers, the first one outermost, each with what its clock measures. -/
def layered (describe : ε → String) (layers : List (Layer × Nat)) (inner : Executor ρ ε) :
    Executor ρ ε :=
  layers.foldr (fun (l, elapsed) below => l.around describe elapsed below) inner

end SqlSelect.Execution
