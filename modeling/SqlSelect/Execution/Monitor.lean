import SqlSelect.Execution.Notice

/-! Monitors see the statements of a layer that has monitoring switched on.

A composite monitor passes each notice on to its members in order, so only its leaves
show anything. -/
namespace SqlSelect.Execution

inductive Monitor where
  | silent
  /-- Counts into the statistics of this name. -/
  | stats (id : String)
  | observer (id : String)
  | all (monitors : List Monitor)

namespace Monitor

mutual

/-- The monitors that are not composed of others, in the order they are told. -/
def leaves : Monitor → List Monitor
  | .all monitors => leavesOfAll monitors
  | monitor => [monitor]

def leavesOfAll : List Monitor → List Monitor
  | [] => []
  | monitor :: monitors => monitor.leaves ++ leavesOfAll monitors

end

mutual

/-- What is observed when a monitor gets a notice. -/
def observations (notice : MonitorNotice) : Monitor → List Observation
  | .silent => []
  | .stats id => [.counted id notice]
  | .observer id => [.monitor id notice]
  | .all monitors => observationsOfAll notice monitors

def observationsOfAll (notice : MonitorNotice) : List Monitor → List Observation
  | [] => []
  | monitor :: monitors => monitor.observations notice ++ observationsOfAll notice monitors

end

end Monitor

end SqlSelect.Execution
