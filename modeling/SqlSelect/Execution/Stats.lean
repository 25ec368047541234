import SqlSelect.Execution.Notice

/-! Statistics over completed statements.

A meter keeps 64-bit words. Its counters wrap. A duration is cut down to the largest word before
it counts, and where adding it makes the total wrap, the total is set to the largest word
(`Meter.addTime`). A statement becomes the slowest only by taking strictly longer than every one
before it (`Meter.raise`). `Stats` is what a meter shows. -/
namespace SqlSelect.Execution

/-- What a meter shows. Durations are in nanoseconds. -/
structure Stats where
  total : UInt64 := 0
  failed : UInt64 := 0
  slow : UInt64 := 0
  totalNanos : Nat := 0
  maxNanos : Nat := 0
  slowest : Option String := none
deriving DecidableEq, Repr

/-- The words of a meter, and the SQL of the slowest statement. -/
structure Meter where
  total : UInt64 := 0
  failed : UInt64 := 0
  slow : UInt64 := 0
  totalNanos : UInt64 := 0
  maxNanos : UInt64 := 0
  slowest : Option String := none
deriving DecidableEq, Repr

namespace Meter

/-- The largest word. -/
def ceiling : UInt64 := 18446744073709551615

/-- A number of nanoseconds as a word, the largest one if it does not fit. -/
def capped (nanos : Nat) : UInt64 :=
  if nanos < UInt64.size then UInt64.ofNat nanos else ceiling

/-- The sum of two words, if it is a word. -/
def checkedSum? (a b : UInt64) : Option UInt64 :=
  if a.toNat + b.toNat < UInt64.size then some (a + b) else none

/-- Adds to the total, which becomes the largest word if the sum is none. -/
def addTime (m : Meter) (nanos : UInt64) : Meter :=
  let added := { m with totalNanos := m.totalNanos + nanos }
  if (checkedSum? m.totalNanos nanos).isNone then { added with totalNanos := ceiling } else added

def countFailure (m : Meter) (outcome : Outcome) : Meter :=
  if outcome.isError then { m with failed := m.failed + 1 } else m

/-- A time above the maximum becomes the maximum, and the SQL goes with it. -/
def raise (m : Meter) (nanos : UInt64) (sql : String) : Meter :=
  if m.maxNanos < nanos then { m with maxNanos := nanos, slowest := some sql } else m

/-- The meter after one more completed statement. -/
def complete (m : Meter) (ctx : Context) (elapsed : Nat) (outcome : Outcome) : Meter :=
  let nanos := capped elapsed
  let counted := { m with total := m.total + 1 }
  ((counted.addTime nanos).countFailure outcome).raise nanos ctx.sql

/-- The meter after one more notice. -/
def next (m : Meter) : MonitorNotice → Meter
  | .started _ => m
  | .completed ctx elapsed outcome => m.complete ctx elapsed outcome
  | .slow .. => { m with slow := m.slow + 1 }

/-- The meter with everything forgotten. -/
def reset (_ : Meter) : Meter := {}

def stats (m : Meter) : Stats where
  total := m.total
  failed := m.failed
  slow := m.slow
  totalNanos := m.totalNanos.toNat
  maxNanos := m.maxNanos.toNat
  slowest := m.slowest

end Meter

/-! ### Statistics by name -/

/-- The meters known so far, each under its name, first named first. -/
structure Board where
  meters : List (String × Meter) := []

namespace Board

/-- What the meters show. -/
def entries (b : Board) : List (String × Stats) := b.meters.map fun entry => (entry.1, entry.2.stats)

/-- Makes sure that a name is known. -/
def enroll (b : Board) (id : String) : Board :=
  if b.meters.any (·.1 == id) then b else ⟨b.meters ++ [(id, ({} : Meter))]⟩

/-- Changes the meter of a name. -/
def update (b : Board) (id : String) (f : Meter → Meter) : Board :=
  ⟨b.meters.map fun entry => if entry.1 = id then (id, f entry.2) else entry⟩

def reset (b : Board) (id : String) : Board := b.update id Meter.reset

/-- Takes one observation into account. -/
def count (b : Board) : Observation → Board
  | .counted id notice => (b.enroll id).update id (·.next notice)
  | _ => b

def countAll (b : Board) (observed : List Observation) : Board := observed.foldl count b

end Board

end SqlSelect.Execution
