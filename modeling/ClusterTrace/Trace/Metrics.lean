import ClusterTrace.Trace.Event
import ClusterTrace.Number.Scalar

/-!
# Metrics of a trace

What single rows of a trace say about the run: the attainment and the counts in the last row of
statistics, the runtimes and the load of the scheduler, and the slack of the released task graphs.
-/

namespace ClusterTrace

/-! ## The row of statistics -/

/-- The numbers of task graphs in a row of statistics. -/
structure GraphCounts where
  /-- Finished and cancelled ones, at most the largest number of 64 bits. -/
  total : Nat
  finished : Nat
  cancelled : Nat
  missedDeadline : Nat
deriving DecidableEq

/-- A row of statistics. Its two parts stand for themselves: counts that cannot be read are left
out, and an attainment that cannot be read is a fault only for those who ask for it. -/
structure LogStats where
  tick : Nat
  /-- The counts, or why they cannot be read. -/
  counted : Except TraceFault GraphCounts
  /-- The part of the task graphs that met their deadline, between zero and one. -/
  attainment : Except TraceFault Double

/-- Why there is no attainment. -/
inductive SloFault where
  /-- The trace has no row of statistics. -/
  | noLogStats
  /-- The attainment cannot be read. -/
  | badAttainment (fault : TraceFault)
deriving DecidableEq

/-- The wording of a missing metric. -/
def SloFault.message : SloFault → String
  | .noLogStats => "trace has no LOG_STATS event"
  | .badAttainment fault => fault.message

namespace Event

/-- Reads a count, which may be written as a double: a whole number that is not negative. One past
64 bits counts as the largest number of 64 bits. -/
def parseCount (e : Event) (index : Nat) (field : String) : Except TraceFault Nat :=
  (e.param index field).bind fun text =>
    (e.parse Double.read? text field).bind fun x =>
      if x.isWhole && !x.less Double.zero then .ok x.floor else .error (e.notNumeric field text)

/-- Reads the counts of a row of statistics. -/
def parseCounts (e : Event) : Except TraceFault GraphCounts := do
  let finished ← e.parseCount 3 "finished"
  let cancelled ← e.parseCount 4 "cancelled"
  let missedDeadline ← e.parseCount 5 "missed_deadline"
  return { total := min Double.maxWord (finished + cancelled), finished, cancelled, missedDeadline }

/-- Reads a row of statistics. -/
def logStats (e : Event) : LogStats where
  tick := e.tick
  counted := e.parseCounts
  attainment := e.parseParam Double.read? 6 "attainment"

end Event

namespace LogStats

/-- The counts, if they can be read. -/
def counts? (s : LogStats) : Option GraphCounts := s.counted.toOption

/-- The attainment in percent. -/
def slo (s : LogStats) : Except TraceFault Double :=
  s.attainment.map fun x => x * Double.ofNat 100

end LogStats

/-- The attainment in percent of a row of statistics that may be absent. -/
def sloOf : Option LogStats → Except SloFault Double
  | none => .error .noLogStats
  | some s => s.slo.mapError .badAttainment

/-! ## Rows of the scheduler -/

/-- The load of the scheduler when it starts. -/
structure SchedulerLoad where
  tick : Nat
  /-- The tasks that could be placed. -/
  schedulable : Nat
  placed : Nat
deriving DecidableEq

def microsPerSecond : Double := Double.ofNat 1000000

namespace Event

/-- Reads the runtime in seconds of a scheduler call, if the call placed or unplaced any task. -/
def schedulerRuntime? (e : Event) : Except TraceFault (Option Double) := do
  let first ← e.parseParam readNatural? 1 "first_count"
  let second ← e.parseParam readNatural? 2 "second_count"
  if first = 0 ∧ second = 0 then return none
  let runtime ← e.parseLast Double.read? "runtime_us"
  return some (runtime / microsPerSecond)

def schedulerLoad (e : Event) : Except TraceFault SchedulerLoad := do
  let schedulable ← e.parseParam readNatural? 0 "schedulable_tasks"
  let placed ← e.parseParam readNatural? 1 "placed_tasks"
  return { tick := e.tick, schedulable, placed }

/-- A sum of signed numbers of 64 bits: past either end it goes on from the other. -/
def wrapped (n : Int) : Int := n.bmod (Nat.pow 2 64)

/-- Reads the slack of a released task graph: the time left when its longest chain of tasks starts
at the release and ends before the deadline. -/
def slack (e : Event) : Except TraceFault Int := do
  let release ← e.parseParam readInteger? 0 "release_tick"
  let deadline ← e.parseParam readInteger? 1 "deadline_tick"
  let criticalPath ← e.parseLast readInteger? "critical_path_runtime"
  return wrapped (deadline - wrapped (release + criticalPath))

end Event

/-! ## Whole traces -/

namespace Metrics

/-- A value for each of some events, or the first fault. -/
def readEach {α : Type} (read : Event → Except TraceFault α) :
    List Event → Except TraceFault (List α)
  | [] => .ok []
  | e :: rest => (read e).bind fun x => (readEach read rest).map fun xs => x :: xs

def eventsOf (kind : EventKind) (events : List Event) : List Event :=
  events.filter fun e => e.is kind

/-- The last row of statistics. -/
def lastLogStats? (events : List Event) : Option LogStats :=
  (eventsOf .logStats events).getLast?.map Event.logStats

/-- The attainment in percent of the last row of statistics. -/
def slo (events : List Event) : Except SloFault Double := sloOf (lastLogStats? events)

/-- The runtimes in seconds of the scheduler calls that placed or unplaced any task. -/
def schedulerRuntimes (events : List Event) : Except TraceFault (List Double) :=
  (readEach Event.schedulerRuntime? (eventsOf .schedulerFinished events)).map fun runtimes =>
    runtimes.filterMap id

def schedulerLoads (events : List Event) : Except TraceFault (List SchedulerLoad) :=
  readEach Event.schedulerLoad (eventsOf .schedulerStart events)

/-- The slacks of the task graphs in order of release. -/
def slacks (events : List Event) : Except TraceFault (List Int) :=
  readEach Event.slack (eventsOf .graphRelease events)

/-- The trace ends with the end of the simulation. -/
def isComplete (events : List Event) : Bool :=
  match events.getLast? with
  | some e => e.is .simulatorEnd
  | none => false

end Metrics

end ClusterTrace
