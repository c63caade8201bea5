import ClusterTrace.Trace.Metrics
import ClusterTrace.Trace.Replay
import ClusterTrace.Trace.Rows
import ClusterTrace.Usage.Overview

/-!
# The analysis of a trace

All that is computed from the events of one trace. The first fault stops it; the parts are computed
in the order cluster, scheduler runtimes, scheduler loads, slacks, so that this order decides
between faults of several parts.
-/

namespace ClusterTrace

structure TraceAnalysis where
  events : List Event
  cluster : Cluster Double
  /-- The account of its resources. -/
  usage : ClusterUsage Double
  /-- The last row of statistics. -/
  logStats : Option LogStats
  /-- The runtimes of the scheduler in seconds. -/
  schedulerRuntimes : List Double
  schedulerLoads : List SchedulerLoad
  /-- The slacks of the task graphs. -/
  slacks : List Int
  /-- The trace ends with the end of the simulation. -/
  complete : Bool

namespace TraceAnalysis

def ofEvents (events : List Event) (checkResources : Bool) : Except TraceFault TraceAnalysis := do
  let cluster ← replay events checkResources
  let runtimes ← Metrics.schedulerRuntimes events
  let loads ← Metrics.schedulerLoads events
  let slacks ← Metrics.slacks events
  return {
    events
    cluster
    usage := cluster.usage
    logStats := Metrics.lastLogStats? events
    schedulerRuntimes := runtimes
    schedulerLoads := loads
    slacks
    complete := Metrics.isComplete events }

def ofBytes (bytes : Bytes) (checkResources : Bool) : Except TraceFault TraceAnalysis :=
  (readTrace bytes).bind fun events => ofEvents events checkResources

/-- Analyses a trace given line by line. -/
def ofLines (lines : List String) (checkResources : Bool) : Except TraceFault TraceAnalysis :=
  ofBytes (Utf8.encode ("\n".intercalate lines)) checkResources

/-- The attainment in percent. -/
def slo (a : TraceAnalysis) : Except SloFault Double := sloOf a.logStats

/-- The counts of the last row of statistics, if they can be read. -/
def graphCounts? (a : TraceAnalysis) : Option GraphCounts := a.logStats.bind LogStats.counts?

end TraceAnalysis

end ClusterTrace
