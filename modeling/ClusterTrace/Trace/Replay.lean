import ClusterTrace.Trace.Cluster
import ClusterTrace.Trace.Event

/-!
# Replaying a trace

A `Replay` is what is known after some events. `Replay.process` takes one more event: it gives the
new state and, if the row does not fit, the fault. A row that does not fit changes at most the last
tick seen and the task that it names, and later rows may follow all the same. `Replay.finish` closes
the placements that are still running and checks the references between tasks, graphs and pools.

`replay` runs the events of a trace in order and stops at the first fault.
-/

namespace ClusterTrace

/-- A placement that is not completed yet. -/
structure Running where
  /-- The tick at which the task was placed. -/
  start : Nat
  shares : List (Share Double)
deriving DecidableEq

/-- What is known of a task. -/
structure TaskHistory where
  /-- The completed placements. -/
  placements : List (Placement Double)
  /-- The placement under way. -/
  running : Option Running
deriving DecidableEq

/-- A task that was named and nothing else. -/
def TaskHistory.fresh : TaskHistory := ⟨[], none⟩

/-- A task is named by its graph and its own name. -/
structure TaskKey where
  graph : String
  task : String
deriving DecidableEq

/-- What is known after some events. -/
structure Replay where
  pools : Keyed String (WorkerPool Double)
  graphs : Keyed String TaskGraph
  tasks : Keyed TaskKey TaskHistory
  /-- The largest tick of an event. -/
  lastTick : Nat
  /-- The tick at which the simulation ended. -/
  endMark : Option Nat

/-! ## What the rows hold -/

namespace Event

/-- Reads the quantity of a resource: a finite number that is not negative. A number that is neither
is reported in its plain form. -/
def quantity (e : Event) (text : String) : Except TraceFault Double :=
  (e.parse Double.read? text "resource_quantity").bind fun x =>
    if !x.isFinite || x.less Double.zero then
      .error (e.notNumeric "resource_quantity" (NumberStyle.plain.text x))
    else .ok x

/-- Reads pairs of a resource name and a quantity. -/
def pairs (e : Event) : List String → Except TraceFault (List (Share Double))
  | name :: text :: rest =>
    (e.quantity text).bind fun x => (e.pairs rest).map fun shares => ⟨name, x⟩ :: shares
  | _ => .ok []

/-- Reads the resources in the parameters from an index on. -/
def shares (e : Event) (start : Nat) : Except TraceFault (List (Share Double)) :=
  let fields := e.paramsFrom start
  if fields.length % 2 = 0 then e.pairs fields
  else .error (e.malformed (.unpairedResource e.kind))

/-- The pool that a row declares. -/
def pool (e : Event) : Except TraceFault (WorkerPool Double) :=
  (e.param 0 "pool_id").bind fun id => (e.shares 1).map fun resources => ⟨id, resources⟩

def releasedGraph (e : Event) : Except TraceFault TaskGraph := do
  let releaseTick ← e.parseParam readNatural? 0 "release_tick"
  let deadlineTick ← e.parseParam readNatural? 1 "deadline_tick"
  let id ← e.param 2 "task_graph_id"
  let criticalPath ← e.parseLast readNatural? "critical_path_runtime"
  return { id, releaseTick, deadlineTick, criticalPath,
           completed := false, missedDeadline := false, cancelled := false }

/-- The name of the graph that a row is about. -/
def graphId (e : Event) : Except TraceFault String := e.param 0 "task_graph_id"

/-- The task that a row is about. -/
def taskKey (e : Event) : Except TraceFault TaskKey := do
  let graph ← e.param 0 "task_graph_id"
  let task ← e.param 1 "task_id"
  return { graph, task }

end Event

namespace Replay

/-- The state before the first event. -/
def start : Replay := ⟨.empty, .empty, .empty, 0, none⟩

/-- A state and what was wrong with the row that led to it. -/
abbrev Outcome := Replay × Option TraceFault

def history (r : Replay) (key : TaskKey) : TaskHistory := (r.tasks.get? key).getD .fresh

/-- Writes what is known of a task. -/
def setHistory (r : Replay) (key : TaskKey) (h : TaskHistory) : Replay :=
  { r with tasks := r.tasks.insert key h }

/-! ## Rows about pools and graphs -/

/-- Declares a pool, perhaps again. -/
def declarePool (r : Replay) (e : Event) : Outcome :=
  match e.pool with
  | .ok pool => ({ r with pools := r.pools.insert pool.id pool }, none)
  | .error fault => (r, some fault)

/-- Releases a task graph, perhaps again. -/
def releaseGraph (r : Replay) (e : Event) : Outcome :=
  match e.releasedGraph with
  | .ok graph => ({ r with graphs := r.graphs.insert graph.id graph }, none)
  | .error fault => (r, some fault)

/-- Marks a task graph that was released before. -/
def markGraph (r : Replay) (e : Event) (mark : TaskGraph → TaskGraph) : Outcome :=
  match e.graphId with
  | .error fault => (r, some fault)
  | .ok id =>
    match r.graphs.get? id with
    | none => (r, some (e.malformed (.graphNotReleased e.kind id)))
    | some graph => ({ r with graphs := r.graphs.insert id (mark graph) }, none)

/-! ## Rows about tasks -/

def nameTask (r : Replay) (e : Event) : Outcome :=
  match e.taskKey with
  | .error fault => (r, some fault)
  | .ok key => (r.setHistory key (r.history key), none)

/-- Places a task that does not run. -/
def placeTask (r : Replay) (e : Event) : Outcome :=
  match e.shares 2 with
  | .error fault => (r, some fault)
  | .ok shares =>
    match e.taskKey with
    | .error fault => (r, some fault)
    | .ok key =>
      let h := r.history key
      match h.running with
      | some _ => (r, some (e.malformed (.alreadyRunning key.task)))
      | none => (r.setHistory key { h with running := some ⟨e.tick, shares⟩ }, none)

/-- Ends the placement of a task that runs. A placement that would end before it began is dropped.
-/
def endTask (r : Replay) (e : Event) : Outcome :=
  match e.taskKey with
  | .error fault => (r, some fault)
  | .ok key =>
    let h := r.history key
    match h.running with
    | none => (r.setHistory key h, some (e.malformed (.notRunning key.task)))
    | some current =>
      if e.tick < current.start then
        (r.setHistory key { h with running := none },
          some (e.malformed (.endsBeforePlacement key.task e.tick current.start)))
      else
        let placement := ⟨current.start, e.tick, current.shares⟩
        (r.setHistory key ⟨h.placements ++ [placement], none⟩, none)

/-! ## All rows -/

/-- Takes one more event. -/
def process (r : Replay) (e : Event) : Outcome :=
  let r := { r with lastTick := max r.lastTick e.tick }
  match e.kind? with
  | some .workerPool => r.declarePool e
  | some .graphRelease => r.releaseGraph e
  | some .graphFinished => r.markGraph e fun g => { g with completed := true }
  | some .missedDeadline => r.markGraph e fun g => { g with missedDeadline := true }
  | some .graphCancel => r.markGraph e fun g => { g with cancelled := true }
  | some .taskRelease => r.nameTask e
  | some .taskPlacement => r.placeTask e
  | some .taskFinished | some .taskPreempt => r.endTask e
  | some .simulatorEnd => ({ r with endMark := some e.tick }, none)
  | some .schedulerStart | some .schedulerFinished | some .logStats | none => (r, none)

/-- Takes events one after the other, whether they fit or not. -/
def processAll (r : Replay) (events : List Event) : Replay :=
  events.foldl (fun r e => (r.process e).1) r

/-- Takes events one after the other, up to the first fault. -/
def run (r : Replay) : List Event → Except TraceFault Replay
  | [] => .ok r
  | e :: rest =>
    match r.process e with
    | (r, none) => r.run rest
    | (_, some fault) => .error fault

/-! ## The end of the trace -/

/-- The tick at which the placements that still run are closed. -/
def endTick (r : Replay) : Nat := r.endMark.getD r.lastTick

/-- The placements of a task when the trace ends at a tick. A running one is not closed before it
began. -/
def closedPlacements (endTick : Nat) (h : TaskHistory) : List (Placement Double) :=
  match h.running with
  | none => h.placements
  | some current => h.placements ++ [⟨current.start, max endTick current.start, current.shares⟩]

/-- The cluster when the trace ends here. -/
def cluster (r : Replay) : Cluster Double where
  pools := r.pools.values
  graphs := r.graphs
  tasks := r.tasks.entries.map fun (key, h) => ⟨key.task, key.graph, closedPlacements r.endTick h⟩

/-- What is wrong with the references of a task: first its graph, then, if they are checked, its
resources. -/
def referenceFault? (checkResources : Bool) (c : Cluster Double) (t : Task Double) :
    Option TraceFault :=
  if !c.graphs.contains t.graph then some (.unknownGraph t.id t.graph)
  else if checkResources then
    ((t.placements.flatMap Placement.shares).find? fun s => !c.provides s.name).map fun s =>
      .unknownResource t.id s.name
  else none

/-- The cluster when the trace ends here, if all references in it are good. -/
def finish (r : Replay) (checkResources : Bool) : Except TraceFault (Cluster Double) :=
  let c := r.cluster
  match c.tasks.findSome? (referenceFault? checkResources c) with
  | some fault => .error fault
  | none => .ok c

end Replay

/-- The cluster of a whole trace. -/
def replay (events : List Event) (checkResources : Bool) : Except TraceFault (Cluster Double) :=
  (Replay.start.run events).bind fun r => r.finish checkResources

end ClusterTrace
