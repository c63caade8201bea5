import ClusterTrace.Keyed
import ClusterTrace.Number.Scalar

/-!
# The cluster of a trace

What a trace says about one cluster: its worker pools with their resources, the task graphs, and the
tasks with the placements that they had. Quantities are of any number type.
-/

namespace ClusterTrace

/-- An amount of a named resource. -/
structure Share (α : Type) where
  name : String
  /-- How much of it, perhaps a fraction. -/
  quantity : α
deriving DecidableEq

/-- A stay of a task on some resources: at every tick from `start` on and before `completion`. -/
structure Placement (α : Type) where
  /-- The tick at which the task is placed. -/
  start : Nat
  /-- The tick from which on it no longer runs. -/
  completion : Nat
  shares : List (Share α)
deriving DecidableEq

/-- The number of ticks of a placement. -/
def Placement.duration {α : Type} (p : Placement α) : Nat := p.completion - p.start

structure Task (α : Type) where
  /-- The name of the task in its graph. -/
  id : String
  /-- The task graph it belongs to. -/
  graph : String
  /-- Its placements, several if it was preempted and placed again. -/
  placements : List (Placement α)
deriving DecidableEq

/-- A graph of tasks with a common deadline. -/
structure TaskGraph where
  /-- The name of the graph. -/
  id : String
  releaseTick : Nat
  /-- The tick by which it should be finished. -/
  deadlineTick : Nat
  /-- The time that its longest chain of tasks takes. -/
  criticalPath : Nat
  completed : Bool
  missedDeadline : Bool
  cancelled : Bool
deriving DecidableEq

/-- The use of resources by the tasks of the graph counts as good. -/
def TaskGraph.isGood (g : TaskGraph) : Bool := g.completed && !g.missedDeadline

structure WorkerPool (α : Type) where
  /-- The name of the pool. -/
  id : String
  /-- Its resources; a name may occur several times. -/
  resources : List (Share α)
deriving DecidableEq

def WorkerPool.capacityOf {α : Type} [Scalar α] (pool : WorkerPool α) (resource : String) : α :=
  Scalar.sum ((pool.resources.filter fun s => s.name = resource).map Share.quantity)

def WorkerPool.provides {α : Type} (pool : WorkerPool α) (resource : String) : Bool :=
  pool.resources.any fun s => s.name = resource

/-- All that a trace says about one cluster. -/
structure Cluster (α : Type) where
  pools : List (WorkerPool α)
  graphs : Keyed String TaskGraph
  tasks : List (Task α)

namespace Cluster

variable {α : Type}

/-- The amount of a resource in all pools. -/
def capacity [Scalar α] (c : Cluster α) (resource : String) : α :=
  Scalar.sum (c.pools.map fun pool => pool.capacityOf resource)

def provides (c : Cluster α) (resource : String) : Bool :=
  c.pools.any fun pool => pool.provides resource

/-- The use of resources by the tasks of the named graph counts as good; that of an unknown graph
does not. -/
def isGoodGraph (c : Cluster α) (graph : String) : Bool :=
  match c.graphs.get? graph with
  | some g => g.isGood
  | none => false

end Cluster

end ClusterTrace
