import ClusterTrace.Trace.Cluster

/-!
# The account of resource usage

Which part of the installed resources was in use, tick by tick, and how much of it for a good
purpose. A placement holds its shares at each of its ticks; they count as *good* if the task's graph
was finished without missing its deadline, else as *bad*.

The account covers the *window* of the ticks before the last tick at which any share is held
(`Cluster.lastHeldTick`). For every resource in use it gives the series of the loads of the window,
and two ratios of use to what was installed: the good use alone, and all use.
-/

namespace ClusterTrace

/-- The amounts of a resource in use at one tick. -/
structure Load (α : Type) where
  /-- For graphs that are good. -/
  good : α
  /-- For all others. -/
  bad : α
deriving DecidableEq

/-- Why no ratio can be given. -/
inductive Degeneracy where
  /-- No pool has any of the resource. -/
  | zeroCapacity
  /-- There is no tick in the window. -/
  | emptyWindow
deriving DecidableEq

/-- The account of one resource. -/
structure ResourceUsage (α : Type) where
  /-- The amount installed. -/
  capacity : α
  /-- The good use, as a part of what was installed over the window. -/
  effective : α
  /-- The good and the bad use, as a part of what was installed over the window. -/
  total : α
  /-- The loads at the ticks of the window. -/
  series : Array (Load α)
  /-- Why the two ratios are set to zero, if they are. -/
  degenerate : Option Degeneracy

/-- The account of a cluster. -/
structure ClusterUsage (α : Type) where
  /-- The number of ticks in the window. -/
  endTick : Nat
  /-- The accounts of the resources, in the order in which the placements first use them. -/
  resources : Keyed String (ResourceUsage α)

/-- One share held over some ticks. -/
structure Holding (α : Type) where
  /-- The use counts as good. -/
  good : Bool
  /-- The first tick. -/
  start : Nat
  /-- The tick after the last one. -/
  stop : Nat
  share : Share α
deriving DecidableEq

variable {α : Type}

namespace Cluster

/-- All shares held, in the order of tasks, placements and shares. -/
def holdings (c : Cluster α) : List (Holding α) :=
  c.tasks.flatMap fun t =>
    t.placements.flatMap fun p =>
      p.shares.map fun s => ⟨c.isGoodGraph t.graph, p.start, p.completion, s⟩

/-- The last tick at which any share is held, zero if none is. -/
def lastHeldTick (c : Cluster α) : Nat :=
  ((c.holdings.filter fun h => h.start < h.stop).map fun h => h.stop - 1).foldl max 0

end Cluster

section Series

variable [Scalar α]

/-- An amount more in use. -/
def Load.add (load : Load α) (good : Bool) (quantity : α) : Load α :=
  if good then { load with good := load.good + quantity }
  else { load with bad := load.bad + quantity }

/-- Nothing in use. -/
def Load.none : Load α := ⟨Scalar.zero, Scalar.zero⟩

/-- Changes so many loads from a tick on. -/
def modifyTicks (f : Load α → Load α) (series : Array (Load α)) (tick : Nat) :
    Nat → Array (Load α)
  | 0 => series
  | count + 1 => modifyTicks f (series.modify tick f) (tick + 1) count

/-- Enters a holding at those of its ticks that lie in the window. -/
def Holding.charge (h : Holding α) (window : Nat) (series : Array (Load α)) : Array (Load α) :=
  let first := min h.start window
  modifyTicks (fun load => load.add h.good h.share.quantity) series first
    (min h.stop window - first)

/-- The loads of a resource at the ticks of the window. -/
def usageSeries (holdings : List (Holding α)) (window : Nat) (resource : String) :
    Array (Load α) :=
  (holdings.filter fun h => h.share.name = resource).foldl
    (fun series h => h.charge window series) (Array.replicate window Load.none)

/-- The good loads added up from the first tick on. -/
def goodTotal (series : Array (Load α)) : α :=
  series.foldl (fun total load => total + load.good) Scalar.zero

/-- All loads added up from the first tick on. -/
def fullTotal (series : Array (Load α)) : α :=
  series.foldl (fun total load => total + (load.good + load.bad)) Scalar.zero

/-- Why no ratio can be given over a capacity and a window. -/
def degeneracy? (capacity : α) (window : Nat) : Option Degeneracy :=
  if Scalar.isZero capacity then some .zeroCapacity
  else if window = 0 then some .emptyWindow
  else none

/-- The account of a resource with the given capacity and loads. -/
def ResourceUsage.ofSeries (capacity : α) (window : Nat) (series : Array (Load α)) :
    ResourceUsage α :=
  match degeneracy? capacity window with
  | some reason => ⟨capacity, Scalar.zero, Scalar.zero, series, some reason⟩
  | none =>
    let available := capacity * Scalar.ofNat window
    ⟨capacity, goodTotal series / available, fullTotal series / available, series, none⟩

namespace ResourceUsage

def goodUsage (r : ResourceUsage α) : α := Scalar.sum (r.series.toList.map Load.good)

def badUsage (r : ResourceUsage α) : α := Scalar.sum (r.series.toList.map Load.bad)

end ResourceUsage

def Cluster.usage (c : Cluster α) : ClusterUsage α :=
  let holdings := c.holdings
  let window := c.lastHeldTick
  { endTick := window
    resources := Keyed.tabulate (holdings.map fun h => h.share.name) fun resource =>
      .ofSeries (c.capacity resource) window (usageSeries holdings window resource) }

end Series

end ClusterTrace
