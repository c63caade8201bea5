import ClusterTrace.Usage.Account

/-!
# The account kept in a ledger

The account of a cluster in two passes, as it is kept in a ledger with one page for each resource.
The first pass fixes the window and opens an empty page for every resource that some placement
names; the second enters the holdings one after the other, in the order of tasks, placements and
shares. Every step that may be impossible is checked: the tick before tick zero, an entry for a
resource without a page, and an entry that begins after its end or reaches past the end of its page
(`Cluster.ledger?`).
-/

namespace ClusterTrace

/-- The loads of the resources at the ticks of the window, one page for each resource. -/
abbrev Ledger (α : Type) := Keyed String (Array (Load α))

def tickBefore? : Nat → Option Nat
  | 0 => none
  | tick + 1 => some tick

variable {α : Type}

/-- The placement holds something at some tick. -/
def Placement.isHeld (p : Placement α) : Bool := p.start < p.completion && !p.shares.isEmpty

def Cluster.placements (c : Cluster α) : List (Placement α) := c.tasks.flatMap Task.placements

/-- The number of ticks in the window: the largest of the last ticks of the placements that hold
something, zero if there are none. -/
def Cluster.window? (c : Cluster α) : Option Nat :=
  ((c.placements.filter Placement.isHeld).mapM fun p => tickBefore? p.completion).map
    fun ticks => ticks.max?.getD 0

variable [Scalar α]

/-- Changes the loads at the ticks from the first one on and before the other, if the page has them
all. -/
def changeTicks? (f : Load α → Load α) (page : Array (Load α)) (first stop : Nat) :
    Option (Array (Load α)) :=
  if first ≤ stop ∧ stop ≤ page.size then some (modifyTicks f page first (stop - first)) else none

namespace Ledger

/-- An empty page for each of some resources, which may repeat. -/
def blank (window : Nat) (resources : List String) : Ledger α :=
  Keyed.tabulate resources fun _ => Array.replicate window Load.none

/-- Enters a holding on the page of its resource. -/
def enter? (window : Nat) (ledger : Ledger α) (h : Holding α) : Option (Ledger α) := do
  let page ← ledger.get? h.share.name
  let page ← changeTicks? (fun load => load.add h.good h.share.quantity) page
    (min h.start window) (min h.stop window)
  return ledger.insert h.share.name page

end Ledger

/-- The account of a cluster by way of a ledger, if no step of it is impossible. -/
def Cluster.ledger? (c : Cluster α) : Option (ClusterUsage α) := do
  let window ← c.window?
  let blank := Ledger.blank window (c.holdings.map fun h => h.share.name)
  let ledger ← c.holdings.foldlM (Ledger.enter? window) blank
  return { endTick := window
           resources := ledger.map fun resource page =>
             .ofSeries (c.capacity resource) window page }

end ClusterTrace
