import ClusterTrace.Proofs.UsagePerTick

/-!
# The ledger never fails

If no placement ends before it begins, every step of the ledger is possible, and what it comes to is
the account. The invariant is that each page holds the series of the holdings entered so far.
-/

namespace ClusterTrace

variable {α : Type} [Scalar α]

/-- A ledger with a page for each of some resources, on which some holdings were entered. -/
def Ledger.posted (window : Nat) (names : List String) (done : List (Holding α)) : Ledger α :=
  Keyed.tabulate names (usageSeries done window)

/-- A page has room for every holding that does not end before it begins. -/
theorem changeTicks?_eq_charge {h : Holding α} (hle : h.start ≤ h.stop) (page : Array (Load α)) :
    changeTicks? (fun load => load.add h.good h.share.quantity) page
      (min h.start page.size) (min h.stop page.size) = some (h.charge page.size page) := by
  have hfirst : min h.start page.size ≤ min h.stop page.size := by omega
  have hstop : min h.stop page.size ≤ page.size := Nat.min_le_right _ _
  exact if_pos ⟨hfirst, hstop⟩

/-- Entering one more holding: its resource has a page, the page has its ticks, and no other page is
touched. -/
theorem enter?_posted {window : Nat} {names : List String} {h : Holding α}
    (hname : h.share.name ∈ names) (hle : h.start ≤ h.stop) (done : List (Holding α)) :
    (Ledger.posted window names done).enter? window h =
      some (Ledger.posted window names (done ++ [h])) := by
  have hpage : (Ledger.posted window names done).get? h.share.name =
      some (usageSeries done window h.share.name) := by
    rw [Ledger.posted, Keyed.get?_tabulate, if_pos hname]
  have hchange := changeTicks?_eq_charge hle (usageSeries done window h.share.name)
  rw [size_usageSeries] at hchange
  have hpages : Function.update (usageSeries done window) h.share.name
      (h.charge window (usageSeries done window h.share.name)) =
      usageSeries (done ++ [h]) window := by
    funext resource
    rw [usageSeries_concat]
    by_cases hr : h.share.name = resource
    · rw [if_pos hr, ← hr, Function.update_self]
    · rw [if_neg hr, Function.update_of_ne fun heq => hr heq.symm]
  have hinsert := Keyed.insert_tabulate hname (usageSeries done window)
    (h.charge window (usageSeries done window h.share.name))
  rw [hpages] at hinsert
  simp only [Ledger.enter?, hpage, hchange, Option.bind_eq_bind, Option.bind_some]
  exact congrArg some hinsert

/-- Entering holdings one after the other. -/
theorem foldlM_enter? (window : Nat) {names : List String} (rest : List (Holding α))
    (hrest : ∀ h ∈ rest, h.share.name ∈ names ∧ h.start ≤ h.stop) (done : List (Holding α)) :
    rest.foldlM (Ledger.enter? window) (Ledger.posted window names done) =
      some (Ledger.posted window names (done ++ rest)) := by
  induction rest generalizing done with
  | nil => rw [List.append_nil]; rfl
  | cons h rest ih =>
    obtain ⟨hname, hle⟩ := hrest h List.mem_cons_self
    rw [List.foldlM_cons, enter?_posted hname hle done]
    have hih := ih (fun g hg => hrest g (List.mem_cons_of_mem _ hg)) (done ++ [h])
    rw [List.append_assoc, List.singleton_append] at hih
    exact hih

omit [Scalar α] in
/-- No holding of an ordered cluster ends before it begins, and each has a page. -/
theorem Cluster.Ordered.holdings {c : Cluster α} (hc : c.Ordered) :
    ∀ h ∈ c.holdings, h.share.name ∈ c.holdings.map (fun g => g.share.name) ∧ h.start ≤ h.stop := by
  intro h hh
  refine ⟨List.mem_map_of_mem hh, ?_⟩
  obtain ⟨t, ht, p, hp, s, _, rfl⟩ := mem_holdings.mp hh
  exact hc t ht p hp

/-- The ledger of an ordered cluster comes to the account. -/
theorem ledger?_eq_usage {c : Cluster α} (hc : c.Ordered) : c.ledger? = some c.usage := by
  have hblank : Ledger.blank c.lastHeldTick (c.holdings.map fun h => h.share.name) =
      (Ledger.posted c.lastHeldTick (c.holdings.map fun h => h.share.name) [] : Ledger α) := rfl
  have hpost := foldlM_enter? c.lastHeldTick c.holdings hc.holdings []
  rw [List.nil_append] at hpost
  have hpages : (Ledger.posted c.lastHeldTick (c.holdings.map fun h => h.share.name)
      c.holdings).map (fun resource page =>
        ResourceUsage.ofSeries (c.capacity resource) c.lastHeldTick page) = c.usage.resources :=
    Keyed.map_tabulate _ _ _
  simp only [Cluster.ledger?, window?_eq, hblank, hpost, Option.bind_eq_bind, Option.bind_some,
    hpages]
  rfl

/-- The account of a cluster in which no placement ends before it begins: no step of the ledger is
impossible, and what it comes to is at every tick the sum of what is held there. -/
theorem ledger_succeeds_perTick (c : Cluster α) (hc : c.Ordered) :
    c.ledger? = some c.usage ∧ c.usage.PerTick c :=
  ⟨ledger?_eq_usage hc, perTick_usage c⟩

/-- A good task that holds a share listed twice and then, past the window, another one for no tick
at all, and a bad task that overlaps it. -/
def unevenCluster : Cluster Double where
  pools := [⟨"pool0", [⟨"GPU", Double.ofNat 2⟩]⟩]
  graphs := Keyed.ofList
    [("g0", ⟨"g0", 0, 10, 4, true, false, false⟩), ("g1", ⟨"g1", 0, 5, 8, true, true, false⟩)]
  tasks :=
    [⟨"t0", "g0",
        [⟨0, 4, [⟨"GPU", Double.ofNat 1⟩, ⟨"GPU", Double.ofNat 1⟩]⟩,
         ⟨9, 9, [⟨"CPU", Double.ofNat 3⟩]⟩]⟩,
     ⟨"t0", "g1", [⟨2, 8, [⟨"GPU", Double.ofRatio 1 2⟩]⟩]⟩]

theorem unevenCluster_perTick :
    unevenCluster.Ordered ∧ unevenCluster.usage.endTick = 7 ∧
      unevenCluster.usage.resources.keys = ["GPU", "CPU"] ∧
      unevenCluster.ledger? = some unevenCluster.usage ∧
      unevenCluster.usage.PerTick unevenCluster := by
  have hordered : unevenCluster.Ordered := by unfold Cluster.Ordered; decide
  obtain ⟨hledger, hperTick⟩ := ledger_succeeds_perTick unevenCluster hordered
  exact ⟨hordered, by decide, by decide +kernel, hledger, hperTick⟩

end ClusterTrace
