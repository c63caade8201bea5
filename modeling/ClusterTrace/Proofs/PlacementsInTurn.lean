import ClusterTrace.Proofs.TaskPlacements

/-!
# Whether a task runs twice at a time

A row that ends a placement is compared with the row that began it, but a row that begins one is
compared with nothing. So each placement has its ticks in order, and the placements of a task follow
one another exactly if no row places the task at a tick before that of an earlier row that ends it.
A trace in which one does is replayed all the same, and the task then runs twice at a time.
-/

namespace ClusterTrace

/-- No placement of the task begins before an earlier one ends. -/
def Task.InTurn {α : Type} (t : Task α) : Prop :=
  t.placements.Pairwise fun p q => p.completion ≤ q.start

instance {α : Type} (t : Task α) : Decidable t.InTurn :=
  inferInstanceAs (Decidable (List.Pairwise _ _))

/-- The placements of the task that cover a tick. -/
def Task.coverings {α : Type} (t : Task α) (tick : Nat) : List (Placement α) :=
  t.placements.filter fun p => p.start ≤ tick ∧ tick < p.completion

/-- No row places the task at a tick before that of an earlier row that ends it. -/
def NeverBackdated (key : TaskKey) (rows : List Event) : Prop :=
  rows.Pairwise fun a b => a.ends key = true → b.places key = true → a.tick ≤ b.tick

instance (key : TaskKey) (rows : List Event) : Decidable (NeverBackdated key rows) :=
  inferInstanceAs (Decidable (List.Pairwise _ _))

theorem neverBackdated_concat {key : TaskKey} {rows : List Event} {e : Event} :
    NeverBackdated key (rows ++ [e]) ↔ NeverBackdated key rows ∧
      ∀ a ∈ rows, a.ends key = true → e.places key = true → a.tick ≤ e.tick := by
  simp [NeverBackdated, List.pairwise_append]

/-- A task whose placements are in order and follow one another has at most one of them at any
tick. -/
theorem Task.InTurn.coverings_length {α : Type} {t : Task α} (h : t.InTurn) (tick : Nat) :
    (t.coverings tick).length ≤ 1 := by
  have hturn : (t.coverings tick).Pairwise fun p q => p.completion ≤ q.start :=
    h.sublist List.filter_sublist
  have hcovers : ∀ p ∈ t.coverings tick, p.start ≤ tick ∧ tick < p.completion := by
    intro p hp
    simpa using (List.mem_filter.mp hp).2
  match hc : t.coverings tick with
  | [] => exact Nat.zero_le 1
  | [_] => exact Nat.le_refl 1
  | p :: q :: rest =>
    rw [hc] at hturn hcovers
    have hle : p.completion ≤ q.start := List.rel_of_pairwise_cons hturn List.mem_cons_self
    have hp := hcovers p List.mem_cons_self
    have hq := hcovers q (List.mem_cons_of_mem _ List.mem_cons_self)
    omega

namespace Replay

/-- What is known of a task, as far as the order of its placements goes. -/
structure InTurnAsRows (key : TaskKey) (endTick : Nat) (rows : List Event) (h : TaskHistory) :
    Prop where
  /-- No placement ends before it begins. -/
  ordered : ∀ p ∈ closedPlacements endTick h, p.start ≤ p.completion
  /-- The placements that are completed end at the ticks of the rows that end them. -/
  completions : ∀ tick,
    (∃ p ∈ h.placements, p.completion = tick) ↔ ∃ a ∈ rows, a.ends key = true ∧ a.tick = tick
  /-- They follow one another if the rows do. -/
  inTurn : ((closedPlacements endTick h).Pairwise fun p q => p.completion ≤ q.start) ↔
    NeverBackdated key rows

theorem pairwise_closedPlacements {endTick : Nat} {h : TaskHistory} :
    ((closedPlacements endTick h).Pairwise fun p q => p.completion ≤ q.start) ↔
      (h.placements.Pairwise fun p q => p.completion ≤ q.start) ∧
        ∀ current, h.running = some current → ∀ p ∈ h.placements, p.completion ≤ current.start := by
  unfold closedPlacements
  cases h.running with
  | none => simp
  | some current => simp [List.pairwise_append]

theorem InTurnAsRows.step {key : TaskKey} {endTick : Nat} {rows : List Event} {e : Event}
    {h h' : TaskHistory} (hr : InTurnAsRows key endTick rows h) (hstep : HistoryStep e key h h') :
    InTurnAsRows key endTick (rows ++ [e]) h' := by
  obtain ⟨ordered, completions, inTurn⟩ := hr
  rw [pairwise_closedPlacements] at inTurn
  cases hstep with
  | idle places ends =>
    refine ⟨ordered, fun tick => ?_, ?_⟩
    · rw [completions]
      simp [or_and_right, exists_or, ends]
    · rw [pairwise_closedPlacements, inTurn, neverBackdated_concat]
      simp [places]
  | @placed shares places listed idle =>
    have hends : e.ends key = false := Event.ends_eq_false_of_is (Event.places_iff.mp places).1 key
    refine ⟨?_, fun tick => ?_, ?_⟩
    · simp only [closedPlacements, idle] at ordered ⊢
      intro p hp
      rcases List.mem_append.mp hp with hp | hp
      · exact ordered p hp
      · rw [List.mem_singleton.mp hp]
        exact Nat.le_max_right _ _
    · rw [completions]
      simp [or_and_right, exists_or, hends]
    · -- The new placement is compared with the completed ones, the new row with their ends.
      have hiff : (∀ p ∈ h.placements, p.completion ≤ e.tick) ↔
          ∀ a ∈ rows, a.ends key = true → e.places key = true → a.tick ≤ e.tick := by
        constructor
        · intro hall a ha hended _
          obtain ⟨p, hp, heq⟩ := (completions a.tick).mpr ⟨a, ha, hended, rfl⟩
          exact heq ▸ hall p hp
        · intro hall p hp
          obtain ⟨a, ha, hended, heq⟩ := (completions p.completion).mp ⟨p, hp, rfl⟩
          exact heq ▸ hall a ha hended places
      rw [pairwise_closedPlacements, neverBackdated_concat, ← inTurn, ← hiff]
      simp [idle]
  | @ended current ends running before =>
    have hplaces : e.places key = false := Event.places_eq_false_of_ends ends key
    refine ⟨?_, fun tick => ?_, ?_⟩
    · simp only [closedPlacements, running] at ordered ⊢
      intro p hp
      rcases List.mem_append.mp hp with hp | hp
      · exact ordered p (List.mem_append_left _ hp)
      · rw [List.mem_singleton.mp hp]
        exact before
    · simp only [List.mem_append, List.mem_singleton, or_and_right, exists_or, completions tick,
        exists_eq_left, ends, true_and]
    · rw [pairwise_closedPlacements, neverBackdated_concat, ← inTurn]
      simp [hplaces, running, List.pairwise_append]

theorem inTurnAsRows_of_run {rows : List Event} {r : Replay} (h : start.run rows = .ok r)
    (key : TaskKey) (endTick : Nat) : InTurnAsRows key endTick rows (r.history key) := by
  induction rows using List.reverseRecOn generalizing r with
  | nil =>
    cases h
    refine ⟨fun p hp => (List.not_mem_nil hp).elim, fun tick => ?_, ?_⟩
    · simp [start, history, Keyed.get?, Keyed.empty, TaskHistory.fresh]
    · exact iff_of_true List.Pairwise.nil List.Pairwise.nil
  | append_singleton rows e ih =>
    obtain ⟨before, hbefore, hprocess⟩ := run_concat_eq_ok_iff.mp h
    exact (ih hbefore).step ((step_of_process hprocess).history key)

end Replay

/-- In the cluster of a trace no placement ends before it begins, and the placements of a task
follow one another exactly if no row places it at a tick before that of an earlier row that ends it.
No tick then lies in two of them. -/
theorem placements_inTurn_iff {rows : List Event} {check : Bool} {c : Cluster Double}
    (h : replay rows check = .ok c) :
    ∀ t ∈ c.tasks, (∀ p ∈ t.placements, p.start ≤ p.completion) ∧
      (t.InTurn ↔ NeverBackdated t.key rows) ∧
      (NeverBackdated t.key rows → ∀ tick, (t.coverings tick).length ≤ 1) := by
  intro t ht
  obtain ⟨r, hrun, hfinish⟩ := replay_eq_ok_iff.mp h
  obtain ⟨rfl, -⟩ := Replay.finish_eq_ok_iff.mp hfinish
  have hr := Replay.inTurnAsRows_of_run hrun t.key r.endTick
  have hplacements := Replay.placements_of_mem_cluster ht
  have hiff : t.InTurn ↔ NeverBackdated t.key rows := by
    rw [Task.InTurn, hplacements]
    exact hr.inTurn
  refine ⟨?_, hiff, fun hrows => (hiff.mpr hrows).coverings_length⟩
  rw [hplacements]
  exact hr.ordered

theorem turnsTrace_inTurn : ∃ c, replay turnsTrace true = .ok c ∧
    ∀ t ∈ c.tasks, (∀ p ∈ t.placements, p.start ≤ p.completion) ∧ t.InTurn ∧
      ∀ tick, (t.coverings tick).length ≤ 1 := by
  have hok : (replay turnsTrace true).toOption.any (fun c =>
      decide (∀ t ∈ c.tasks, NeverBackdated t.key turnsTrace)) = true := by decide +kernel
  obtain ⟨c, hc, hrows⟩ := exists_of_any_toOption hok
  refine ⟨c, hc, fun t ht => ?_⟩
  obtain ⟨hordered, hiff, hcoverings⟩ := placements_inTurn_iff hc t ht
  have hforward := of_decide_eq_true hrows t ht
  exact ⟨hordered, hiff.mpr hforward, hcoverings hforward⟩

/-- A task is placed again at tick 15, after a row that ends its first placement at tick 20. -/
def backdatedTrace : List Event :=
  [⟨1, 0, "WORKER_POOL", ["pool0", "GPU", "1"]⟩,
   ⟨2, 0, "TASK_GRAPH_RELEASE", ["0", "100", "g0", "1", "10"]⟩,
   ⟨3, 10, "TASK_PLACEMENT", ["g0", "t0", "GPU", "1"]⟩,
   ⟨4, 20, "TASK_FINISHED", ["g0", "t0"]⟩,
   ⟨5, 15, "TASK_PLACEMENT", ["g0", "t0", "GPU", "1"]⟩,
   ⟨6, 25, "TASK_FINISHED", ["g0", "t0"]⟩,
   ⟨7, 30, "SIMULATOR_END", []⟩]

/-- The trace is replayed all the same, and at tick 15 the task runs twice. -/
theorem backdatedTrace_overlaps : ∃ c, replay backdatedTrace true = .ok c ∧
    ∃ t ∈ c.tasks, ¬ t.InTurn ∧ (t.coverings 15).length = 2 := by
  have hok : (replay backdatedTrace true).toOption.any (fun c =>
      decide (∃ t ∈ c.tasks, ¬ t.InTurn ∧ (t.coverings 15).length = 2)) = true := by
    decide +kernel
  obtain ⟨c, hc, hoverlap⟩ := exists_of_any_toOption hok
  exact ⟨c, hc, of_decide_eq_true hoverlap⟩

end ClusterTrace
