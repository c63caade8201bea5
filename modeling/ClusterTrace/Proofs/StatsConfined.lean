import ClusterTrace.Proofs.Interleaving
import Mathlib.Data.List.Forall2

/-!
# What the rows of statistics reach

The parameters of the rows of statistics are read for the attainment and the counts alone. So they
may be changed in any way, and all else that an analysis finds stays as it is, the fault that stops
it too. The attainment and the counts come from different parameters of the last of these rows;
each is given here as a function of its own parameters (`sloOfField`, `countsOfFields?`), so that
one that cannot be read takes nothing away from the other.
-/

namespace ClusterTrace

/-- The rows are the same, but rows of statistics may have other parameters. -/
structure Event.SameButStats (e e' : Event) : Prop where
  line : e.line = e'.line
  tick : e.tick = e'.tick
  kind : e.kind = e'.kind
  params : e.is .logStats = false → e.params = e'.params

/-- What an analysis finds elsewhere than in the rows of statistics. -/
structure BesideStats where
  cluster : Cluster Double
  usage : ClusterUsage Double
  schedulerRuntimes : List Double
  schedulerLoads : List SchedulerLoad
  slacks : List Int
  complete : Bool

def TraceAnalysis.besideStats (a : TraceAnalysis) : BesideStats :=
  ⟨a.cluster, a.usage, a.schedulerRuntimes, a.schedulerLoads, a.slacks, a.complete⟩

/-- The row is the last one of statistics. -/
def IsLastStats (rows : List Event) (e : Event) : Prop :=
  ∃ before after, rows = before ++ e :: after ∧ e.is .logStats = true ∧
    ∀ later ∈ after, later.is .logStats = false

/-- The attainment in percent from the parameter that holds it, of a row on this line. -/
def sloOfField (line : Nat) : Option String → Except SloFault Double
  | none => .error (.badAttainment (.missingField line "LOG_STATS" 6 "attainment"))
  | some text =>
    match Double.read? text with
    | none => .error (.badAttainment (.invalidNumber line "LOG_STATS" "attainment" text))
    | some x => .ok (x * Double.ofNat 100)

/-- A text as a count: a whole number that is not negative, also when it is written as a double. -/
def wholeCount? (text : String) : Option Nat :=
  (Double.read? text).bind fun x =>
    if x.isWhole && !x.less Double.zero then some x.floor else none

/-- The counts from the parameters that hold them, if each of them can be read. -/
def countsOfFields? (finished cancelled missed : Option String) : Option GraphCounts :=
  (finished.bind wholeCount?).bind fun finished =>
    (cancelled.bind wholeCount?).bind fun cancelled =>
      (missed.bind wholeCount?).map fun missed =>
        ⟨min Double.maxWord (finished + cancelled), finished, cancelled, missed⟩

/-- What is said of the statistics is what the last row of them says: one parameter of it gives the
attainment, three others give the counts. -/
structure StatsOfLast (rows : List Event) (stats : Option LogStats) (slo : Except SloFault Double)
    (counts : Option GraphCounts) : Prop where
  lastRow : ∀ e, IsLastStats rows e → stats = some e.logStats ∧
    slo = sloOfField e.line e.params[6]? ∧
    counts = countsOfFields? e.params[3]? e.params[4]? e.params[5]?
  noRow : (∀ e ∈ rows, e.is .logStats = false) → stats = none ∧ counts = none
  noLogStats : slo = .error .noLogStats ↔ ∀ e ∈ rows, e.is .logStats = false

/-! ## Traces that differ in their statistics -/

/-- Rows that are not of statistics have all their parameters in common. -/
theorem Event.SameButStats.eq {e e' : Event} (h : e.SameButStats e')
    (hother : e.is .logStats = false) : e = e' := by
  cases e
  cases e'
  exact (Event.mk.injEq ..).mpr ⟨h.line, h.tick, h.kind, h.params hother⟩

section Rows

variable {rows rows' : List Event}

/-- Rows that are told apart by their kind, none of them a row of statistics, are the same. -/
theorem filter_eq_of_sameButStats {p : Event → Bool}
    (hkind : ∀ e e' : Event, e.kind = e'.kind → p e = p e')
    (hstats : ∀ e : Event, p e = true → e.is .logStats = false)
    (h : List.Forall₂ Event.SameButStats rows rows') : rows.filter p = rows'.filter p := by
  induction h with
  | nil => rfl
  | @cons e e' rest rest' hrow _ ih =>
    have hp := hkind e e' hrow.kind
    rw [List.filter_cons, List.filter_cons, ← hp, ih]
    cases hpe : p e with
    | false => rfl
    | true => rw [hrow.eq (hstats e hpe)]

/-- Rows of another kind than statistics are the same rows in both lists. -/
theorem eventsOf_eq_of_sameButStats {kind : EventKind} (hne : kind ≠ .logStats)
    (h : List.Forall₂ Event.SameButStats rows rows') :
    Metrics.eventsOf kind rows = Metrics.eventsOf kind rows' := by
  refine filter_eq_of_sameButStats (fun e e' hkind => by rw [Event.is, Event.is, hkind])
    (fun e he => ?_) h
  rw [Event.is_of_is he]
  exact decide_eq_false hne

/-- Statistics are about no entity, so a replay sees the same rows. -/
theorem entityRows_eq_of_sameButStats (h : List.Forall₂ Event.SameButStats rows rows') :
    rows.filter Event.isEntityRow = rows'.filter Event.isEntityRow := by
  refine filter_eq_of_sameButStats (fun e e' hkind => ?_) (fun e he => ?_) h
  · simp only [Event.isEntityRow, Event.isMark, Event.isTaskRow, Event.is, hkind]
  · -- A row of statistics is about nothing that a replay keeps.
    cases hstats : e.is .logStats with
    | false => rfl
    | true =>
      simp only [Event.isEntityRow, Event.isMark, Event.isTaskRow, Event.is_of_is hstats] at he
      cases he

/-- What does not depend on the parameters of statistics is the same of each row and its
counterpart. -/
theorem map_eq_of_sameButStats {β : Type} {f : Event → β}
    (hf : ∀ e e' : Event, e.SameButStats e' → f e = f e')
    (h : List.Forall₂ Event.SameButStats rows rows') : rows.map f = rows'.map f := by
  induction h with
  | nil => rfl
  | cons hrow _ ih => rw [List.map_cons, List.map_cons, hf _ _ hrow, ih]

/-- A replay keeps of statistics only their ticks, which are the same. -/
theorem replay_eq_of_sameButStats (h : List.Forall₂ Event.SameButStats rows rows')
    (check : Bool) : replay rows check = replay rows' check := by
  have hticks : rows.map Event.tick = rows'.map Event.tick :=
    map_eq_of_sameButStats (fun _ _ hrow => hrow.tick) h
  rw [replay, replay, Replay.run_eq _ rows, Replay.run_eq _ rows', hticks,
    entityRows_eq_of_sameButStats h]

theorem isComplete_eq_of_sameButStats (h : List.Forall₂ Event.SameButStats rows rows') :
    Metrics.isComplete rows = Metrics.isComplete rows' := by
  have hcomplete : ∀ rows : List Event, Metrics.isComplete rows =
      (rows.map Event.kind).getLast?.any fun kind => kind = EventKind.simulatorEnd.name := by
    intro rows
    rw [Metrics.isComplete, List.getLast?_map]
    cases rows.getLast? <;> rfl
  rw [hcomplete, hcomplete, map_eq_of_sameButStats (fun _ _ hrow => hrow.kind) h]

/-- What an analysis finds beside the statistics, part by part. -/
theorem map_besideStats_ofEvents (rows : List Event) (check : Bool) :
    (TraceAnalysis.ofEvents rows check).map TraceAnalysis.besideStats =
      (replay rows check).bind fun cluster =>
        (Metrics.schedulerRuntimes rows).bind fun runtimes =>
          (Metrics.schedulerLoads rows).bind fun loads =>
            (Metrics.slacks rows).map fun slacks =>
              ⟨cluster, cluster.usage, runtimes, loads, slacks, Metrics.isComplete rows⟩ := by
  unfold TraceAnalysis.ofEvents
  cases replay rows check with
  | error fault => rfl
  | ok cluster =>
    cases Metrics.schedulerRuntimes rows with
    | error fault => rfl
    | ok runtimes =>
      cases Metrics.schedulerLoads rows with
      | error fault => rfl
      | ok loads => cases Metrics.slacks rows <;> rfl

/-- An analysis finds the same or fails in the same way, apart from what it takes from
statistics. -/
theorem besideStats_eq_of_sameButStats (h : List.Forall₂ Event.SameButStats rows rows')
    (check : Bool) :
    (TraceAnalysis.ofEvents rows check).map TraceAnalysis.besideStats =
      (TraceAnalysis.ofEvents rows' check).map TraceAnalysis.besideStats := by
  have hruntimes : Metrics.schedulerRuntimes rows = Metrics.schedulerRuntimes rows' := by
    rw [Metrics.schedulerRuntimes, Metrics.schedulerRuntimes,
      eventsOf_eq_of_sameButStats (by decide) h]
  have hloads : Metrics.schedulerLoads rows = Metrics.schedulerLoads rows' := by
    rw [Metrics.schedulerLoads, Metrics.schedulerLoads,
      eventsOf_eq_of_sameButStats (by decide) h]
  have hslacks : Metrics.slacks rows = Metrics.slacks rows' := by
    rw [Metrics.slacks, Metrics.slacks, eventsOf_eq_of_sameButStats (by decide) h]
  rw [map_besideStats_ofEvents, map_besideStats_ofEvents, replay_eq_of_sameButStats h, hruntimes,
    hloads, hslacks, isComplete_eq_of_sameButStats h]

end Rows

/-! ## The row that counts -/

section Stats

variable {rows : List Event} {e : Event}

/-- The statistics that are kept are those of the last row of them. -/
theorem lastLogStats?_of_isLastStats (h : IsLastStats rows e) :
    Metrics.lastLogStats? rows = some e.logStats := by
  obtain ⟨before, after, rfl, hstats, hafter⟩ := h
  have hnone : Metrics.eventsOf .logStats after = [] := by
    refine List.filter_eq_nil_iff.mpr fun later hlater => ?_
    rw [hafter later hlater]
    decide
  have hlast : Metrics.eventsOf .logStats (e :: after) = [e] := by
    rw [Metrics.eventsOf, List.filter_cons, if_pos hstats]
    exact congrArg (e :: ·) hnone
  have hrows : Metrics.eventsOf .logStats (before ++ e :: after) =
      Metrics.eventsOf .logStats before ++ [e] :=
    (List.filter_append ..).trans (congrArg (_ ++ ·) hlast)
  rw [Metrics.lastLogStats?, hrows, List.getLast?_append, List.getLast?_singleton]
  rfl

theorem lastLogStats?_eq_none_iff :
    Metrics.lastLogStats? rows = none ↔ ∀ e ∈ rows, e.is .logStats = false := by
  rw [Metrics.lastLogStats?, Option.map_eq_none_iff, List.getLast?_eq_none_iff, Metrics.eventsOf,
    List.filter_eq_nil_iff]
  simp only [Bool.not_eq_true]

/-- The attainment is the seventh parameter of the row in percent, or a fault that names the
line. -/
theorem sloOf_logStats (hstats : e.is .logStats = true) :
    sloOf (some e.logStats) = sloOfField e.line e.params[6]? := by
  have hkind : e.kind = "LOG_STATS" := of_decide_eq_true hstats
  have hslo : sloOf (some e.logStats) =
      ((e.parseParam Double.read? 6 "attainment").map fun x => x * Double.ofNat 100).mapError
        .badAttainment := rfl
  rw [hslo, Event.parseParam, Event.param, Event.missing, hkind]
  cases e.params[6]? with
  | none => rfl
  | some text =>
    change (Except.map _ (e.parse Double.read? text "attainment")).mapError _ = _
    rw [Event.parse, Event.notNumeric, hkind, sloOfField]
    cases Double.read? text <;> rfl

theorem sloOf_eq_noLogStats_iff {stats : Option LogStats} :
    sloOf stats = .error .noLogStats ↔ stats = none := by
  cases stats with
  | none => exact ⟨fun _ => rfl, fun _ => rfl⟩
  | some s =>
    have hslo : sloOf (some s) = s.slo.mapError .badAttainment := rfl
    rw [hslo]
    cases s.slo <;> simp [Except.mapError]

theorem toOption_bind {ε α β : Type} (x : Except ε α) (f : α → Except ε β) :
    (x.bind f).toOption = x.toOption.bind fun a => (f a).toOption := by
  cases x <;> rfl

theorem toOption_parseCount (e : Event) (index : Nat) (field : String) :
    (e.parseCount index field).toOption = e.params[index]?.bind wholeCount? := by
  rw [Event.parseCount, Event.param, toOption_bind]
  cases e.params[index]? with
  | none => rfl
  | some text =>
    change (Except.bind (e.parse Double.read? text field) _).toOption = wholeCount? text
    rw [toOption_bind, Event.parse, wholeCount?]
    cases Double.read? text with
    | none => rfl
    | some x =>
      change (if _ then _ else _ : Except TraceFault Nat).toOption = if _ then _ else _
      split <;> rfl

/-- The counts are the fourth to the sixth parameter, and there are none if one of them cannot be
read. -/
theorem counts?_logStats (e : Event) :
    e.logStats.counts? = countsOfFields? e.params[3]? e.params[4]? e.params[5]? := by
  have hcounts : e.logStats.counts? = ((e.parseCount 3 "finished").bind fun finished =>
      (e.parseCount 4 "cancelled").bind fun cancelled =>
        (e.parseCount 5 "missed_deadline").bind fun missed =>
          .ok ⟨min Double.maxWord (finished + cancelled), finished, cancelled, missed⟩).toOption :=
    rfl
  simp only [hcounts, toOption_bind, toOption_parseCount, countsOfFields?, Option.map_eq_bind]
  rfl

/-- The attainment and the counts of a trace are what its last row of statistics says, for all lists
of rows. -/
theorem statsOfLast (rows : List Event) :
    StatsOfLast rows (Metrics.lastLogStats? rows) (Metrics.slo rows)
      ((Metrics.lastLogStats? rows).bind LogStats.counts?) where
  lastRow := by
    intro e he
    have hlast := lastLogStats?_of_isLastStats he
    obtain ⟨-, -, -, hstats, -⟩ := he
    rw [Metrics.slo, hlast, sloOf_logStats hstats]
    exact ⟨rfl, rfl, counts?_logStats e⟩
  noRow := by
    intro h
    rw [lastLogStats?_eq_none_iff.mpr h]
    exact ⟨rfl, rfl⟩
  noLogStats := sloOf_eq_noLogStats_iff.trans lastLogStats?_eq_none_iff

end Stats

/-- Whatever the rows of statistics hold, an analysis stops with the same fault, or is finished and
finds the same beside them. Of the statistics it says what the last row says, the attainment from
one parameter and the counts from three others, and it gives the attainment that the rows give
without it; there is none for want of a row exactly if there is no row. -/
theorem stats_confined (rows : List Event) (check : Bool) :
    (∀ rows', List.Forall₂ Event.SameButStats rows rows' →
      (TraceAnalysis.ofEvents rows check).map TraceAnalysis.besideStats =
        (TraceAnalysis.ofEvents rows' check).map TraceAnalysis.besideStats) ∧
    StatsOfLast rows (Metrics.lastLogStats? rows) (Metrics.slo rows)
      ((Metrics.lastLogStats? rows).bind LogStats.counts?) ∧
    ∀ a, TraceAnalysis.ofEvents rows check = .ok a →
      a.slo = Metrics.slo rows ∧ StatsOfLast rows a.logStats a.slo a.graphCounts? := by
  refine ⟨fun rows' h => besideStats_eq_of_sameButStats h check, statsOfLast rows, fun a ha => ?_⟩
  have hstats : a.logStats = Metrics.lastLogStats? rows := by
    change Except.bind _ _ = _ at ha
    simp only [bind, bind_eq_ok_iff] at ha
    obtain ⟨cluster, -, runtimes, -, loads, -, slacks, -, hread⟩ := ha
    rw [← Except.ok.inj hread]
  have hslo : a.slo = Metrics.slo rows := congrArg sloOf hstats
  refine ⟨hslo, ?_⟩
  rw [hslo, TraceAnalysis.graphCounts?, hstats]
  exact statsOfLast rows

/-- The last row of statistics has a count that is no number. -/
def wordyTrace : List Event :=
  [⟨1, 0, "TASK_GRAPH_RELEASE", ["0", "50", "g0", "1", "9"]⟩,
   ⟨2, 3, "LOG_STATS", ["0", "0", "0", "1", "0", "0", "0.5"]⟩,
   ⟨3, 4, "LOG_STATS", ["0", "0", "0", "one", "0", "0", "0.75"]⟩,
   ⟨4, 5, "SIMULATOR_END", []⟩]

/-- The same with no parameters in that row. -/
def silentTrace : List Event :=
  [⟨1, 0, "TASK_GRAPH_RELEASE", ["0", "50", "g0", "1", "9"]⟩,
   ⟨2, 3, "LOG_STATS", ["0", "0", "0", "1", "0", "0", "0.5"]⟩,
   ⟨3, 4, "LOG_STATS", []⟩,
   ⟨4, 5, "SIMULATOR_END", []⟩]

/-- The statistics of one trace are words in places, and the other has none to read. Both analyses
agree on everything else. -/
theorem wordyTrace_confined : ∃ a a', TraceAnalysis.ofEvents wordyTrace true = .ok a ∧
    TraceAnalysis.ofEvents silentTrace true = .ok a' ∧ a.besideStats = a'.besideStats ∧
    a.slo = .ok (Double.ofNat 75) ∧ a.graphCounts? = none ∧
    a'.slo = .error (.badAttainment (.missingField 3 "LOG_STATS" 6 "attainment")) := by
  have hrows : List.Forall₂ Event.SameButStats wordyTrace silentTrace :=
    .cons ⟨rfl, rfl, rfl, fun _ => rfl⟩ (.cons ⟨rfl, rfl, rfl, fun _ => rfl⟩
      (.cons ⟨rfl, rfl, rfl, fun hother => absurd hother (by decide)⟩
        (.cons ⟨rfl, rfl, rfl, fun _ => rfl⟩ .nil)))
  have hok : (TraceAnalysis.ofEvents wordyTrace true).toOption.any (fun _ => true) = true := by
    decide +kernel
  obtain ⟨a, ha, -⟩ := exists_of_any_toOption hok
  obtain ⟨hsame, -, hread⟩ := stats_confined wordyTrace true
  have hbeside := hsame silentTrace hrows
  rw [ha] at hbeside
  obtain ⟨a', ha', hbeside⟩ := map_eq_ok_iff.mp hbeside.symm
  have hlast : IsLastStats wordyTrace
      ⟨3, 4, "LOG_STATS", ["0", "0", "0", "one", "0", "0", "0.75"]⟩ :=
    ⟨wordyTrace.take 2, wordyTrace.drop 3, rfl, by decide, by decide⟩
  have hlast' : IsLastStats silentTrace ⟨3, 4, "LOG_STATS", []⟩ :=
    ⟨silentTrace.take 2, silentTrace.drop 3, rfl, by decide, by decide⟩
  obtain ⟨-, hslo, hcounts⟩ := (hread a ha).2.lastRow _ hlast
  obtain ⟨-, hslo', -⟩ := ((stats_confined silentTrace true).2.2 a' ha').2.lastRow _ hlast'
  refine ⟨a, a', ha, ha', hbeside.symm, hslo.trans ?_, hcounts.trans ?_, hslo'⟩
  · decide +kernel
  · decide +kernel

end ClusterTrace
