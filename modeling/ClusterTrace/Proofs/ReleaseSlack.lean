import ClusterTrace.Proofs.TaskPlacements
import ClusterTrace.Proofs.WholeNumbers
import ClusterTrace.Trace.Analysis
import Mathlib.Data.List.Forall2

/-!
# The slack of a released graph

A row that releases a graph is read twice: the replay takes its ticks for natural numbers of 64
bits, and the slack takes them for signed ones. Where the numbers of a graph leave room for its
slack, the two agree on the release and on the critical path. They part on the deadline: one with
more than 63 bits is kept by the replay and refused by the slack, even if the slack itself would
fit, and then there is no analysis of a trace that has been replayed.
-/

namespace ClusterTrace

/-- The number is a signed one of 64 bits. -/
def IsSigned (n : Int) : Prop := -(Nat.pow 2 63 : Nat) ≤ n ∧ n < (Nat.pow 2 63 : Nat)

instance (n : Int) : Decidable (IsSigned n) :=
  inferInstanceAs (Decidable (_ ∧ _))

namespace TaskGraph

/-- The slack as a whole number, of any size. -/
def slack (g : TaskGraph) : Int := g.deadlineTick - (g.releaseTick + g.criticalPath)

/-- The sums in the slack have 64 bits. -/
structure SlackFits (g : TaskGraph) : Prop where
  path : IsSigned (g.releaseTick + g.criticalPath)
  slack : IsSigned g.slack

/-- The deadline has at most 63 bits. -/
def EarlyDeadline (g : TaskGraph) : Prop := g.deadlineTick < Nat.pow 2 63

instance (g : TaskGraph) : Decidable g.EarlyDeadline :=
  inferInstanceAs (Decidable (g.deadlineTick < Nat.pow 2 63))

end TaskGraph

/-! ## Two readings of a number -/

/-- A text that is read as a natural number is no negative one. -/
theorem readInteger?_of_readNatural? {text : String} {n : Nat}
    (h : readNatural? text = some n) :
    readInteger? text = if n < Nat.pow 2 63 then some (n : Int) else none := by
  obtain ⟨digits, hsplit, hdigits⟩ := exists_numeral_of_readNatural? h
  have hnumeral := numeral?_eq_some_iff.mpr hdigits
  simp [readInteger?, hsplit, hnumeral]

theorem wrapped_of_isSigned {n : Int} (h : IsSigned n) : Event.wrapped n = n := by
  have h63 : Nat.pow 2 63 = 9223372036854775808 := rfl
  have h64 : Nat.pow 2 64 = 18446744073709551616 := rfl
  obtain ⟨hlow, hhigh⟩ := h
  unfold Event.wrapped
  apply Int.bmod_eq_of_le
  · omega
  · omega

/-! ## One row -/

namespace Event

variable {e : Event} {g : TaskGraph}

theorem parseParam_eq {α : Type} {read : String → Option α} {index : Nat} {text : String}
    (h : e.params[index]? = some text) (field : String) :
    e.parseParam read index field = e.parse read text field := by
  rw [parseParam, param_eq_ok_iff.mpr h]
  rfl

/-- The slack is read exactly where the deadline has at most 63 bits. The release and the critical
path fit as well, since their sum does. -/
theorem slack_of_releasedGraph (read : e.releasedGraph = .ok g) (fits : g.SlackFits) :
    ∃ text, e.params[1]? = some text ∧
      e.slack = if g.EarlyDeadline then .ok g.slack
        else .error (e.notNumeric "deadline_tick" text) := by
  obtain ⟨⟨release, hrelease, hreadRelease⟩, ⟨deadline, hdeadline, hreadDeadline⟩, -,
    ⟨path, hpath, hreadPath⟩, -⟩ := releasedGraph_eq_ok_iff.mp read
  -- The release and the critical path are not negative, so they fit if their sum does.
  have hbound := fits.path.2
  have hreleaseFits : g.releaseTick < Nat.pow 2 63 := by omega
  have hpathFits : g.criticalPath < Nat.pow 2 63 := by omega
  have hsum : wrapped (g.deadlineTick - wrapped (g.releaseTick + g.criticalPath)) = g.slack := by
    rw [wrapped_of_isSigned fits.path]
    exact wrapped_of_isSigned fits.slack
  refine ⟨deadline, hdeadline, ?_⟩
  unfold slack parseLast
  rw [parseParam_eq hrelease, parseParam_eq hdeadline, hpath]
  simp only [parse, readInteger?_of_readNatural? hreadRelease, if_pos hreleaseFits,
    readInteger?_of_readNatural? hreadDeadline, readInteger?_of_readNatural? hreadPath,
    if_pos hpathFits]
  by_cases hearly : g.deadlineTick < Nat.pow 2 63
  · rw [if_pos hearly, if_pos (show g.EarlyDeadline from hearly), ← hsum]
    rfl
  · rw [if_neg hearly, if_neg (show ¬ g.EarlyDeadline from hearly)]
    rfl

end Event

namespace Replay

variable {r r' : Replay} {e : Event}

theorem Step.released (h : Step r e r') (kind : e.is .graphRelease = true) :
    ∃ g, e.releasedGraph = .ok g ∧ r'.graphs.get? g.id = some g := by
  have hsubject : e.subject = .release := Event.subject_of_is kind
  have hgraphs := h.graphs
  generalize r'.graphs = graphs at hgraphs
  cases hgraphs with
  | idle hrelease => exact absurd hsubject hrelease
  | @released g _ read => exact ⟨g, read, by rw [Keyed.get?_insert, if_pos rfl]⟩
  | marked hmark =>
    rw [Event.subject_of_isMark hmark] at hsubject
    cases hsubject

/-- Every row that releases a graph has been read in a run without a fault. -/
theorem releasedGraph_of_run {events : List Event} (h : r.run events = .ok r') :
    ∀ e ∈ events, e.is .graphRelease = true → ∃ g, e.releasedGraph = .ok g := by
  induction events generalizing r with
  | nil => exact fun e he => (List.not_mem_nil he).elim
  | cons a events ih =>
    obtain ⟨next, hprocess, hrun⟩ := run_cons_eq_ok_iff.mp h
    intro e he kind
    rcases List.mem_cons.mp he with rfl | he
    · obtain ⟨g, hg, -⟩ := (step_of_process hprocess).released kind
      exact ⟨g, hg⟩
    · exact ih hrun e he kind

end Replay

/-! ## Whole traces -/

/-- The graphs as the rows that release them say, one for each row. -/
def ReleasesRead (events : List Event) (graphs : List TaskGraph) : Prop :=
  List.Forall₂ (fun e g => e.releasedGraph = .ok g) (Metrics.eventsOf .graphRelease events) graphs

theorem exists_releasesRead {events : List Event}
    (h : ∀ e ∈ events, e.is .graphRelease = true → ∃ g, e.releasedGraph = .ok g) :
    ∃ graphs, ReleasesRead events graphs := by
  have hread : ∀ rows : List Event, (∀ e ∈ rows, ∃ g, e.releasedGraph = .ok g) →
      ∃ graphs, List.Forall₂ (fun e g => e.releasedGraph = .ok g) rows graphs := by
    intro rows hrows
    induction rows with
    | nil => exact ⟨[], .nil⟩
    | cons e rows ih =>
      obtain ⟨g, hg⟩ := hrows e List.mem_cons_self
      obtain ⟨graphs, hgraphs⟩ := ih fun a ha => hrows a (List.mem_cons_of_mem _ ha)
      exact ⟨g :: graphs, .cons hg hgraphs⟩
  refine hread _ fun e he => ?_
  obtain ⟨hmem, kind⟩ := List.mem_filter.mp he
  exact h e hmem kind

/-- The slacks of some rows are all read if no deadline has more than 63 bits, and else the first
such deadline stops the reading. -/
theorem readEach_slack {rows : List Event} {graphs : List TaskGraph}
    (h : List.Forall₂ (fun e g => e.releasedGraph = .ok g) rows graphs)
    (fits : ∀ g ∈ graphs, g.SlackFits) :
    ((∀ g ∈ graphs, g.EarlyDeadline) →
        Metrics.readEach Event.slack rows = .ok (graphs.map TaskGraph.slack)) ∧
      ((∃ g ∈ graphs, ¬ g.EarlyDeadline) → ∃ e ∈ rows, ∃ text, e.params[1]? = some text ∧
        Metrics.readEach Event.slack rows = .error (e.notNumeric "deadline_tick" text)) := by
  induction h with
  | nil => exact ⟨fun _ => rfl, fun ⟨g, hg, _⟩ => (List.not_mem_nil hg).elim⟩
  | @cons e g rows graphs read _ ih =>
    obtain ⟨ihEarly, ihLate⟩ := ih fun a ha => fits a (List.mem_cons_of_mem _ ha)
    obtain ⟨text, htext, hslack⟩ := Event.slack_of_releasedGraph read (fits g List.mem_cons_self)
    constructor
    · intro hearly
      have hrest := ihEarly fun a ha => hearly a (List.mem_cons_of_mem _ ha)
      rw [if_pos (hearly g List.mem_cons_self)] at hslack
      rw [Metrics.readEach, hslack, hrest]
      rfl
    · rintro ⟨a, ha, hlate⟩
      by_cases hearly : g.EarlyDeadline
      · have hrest : ∃ b ∈ graphs, ¬ b.EarlyDeadline := by
          rcases List.mem_cons.mp ha with rfl | ha
          · exact absurd hearly hlate
          · exact ⟨a, ha, hlate⟩
        obtain ⟨e', he', text', htext', hread⟩ := ihLate hrest
        refine ⟨e', List.mem_cons_of_mem _ he', text', htext', ?_⟩
        rw [if_pos hearly] at hslack
        rw [Metrics.readEach, hslack, hread]
        rfl
      · refine ⟨e, List.mem_cons_self, text, htext, ?_⟩
        rw [if_neg hearly] at hslack
        rw [Metrics.readEach, hslack]
        rfl

/-- A replayed trace has no analysis only if one of its metrics cannot be read. -/
theorem ofEvents_of_replay {events : List Event} {check : Bool} {c : Cluster Double}
    (hreplay : replay events check = .ok c) :
    (∃ a, TraceAnalysis.ofEvents events check = .ok a ∧ Metrics.slacks events = .ok a.slacks) ∨
      ∃ fault, TraceAnalysis.ofEvents events check = .error fault ∧
        (Metrics.schedulerRuntimes events = .error fault ∨
          Metrics.schedulerLoads events = .error fault ∨ Metrics.slacks events = .error fault) := by
  unfold TraceAnalysis.ofEvents
  rw [hreplay]
  cases Metrics.schedulerRuntimes events with
  | error fault => exact .inr ⟨fault, rfl, .inl rfl⟩
  | ok runtimes =>
    cases Metrics.schedulerLoads events with
    | error fault => exact .inr ⟨fault, rfl, .inr (.inl rfl)⟩
    | ok loads =>
      cases Metrics.slacks events with
      | error fault => exact .inr ⟨fault, rfl, .inr (.inr rfl)⟩
      | ok slacks => exact .inl ⟨_, rfl, rfl⟩

/-- There is a slack for each graph, in their order, and if the analysis fails it does so for the
scheduler. -/
structure SlacksGiven (events : List Event) (check : Bool) (graphs : List TaskGraph) : Prop where
  slacks : Metrics.slacks events = .ok (graphs.map TaskGraph.slack)
  analysis : (∃ a, TraceAnalysis.ofEvents events check = .ok a ∧
      a.slacks = graphs.map TaskGraph.slack) ∨
    ∃ fault, TraceAnalysis.ofEvents events check = .error fault ∧
      (Metrics.schedulerRuntimes events = .error fault ∨
        Metrics.schedulerLoads events = .error fault)

/-- A deadline is called no number, and there is no analysis. -/
structure SlacksRefused (events : List Event) (check : Bool) : Prop where
  slacks : ∃ e ∈ events, ∃ text, e.params[1]? = some text ∧
    Metrics.slacks events = .error (e.notNumeric "deadline_tick" text)
  analysis : ∃ fault, TraceAnalysis.ofEvents events check = .error fault ∧
    (Metrics.schedulerRuntimes events = .error fault ∨
      Metrics.schedulerLoads events = .error fault ∨ Metrics.slacks events = .error fault)

/-- A row that releases a graph is read by the slack as it is by the replay, if the sums of its
slack have 64 bits and its deadline at most 63. So a replayed trace has one slack for each such row,
in their order, and its analysis cannot fail for them. A deadline of 64 bits is not read, and then
the analysis fails. -/
theorem slacks_as_released (r : Replay) (e : Event) (events : List Event) (check : Bool) :
    (∀ r', e.is .graphRelease = true → r.process e = (r', none) →
      ∃ g text, r'.graphs.get? g.id = some g ∧ e.releasedGraph = .ok g ∧
        e.params[1]? = some text ∧
        (g.SlackFits → e.slack = if g.EarlyDeadline then .ok g.slack
          else .error (e.notNumeric "deadline_tick" text))) ∧
    ∀ c, replay events check = .ok c →
      ∃ graphs, ReleasesRead events graphs ∧
        ((∀ g ∈ graphs, g.SlackFits) →
          ((∀ g ∈ graphs, g.EarlyDeadline) → SlacksGiven events check graphs) ∧
          ((∃ g ∈ graphs, ¬ g.EarlyDeadline) → SlacksRefused events check)) := by
  constructor
  · intro r' kind hprocess
    obtain ⟨g, read, hstored⟩ := (Replay.step_of_process hprocess).released kind
    obtain ⟨-, ⟨text, htext, -⟩, -⟩ := Event.releasedGraph_eq_ok_iff.mp read
    refine ⟨g, text, hstored, read, htext, fun fits => ?_⟩
    obtain ⟨text', htext', hslack⟩ := Event.slack_of_releasedGraph read fits
    rw [htext] at htext'
    rw [hslack, Option.some.inj htext']
  · intro c hreplay
    obtain ⟨last, hrun, -⟩ := replay_eq_ok_iff.mp hreplay
    obtain ⟨graphs, hgraphs⟩ := exists_releasesRead (Replay.releasedGraph_of_run hrun)
    refine ⟨graphs, hgraphs, fun fits => ?_⟩
    obtain ⟨hgiven, hrefused⟩ := readEach_slack hgraphs fits
    constructor
    · intro hearly
      have hslacks : Metrics.slacks events = .ok (graphs.map TaskGraph.slack) := hgiven hearly
      refine ⟨hslacks, ?_⟩
      rcases ofEvents_of_replay hreplay with ⟨a, ha, hread⟩ | ⟨fault, hfault, hcause⟩
      · rw [hslacks] at hread
        exact .inl ⟨a, ha, (Except.ok.inj hread).symm⟩
      · rw [hslacks] at hcause
        simp only [reduceCtorEq, or_false] at hcause
        exact .inr ⟨fault, hfault, hcause⟩
    · intro hlate
      obtain ⟨e, he, text, htext, hread⟩ := hrefused hlate
      have hslacks : Metrics.slacks events = .error (e.notNumeric "deadline_tick" text) := hread
      refine ⟨⟨e, List.mem_of_mem_filter he, text, htext, hslacks⟩, ?_⟩
      rcases ofEvents_of_replay hreplay with ⟨a, -, hread⟩ | hfault
      · rw [hslacks] at hread
        cases hread
      · exact hfault

/-- A release with time to spare. -/
def earlyRelease : Event := ⟨1, 0, "TASK_GRAPH_RELEASE", ["+5", "0030", "g0", "1", "10"]⟩

/-- A release after its own deadline. -/
def tightRelease : Event := ⟨2, 7, "TASK_GRAPH_RELEASE", ["20", "5", "g1", "1", "0"]⟩

theorem twoReleases_slacks : earlyRelease.slack = .ok 15 ∧
    Metrics.slacks [earlyRelease, tightRelease] = .ok [15, -15] := by
  have hearly : earlyRelease.releasedGraph = .ok ⟨"g0", 5, 30, 10, false, false, false⟩ := by
    decide +kernel
  have htight : tightRelease.releasedGraph = .ok ⟨"g1", 20, 5, 0, false, false, false⟩ := by
    decide +kernel
  constructor
  · have hstep : Replay.start.process earlyRelease =
        ((Replay.start.process earlyRelease).1, none) := Prod.ext rfl (by decide +kernel)
    obtain ⟨g, text, -, hread, -, hslack⟩ :=
      (slacks_as_released _ earlyRelease [] true).1 _ (by decide +kernel) hstep
    rw [hearly] at hread
    cases hread
    exact hslack ⟨by decide, by decide⟩
  · have hok : (replay [earlyRelease, tightRelease] true).toOption.any (fun _ => true) = true := by
      decide +kernel
    obtain ⟨c, hreplay, -⟩ := exists_of_any_toOption hok
    obtain ⟨graphs, hgraphs, hslacks⟩ := (slacks_as_released .start earlyRelease _ true).2 c hreplay
    have hrows : Metrics.eventsOf .graphRelease [earlyRelease, tightRelease] =
        [earlyRelease, tightRelease] := by decide +kernel
    rw [ReleasesRead, hrows] at hgraphs
    obtain ⟨g, rest, hg, hrest, rfl⟩ := List.forall₂_cons_left_iff.mp hgraphs
    obtain ⟨g', rest', hg', hrest', rfl⟩ := List.forall₂_cons_left_iff.mp hrest
    rw [hearly] at hg
    rw [htight] at hg'
    cases hg
    cases hg'
    cases hrest'
    have hfits : ∀ g ∈ [(⟨"g0", 5, 30, 10, false, false, false⟩ : TaskGraph),
        ⟨"g1", 20, 5, 0, false, false, false⟩], g.SlackFits := by
      intro g hg
      simp only [List.mem_cons, List.not_mem_nil, or_false] at hg
      rcases hg with rfl | rfl
      · exact ⟨by decide, by decide⟩
      · exact ⟨by decide, by decide⟩
    exact ((hslacks hfits).1 (by decide)).slacks

/-- A deadline of 64 bits, of a graph whose slack is the greatest signed number. -/
def lateDeadline : Event :=
  ⟨1, 0, "TASK_GRAPH_RELEASE", ["1", "9223372036854775808", "g0", "1", "0"]⟩

theorem lateDeadline_refused :
    ∃ (g : TaskGraph) (c : Cluster Double), lateDeadline.releasedGraph = .ok g ∧ g.SlackFits ∧
      g.slack = 9223372036854775807 ∧
      (Replay.start.process lateDeadline).2 = none ∧
      (Replay.start.process lateDeadline).1.graphs.get? g.id = some g ∧
      replay [lateDeadline] true = .ok c ∧
      lateDeadline.slack =
        .error (.invalidNumber 1 "TASK_GRAPH_RELEASE" "deadline_tick" "9223372036854775808") ∧
      TraceAnalysis.ofEvents [lateDeadline] true =
        .error (.invalidNumber 1 "TASK_GRAPH_RELEASE" "deadline_tick" "9223372036854775808") := by
  have hslacks : Metrics.slacks [lateDeadline] =
      .error (.invalidNumber 1 "TASK_GRAPH_RELEASE" "deadline_tick" "9223372036854775808") := by
    decide +kernel
  have hruntimes : Metrics.schedulerRuntimes [lateDeadline] = .ok [] := rfl
  have hloads : Metrics.schedulerLoads [lateDeadline] = .ok [] := rfl
  have hok : (replay [lateDeadline] true).toOption.any (fun _ => true) = true := by decide +kernel
  obtain ⟨c, hreplay, -⟩ := exists_of_any_toOption hok
  refine ⟨⟨"g0", 1, 9223372036854775808, 0, false, false, false⟩, c, by decide +kernel,
    ⟨by decide, by decide⟩, by decide, by decide +kernel, by decide +kernel, hreplay,
    by decide +kernel, ?_⟩
  rcases ofEvents_of_replay hreplay with ⟨a, -, hread⟩ | ⟨fault, hfault, hcause⟩
  · rw [hslacks] at hread
    cases hread
  · rw [hruntimes, hloads, hslacks] at hcause
    simp only [reduceCtorEq, Except.error.injEq, false_or] at hcause
    rw [hfault, hcause]

end ClusterTrace
