import ClusterTrace.Batch.Jobs
import ClusterTrace.Experiment.Run
import ClusterTrace.Experiment.Sweep

/-!
# The analysis of a batch

Every run of a batch is a job of its own: a run at fault has an outcome like any other, and the
outcomes stand in the order of the runs.
-/

namespace ClusterTrace

namespace Batch

/-- Analyses runs. Reading and analysing a run ends, so no job reaches its limit. -/
def analyze (s : Storage) (dirs : List String) (options : RunOptions) (runner : Runner) :
    List (JobOutcome RunAnalysis) :=
  runJobs runner dirs fun job => .ends (.returned (RunAnalysis.load s job.dir options))

/-- What is reported when a batch begins. -/
def startJournal (dirs : List String) (runner : Runner) : List LogRecord :=
  [⟨.info, s!"analyzing {dirs.length} runs on {runner.threads} threads"⟩]

/-- What a worker reports when a job has ended. -/
def outcomeRecord {α : Type} (number total : Nat) (outcome : JobOutcome α) : LogRecord :=
  match outcome.result with
  | .ok _ => ⟨.info, s!"[{number}/{total}] analyzed {outcome.dir}"⟩
  | .error fault => ⟨.error, s!"[{number}/{total}] {outcome.dir} failed: {fault.message}"⟩

/-- What the jobs and their workers report, in the order of the jobs. -/
def workerJournal (s : Storage) (dirs : List String) (options : RunOptions)
    (outcomes : List (JobOutcome RunAnalysis)) : List LogRecord :=
  let jobs := (dirs.mapIdx Job.mk).filter Job.isNameable
  ((jobs.zip outcomes).map fun (job, outcome) =>
    RunAnalysis.journal s outcome.dir options ++
      [outcomeRecord (job.number + 1) dirs.length outcome]).flatten

end Batch

end ClusterTrace
