import ClusterTrace.Report.RunSummary

/-!
# The table of runs

What is shown of a batch: one line a run, with the label and the scheduler to the left and numbers
of three places to the right. A value that a run does not have is a dash.
-/

namespace ClusterTrace.Table

/-- A text filled up with blanks behind it. -/
def padRight (width : Nat) (s : String) : String :=
  s ++ String.ofList (List.replicate (width - s.length) ' ')

/-- A text filled up with blanks before it. -/
def padLeft (width : Nat) (s : String) : String :=
  String.ofList (List.replicate (width - s.length) ' ') ++ s

def line (run scheduler slo effective total runtime : String) : String :=
  " ".intercalate
    [padRight 30 run, padRight 16 scheduler, padLeft 8 slo, padLeft 10 effective,
     padLeft 10 total, padLeft 12 runtime] ++ "\n"

/-- A number that may be absent. -/
def number : Option Double → String
  | some x => x.fixed 3
  | none => "-"

def runLine (s : RunSummary) : String :=
  line s.name (s.scheduler.getD "-") (number s.slo)
    (number (s.cluster.map UsageOverview.meanEffective))
    (number (s.cluster.map UsageOverview.meanTotal))
    (number (s.schedulerRuntime.map Summary.median))

def text (runs : List RunSummary) : String :=
  line "run" "scheduler" "slo" "eff util" "total util" "sched p50 s" ++
    String.join (runs.map runLine)

end ClusterTrace.Table
