import ClusterTrace.Experiment.Settings
import ClusterTrace.Storage.Tree
import ClusterTrace.Trace.Fault

/-!
# Why a run cannot be analysed
-/

namespace ClusterTrace

/-- Why a run cannot be analysed. -/
inductive RunFault where
  /-- A file or directory cannot be used. -/
  | unreadable (path : String) (fault : FileFault)
  /-- The directory of the run lacks a file. -/
  | missingFile (dir what : String)
  /-- The description of a batch is no proper document. -/
  | badBatchFile (path : String)
  | trace (fault : TraceFault)
  /-- A metric needs a row of statistics and there is none. -/
  | noLogStats
  | settings (fault : SettingsFault)
deriving DecidableEq

def RunFault.message : RunFault → String
  | .unreadable path fault => s!"failed to read {path}: {fault.message}"
  | .missingFile dir what => s!"no {what} file found in {dir}"
  | .badBatchFile path => s!"invalid batch config {path}"
  | .trace fault => fault.message
  | .noLogStats => "trace has no LOG_STATS event"
  | .settings fault => fault.message

end ClusterTrace
