/-!
# Journals

A journal is what the analysis reports on its way, beside its result: records with a level and a
text. The analysis itself writes nothing; for each of its parts a function computes the journal from
the same input, in the order of the work and up to the fault that stops it.
-/

namespace ClusterTrace

/-- How important a record is. -/
inductive Level where
  | debug
  | info
  | warn
  | error
deriving DecidableEq

namespace Level

def name : Level → String
  | debug => "DEBUG"
  | info => "INFO"
  | warn => "WARN"
  | error => "ERROR"

/-- The rank of a level by importance. -/
def rank : Level → Nat
  | debug => 0
  | info => 1
  | warn => 2
  | error => 3

end Level

structure LogRecord where
  level : Level
  text : String
deriving DecidableEq

/-- The records of at least some importance. -/
def recordsFrom (least : Level) (journal : List LogRecord) : List LogRecord :=
  journal.filter fun r => least.rank ≤ r.level.rank

end ClusterTrace
