import ClusterTrace.Experiment.RunFault
import ClusterTrace.Number.Digits

/-!
# Jobs on workers

A batch is a list of numbered jobs, one for each directory. A fixed number of workers take them from
a queue. Each job runs on a thread of its own, and its worker waits for what that thread sends, but
no longer than the limit: then it gives the thread up, which may run on. However a job ends, its
worker sends an outcome and is free again. The outcomes arrive in any order and are put into the
order of the jobs at the end. Only a job whose thread cannot even be named has no outcome: the
worker breaks off, and another one takes its place.

A `Board` shows where the jobs, their threads and the outcomes are, and a `Move` is one thing that
can happen on it. `Board.outcomes` of a board on which nothing is left to happen is the result of
the batch, whatever the moves were; `runJobs` makes the moves that serve one job after the other.
-/

namespace ClusterTrace

/-- A span of time. -/
structure Duration where
  millis : Nat
deriving DecidableEq

namespace Duration

def ofSeconds (n : Nat) : Duration := ⟨1000 * n⟩

/-- The digits of a number of thousandths behind a point, without zeros at the end. -/
def thousandths (n : Nat) : String :=
  let digits := decimalDigits n
  let padded := List.replicate (3 - digits.length) '0' ++ digits
  String.ofList (padded.reverse.dropWhile (· = '0')).reverse

/-- The text of a span of time, in the largest unit that it fills. -/
def text (d : Duration) : String :=
  if d.millis = 0 then "0ns"
  else if d.millis < 1000 then s!"{d.millis}ms"
  else if d.millis % 1000 = 0 then s!"{d.millis / 1000}s"
  else s!"{d.millis / 1000}.{thousandths (d.millis % 1000)}s"

end Duration

/-! ## What jobs do -/

/-- What a thread that panics leaves behind. -/
inductive PanicPayload where
  | text (message : String)
  /-- Anything else. -/
  | other
deriving DecidableEq

def PanicPayload.message : PanicPayload → String
  | text message => message
  | other => "unknown panic payload"

inductive ThreadEnd (α : Type) where
  /-- It sent a result. -/
  | returned (result : Except RunFault α)
  /-- It panicked and sent nothing. -/
  | panicked (payload : PanicPayload)

/-- What a job does. -/
inductive Behaviour (α : Type) where
  /-- Its thread cannot be started. -/
  | unstarted (fault : RunFault)
  /-- Its thread ends, sooner or later. -/
  | ends (how : ThreadEnd α)
  /-- Its thread runs on and on. -/
  | hangs

/-- Why a job has no value. -/
inductive JobFault where
  /-- The run cannot be analysed. -/
  | run (fault : RunFault)
  /-- The job took longer than its limit. -/
  | timeout (limit : Duration)
  | panicked (message : String)
deriving DecidableEq

def JobFault.message : JobFault → String
  | .run fault => fault.message
  | .timeout limit => s!"analysis did not finish within {limit.text}"
  | .panicked message => s!"analysis panicked: {message}"

/-- What a worker makes of the end of a thread. -/
def ThreadEnd.result {α : Type} : ThreadEnd α → Except JobFault α
  | returned result => result.mapError .run
  | panicked payload => .error (.panicked payload.message)

/-! ## Jobs and workers -/

structure Job where
  /-- Its place in the batch. -/
  number : Nat
  /-- The directory it is about. -/
  dir : String
deriving DecidableEq

/-- The thread of a job can be named: it is called after the directory, and a thread's name must not
hold the character of number zero. -/
def Job.isNameable (job : Job) : Bool := !job.dir.toList.contains '\x00'

/-- What came out of a job. -/
structure JobOutcome (α : Type) where
  /-- The directory the job was about. -/
  dir : String
  /-- Its value, or why it has none. -/
  result : Except JobFault α

/-- An outcome with the number of its job. -/
structure JobReport (α : Type) where
  number : Nat
  /-- What came out of it. -/
  outcome : JobOutcome α

def Job.report {α : Type} (job : Job) (result : Except JobFault α) : JobReport α :=
  ⟨job.number, job.dir, result⟩

/-- The workers of a batch. -/
structure Runner where
  /-- The number of workers, of which there is at least one. -/
  threads : Nat
  /-- The limit of a job. -/
  timeout : Option Duration
deriving DecidableEq

/-- A runner with at least one worker. -/
def Runner.ofThreads (threads : Nat) (timeout : Option Duration) : Runner :=
  ⟨max 1 threads, timeout⟩

/-- The thread of a job. Times are in milliseconds. -/
structure JobThread (α : Type) where
  job : Job
  /-- When it was started. -/
  start : Nat
  /-- When it ended, and how. -/
  ended : Option (Nat × ThreadEnd α)
  /-- Its worker waits for it. -/
  awaited : Bool

/-- What its worker hears from a thread: what it sent, or else nothing up to the limit. -/
def JobThread.result? {α : Type} (limit : Option Duration) (now : Nat) (t : JobThread α) :
    Option (Except JobFault α) :=
  match t.ended, limit with
  | some (_, how), _ => some how.result
  | none, some l => if t.start + l.millis ≤ now then some (.error (.timeout l)) else none
  | none, none => none

/-! ## The board -/

/-- Where the jobs of a batch are. -/
structure Board (α : Type) where
  now : Nat
  /-- Jobs in the queue. -/
  waiting : List Job
  /-- All threads that were started. -/
  threads : List (JobThread α)
  /-- Reports on their way. -/
  sent : List (JobReport α)
  /-- Reports in order of arrival. -/
  arrived : List (JobReport α)

/-- One thing that happens. -/
inductive Move where
  /-- Time goes by. -/
  | wait (span : Duration)
  /-- A free worker takes the next job. -/
  | take
  /-- The thread at a place ends. -/
  | finish (place : Nat)
  /-- The worker that waits for the thread at a place reports and is free again. -/
  | report (place : Nat)
  /-- The report at a place arrives. -/
  | collect (place : Nat)
deriving DecidableEq

namespace Board

variable {α : Type}

/-- The board before anything has happened. -/
def initial (dirs : List String) : Board α := ⟨0, dirs.mapIdx Job.mk, [], [], []⟩

/-- The number of workers that wait for a thread. -/
def busy (b : Board α) : Nat := (b.threads.filter JobThread.awaited).length

/-- A worker begins with a job. -/
def start (behaviour : Job → Behaviour α) (b : Board α) (job : Job) : Board α :=
  if job.isNameable then
    match behaviour job with
    | .unstarted fault => { b with sent := b.sent ++ [job.report (.error (.run fault))] }
    | .ends _ | .hangs => { b with threads := b.threads ++ [⟨job, b.now, none, true⟩] }
  else b

/-- The board after a worker has taken the next job. -/
def take? (runner : Runner) (behaviour : Job → Behaviour α) (b : Board α) : Option (Board α) :=
  match b.waiting with
  | job :: waiting =>
    if b.busy < max 1 runner.threads then some ({ b with waiting }.start behaviour job) else none
  | [] => none

/-- The board after a thread has ended. -/
def finish? (behaviour : Job → Behaviour α) (b : Board α) (place : Nat) : Option (Board α) :=
  match b.threads[place]? with
  | some t =>
    match t.ended, behaviour t.job with
    | none, .ends how =>
      some { b with threads := b.threads.set place { t with ended := some (b.now, how) } }
    | _, _ => none
  | none => none

/-- The board after a worker has reported. -/
def report? (runner : Runner) (b : Board α) (place : Nat) : Option (Board α) :=
  match b.threads[place]? with
  | some t =>
    if t.awaited then
      (t.result? runner.timeout b.now).map fun result =>
        { b with
          threads := b.threads.set place { t with awaited := false }
          sent := b.sent ++ [t.job.report result] }
    else none
  | none => none

/-- The board after a report has arrived. -/
def collect? (b : Board α) (place : Nat) : Option (Board α) :=
  b.sent[place]?.map fun report =>
    { b with sent := b.sent.eraseIdx place, arrived := b.arrived ++ [report] }

/-- The board after a move, if it is possible. -/
def move? (runner : Runner) (behaviour : Job → Behaviour α) (b : Board α) :
    Move → Option (Board α)
  | .wait span => some { b with now := b.now + span.millis }
  | .take => b.take? runner behaviour
  | .finish place => b.finish? behaviour place
  | .report place => b.report? runner place
  | .collect place => b.collect? place

/-- The board after some moves, if all of them are possible. -/
def play? (runner : Runner) (behaviour : Job → Behaviour α) (b : Board α) (moves : List Move) :
    Option (Board α) :=
  moves.foldlM (move? runner behaviour) b

/-- Nothing is left to happen but that threads which were given up run on. -/
def isDone (b : Board α) : Bool := b.waiting.isEmpty && b.busy = 0 && b.sent.isEmpty

/-- The outcomes in the order of the jobs. -/
def outcomes (b : Board α) : List (JobOutcome α) :=
  (b.arrived.mergeSort fun x y => x.number ≤ y.number).map JobReport.outcome

/-- The board after a move, or as it is if the move is not possible. -/
def attempt (runner : Runner) (behaviour : Job → Behaviour α) (b : Board α) (m : Move) : Board α :=
  (b.move? runner behaviour m).getD b

/-- The next job is served, from the queue to the arrival of its outcome. A thread that ends does so
at once. -/
def serve (runner : Runner) (behaviour : Job → Behaviour α) (b : Board α) : Board α :=
  let place := b.threads.length
  [.take, .finish place, .wait (runner.timeout.getD ⟨0⟩), .report place, .collect 0].foldl
    (attempt runner behaviour) b

end Board

/-- The outcomes of jobs that are served one after the other. -/
def runJobs {α : Type} (runner : Runner) (dirs : List String) (behaviour : Job → Behaviour α) :
    List (JobOutcome α) :=
  (dirs.foldl (fun b _ => b.serve runner behaviour) (Board.initial dirs)).outcomes

end ClusterTrace
