import ClusterTrace.Proofs.JobBoard
import ClusterTrace.Proofs.RunLoading
import ClusterTrace.Report.BatchReport

/-!
# The outcomes of a batch

When nothing is left to happen on the board of a batch, there is one outcome for each job, in the
order of the jobs, and no other job has a part in it. This holds of all moves that workers, threads
and reports can make. Some of them are those by which `runJobs` serves the jobs one after the other,
and then each job comes to what it comes to by itself or to its limit.
-/

namespace ClusterTrace

variable {α : Type}

/-- The outcomes on a board are those of the jobs of the directories, in their order. -/
structure Board.Reported (runner : Runner) (behaviour : Job → Behaviour α) (dirs : List String)
    (b : Board α) : Prop where
  length : b.outcomes.length = dirs.length
  outcome : ∀ i dir, dirs[i]? = some dir → ∃ result, b.outcomes[i]? = some ⟨dir, result⟩ ∧
    OwnResult runner.timeout b ⟨i, dir⟩ (behaviour ⟨i, dir⟩) result
  /-- No two threads are of the same job, so each has its own. -/
  threads : (b.threads.map JobThread.job).Nodup

/-- A report lists each outcome once, in their order. A run that was analysed stands under the runs,
as its summary with the directory of the outcome. A fault stands under the failures with its
directory and its message. -/
inductive BatchReport.Lists :
    List (JobOutcome RunAnalysis) → List RunSummary → List RunFailure → Prop
  | nil : Lists [] [] []
  | run {dir : String} {run : RunAnalysis} {outcomes : List (JobOutcome RunAnalysis)}
      {runs : List RunSummary} {failures : List RunFailure}
      (own : (RunSummary.ofRun run).dir = dir) (rest : Lists outcomes runs failures) :
      Lists (⟨dir, .ok run⟩ :: outcomes) (.ofRun run :: runs) failures
  | failure {dir : String} {fault : JobFault} {outcomes : List (JobOutcome RunAnalysis)}
      {runs : List RunSummary} {failures : List RunFailure}
      (rest : Lists outcomes runs failures) :
      Lists (⟨dir, .error fault⟩ :: outcomes) runs (⟨dir, fault.message⟩ :: failures)

/-! ## The order of the outcomes -/

/-- The jobs of a batch are numbered in the order of their directories, so to sort by number is to
restore this order. -/
theorem pairwise_mapIdx (dirs : List String) :
    (dirs.mapIdx Job.mk).Pairwise fun x y => x.number < y.number := by
  rw [List.pairwise_iff_getElem]
  intro i j hi hj hij
  simpa using hij

theorem isNameable_of_mem {dirs : List String} (hnames : ∀ dir ∈ dirs, '\x00' ∉ dir.toList)
    {job : Job} (h : job ∈ dirs.mapIdx Job.mk) : job.isNameable = true := by
  obtain ⟨i, hi, rfl⟩ := List.mem_mapIdx.mp h
  simpa [Job.isNameable] using hnames _ (List.getElem_mem hi)

/-- A number belongs to one job of the batch, also if a directory is listed twice. -/
theorem eq_of_number_eq {dirs : List String} {x y : Job} (hx : x ∈ dirs.mapIdx Job.mk)
    (hy : y ∈ dirs.mapIdx Job.mk) (h : x.number = y.number) : x = y := by
  obtain ⟨i, hi, rfl⟩ := List.mem_mapIdx.mp hx
  obtain ⟨j, hj, rfl⟩ := List.mem_mapIdx.mp hy
  obtain rfl : i = j := h
  rfl

namespace Board

variable {runner : Runner} {behaviour : Job → Behaviour α} {b b' : Board α} {dirs : List String}

/-- A batch is done when no job waits, no worker waits for a thread and no report is on its way.
Threads that were given up may still run. -/
theorem isDone_iff : b.isDone = true ↔
    b.waiting = [] ∧ b.threads.filter JobThread.awaited = [] ∧ b.sent = [] := by
  simp only [isDone, busy, Bool.and_eq_true, decide_eq_true_eq, List.isEmpty_iff,
    List.length_eq_zero_iff, and_assoc]

/-- The reports in the order of their numbers are those of the jobs in their order, once all are
there. Jobs that cannot be named leave no report. -/
theorem Accounted.map_job_sorted (hb : b.Accounted runner behaviour dirs)
    (hdone : b.isDone = true) :
    (b.arrived.mergeSort fun x y => x.number ≤ y.number).map JobReport.job =
      (dirs.mapIdx Job.mk).filter Job.isNameable := by
  obtain ⟨hwaiting, hawaited, hsent⟩ := isDone_iff.mp hdone
  have hjobs : b.jobs = b.arrived.map JobReport.job := by
    simp [Board.jobs, hwaiting, hawaited, hsent]
  have hperm : ((b.arrived.mergeSort fun x y => x.number ≤ y.number).map JobReport.job).Perm
      ((dirs.mapIdx Job.mk).filter Job.isNameable) :=
    ((List.mergeSort_perm _ _).map _).trans (hjobs ▸ hb.jobs)
  have hsorted : ((b.arrived.mergeSort fun x y => x.number ≤ y.number).map JobReport.job).Pairwise
      fun x y => x.number ≤ y.number := by
    rw [List.pairwise_map]
    refine (List.pairwise_mergeSort (fun x y z hxy hyz => ?_) (fun x y => ?_) b.arrived).imp ?_
    · exact decide_eq_true (Nat.le_trans (of_decide_eq_true hxy) (of_decide_eq_true hyz))
    · simpa using Nat.le_total x.number y.number
    · exact fun hxy => of_decide_eq_true hxy
  have hjobs' : ((dirs.mapIdx Job.mk).filter Job.isNameable).Pairwise
      fun x y => x.number ≤ y.number :=
    ((pairwise_mapIdx dirs).filter _).imp Nat.le_of_lt
  -- Jobs of one number are equal here, so there is only one way to put them in order.
  refine hperm.eq_of_pairwise (fun x y hx hy hxy hyx => ?_) hsorted hjobs'
  exact eq_of_number_eq (List.mem_filter.mp (hperm.mem_iff.mp hx)).1 (List.mem_filter.mp hy).1
    (Nat.le_antisymm hxy hyx)

/-- On a board that is done the outcomes are those of all jobs. A job whose thread cannot be named
would have none. -/
theorem Accounted.reported (hb : b.Accounted runner behaviour dirs) (hdone : b.isDone = true)
    (hnames : ∀ dir ∈ dirs, '\x00' ∉ dir.toList) : b.Reported runner behaviour dirs := by
  have hnameable : (dirs.mapIdx Job.mk).filter Job.isNameable = dirs.mapIdx Job.mk :=
    List.filter_eq_self.mpr fun job hjob => isNameable_of_mem hnames hjob
  have hjobs := hb.map_job_sorted hdone
  rw [hnameable] at hjobs
  refine ⟨?_, fun i dir hdir => ?_, ?_⟩
  · rw [outcomes, List.length_map, ← List.length_map JobReport.job, hjobs, List.length_mapIdx]
  · have hi : ((b.arrived.mergeSort fun x y => x.number ≤ y.number).map JobReport.job)[i]? =
        some ⟨i, dir⟩ := by
      rw [hjobs, List.getElem?_mapIdx, hdir]
      rfl
    rw [List.getElem?_map, Option.map_eq_some_iff] at hi
    obtain ⟨m, hm, hjob⟩ := hi
    have hmem : m ∈ b.sent ++ b.arrived :=
      List.mem_append_right _ (List.mem_mergeSort.mp (List.mem_of_getElem? hm))
    have hdir' : m.outcome.dir = dir := congrArg Job.dir hjob
    have hown := hb.own m hmem
    rw [hjob] at hown
    refine ⟨m.outcome.result, ?_, hown⟩
    rw [outcomes, List.getElem?_map, hm, ← hdir']
    rfl
  · have hnodup : (dirs.mapIdx Job.mk).Nodup :=
      (pairwise_mapIdx dirs).imp fun hlt heq => Nat.ne_of_lt hlt (congrArg Job.number heq)
    exact (List.sublist_append_left _ _).nodup (hb.threads.nodup hnodup)

end Board

/-- The outcomes bear the directories of the batch, each in its place. -/
theorem Board.Reported.map_dir {runner : Runner} {behaviour : Job → Behaviour α}
    {dirs : List String} {b : Board α} (hb : b.Reported runner behaviour dirs) :
    b.outcomes.map JobOutcome.dir = dirs := by
  refine List.ext_getElem? fun i => ?_
  rw [List.getElem?_map]
  cases hdir : dirs[i]? with
  | none =>
    have hout : b.outcomes.length ≤ i := hb.length ▸ List.getElem?_eq_none_iff.mp hdir
    rw [List.getElem?_eq_none hout]
    rfl
  | some dir =>
    obtain ⟨result, hresult, -⟩ := hb.outcome i dir hdir
    rw [hresult]
    rfl

/-- A job has a value only if its thread returned it. -/
theorem OwnResult.returned_ok {limit : Option Duration} {b : Board α} {job : Job}
    {behaviour : Behaviour α} {value : α} (h : OwnResult limit b job behaviour (.ok value)) :
    behaviour = .ends (.returned (.ok value)) := by
  obtain ⟨has⟩ := h
  cases behaviour with
  | unstarted fault => cases has
  | hangs => cases has
  | ends how =>
    cases how with
    | panicked payload => cases has
    | returned result =>
      cases result with
      | error fault => cases has
      | ok value' =>
        cases has
        rfl

/-- A value among the outcomes of a batch was returned by the thread of a job of its directory. -/
theorem Board.Accounted.returned_ok {runner : Runner} {behaviour : Job → Behaviour α}
    {dirs : List String} {b : Board α} (hb : b.Accounted runner behaviour dirs)
    {o : JobOutcome α} (ho : o ∈ b.outcomes) {value : α} (hvalue : o.result = .ok value) :
    ∃ job, job.dir = o.dir ∧ behaviour job = .ends (.returned (.ok value)) := by
  obtain ⟨m, hm, rfl⟩ := List.mem_map.mp ho
  have hown := hb.own m (List.mem_append_right _ (List.mem_mergeSort.mp hm))
  rw [hvalue] at hown
  exact ⟨m.job, rfl, hown.returned_ok⟩

/-! ## Jobs served one after the other -/

/-- What a job comes to, by itself or to its limit. -/
def Behaviour.within (limit : Option Duration) (x : Behaviour α) : Option (Except JobFault α) :=
  x.result?.or (limit.map fun l => .error (.timeout l))

/-- The report on a job that is served. -/
def Job.served? (runner : Runner) (behaviour : Job → Behaviour α) (job : Job) :
    Option (JobReport α) :=
  if job.isNameable then ((behaviour job).within runner.timeout).map job.report else none

/-- Serving a job does not change its number. -/
theorem Job.number_of_served? {runner : Runner} {behaviour : Job → Behaviour α} {job : Job}
    {m : JobReport α} (h : job.served? runner behaviour = some m) : m.number = job.number := by
  unfold served? at h
  split at h
  · obtain ⟨result, -, rfl⟩ := Option.map_eq_some_iff.mp h
    rfl
  · cases h

namespace Board

variable {runner : Runner} {behaviour : Job → Behaviour α} {b b' : Board α} {dirs : List String}

/-- No worker waits for a thread, and no report is on its way. -/
structure Idle (b : Board α) : Prop where
  awaited : b.threads.filter JobThread.awaited = []
  sent : b.sent = []

/-- Serving a job brings its report and leaves no worker waiting. A job that cannot be named, one
whose thread does not start, one that ends and one that hangs up to the limit are the cases. -/
theorem Idle.serve (hb : b.Idle) {job : Job} {waiting : List Job}
    (hnext : b.waiting = job :: waiting)
    (hends : (behaviour job).within runner.timeout ≠ none) :
    (b.serve runner behaviour).Idle ∧ (b.serve runner behaviour).waiting = waiting ∧
      (b.serve runner behaviour).arrived =
        b.arrived ++ (job.served? runner behaviour).toList := by
  obtain ⟨now, _, threads, _, arrived⟩ := b
  obtain ⟨hawaited, rfl⟩ := hb
  obtain rfl := hnext
  have hfree : (Board.mk now (job :: waiting) threads [] arrived).busy < max 1 runner.threads := by
    rw [busy, hawaited]
    exact Nat.lt_of_lt_of_le Nat.zero_lt_one (Nat.le_max_left 1 _)
  -- Time passes up to the limit, which is of no consequence for a thread that has ended.
  let later := now + (runner.timeout.getD ⟨0⟩).millis
  cases hname : job.isNameable with
  | false =>
    have hserve : (Board.mk now (job :: waiting) threads [] arrived).serve runner behaviour =
        ⟨later, waiting, threads, [], arrived⟩ := by
      simp [Board.serve, attempt, move?, take?, finish?, report?, collect?, start, hname, hfree,
        later]
    rw [hserve, Job.served?, hname]
    exact ⟨⟨hawaited, rfl⟩, rfl, (List.append_nil arrived).symm⟩
  | true =>
    rw [Job.served?, hname, if_pos rfl]
    cases hbehaves : behaviour job with
    | unstarted fault =>
      have hserve : (Board.mk now (job :: waiting) threads [] arrived).serve runner behaviour =
          ⟨later, waiting, threads, [], arrived ++ [job.report (.error (.run fault))]⟩ := by
        simp [Board.serve, attempt, move?, take?, finish?, report?, collect?, start, hname, hfree,
          hbehaves, later]
      rw [hserve]
      exact ⟨⟨hawaited, rfl⟩, rfl, rfl⟩
    | ends how =>
      have hserve : (Board.mk now (job :: waiting) threads [] arrived).serve runner behaviour =
          ⟨later, waiting, threads ++ [⟨job, now, some (now, how), false⟩], [],
            arrived ++ [job.report how.result]⟩ := by
        simp [Board.serve, attempt, move?, take?, finish?, report?, collect?, start, hname, hfree,
          hbehaves, later, JobThread.result?]
      rw [hserve]
      exact ⟨⟨by simpa using hawaited, rfl⟩, rfl, rfl⟩
    | hangs =>
      cases hlimit : runner.timeout with
      | none =>
        rw [hbehaves, hlimit] at hends
        exact absurd rfl hends
      | some l =>
        have hserve : (Board.mk now (job :: waiting) threads [] arrived).serve runner behaviour =
            ⟨later, waiting, threads ++ [⟨job, now, none, false⟩], [],
              arrived ++ [job.report (.error (.timeout l))]⟩ := by
          simp [Board.serve, attempt, move?, take?, finish?, report?, collect?, start, hname, hfree,
            hbehaves, hlimit, later, JobThread.result?]
        rw [hserve]
        exact ⟨⟨by simpa using hawaited, rfl⟩, rfl, rfl⟩

/-- All waiting jobs are served in turn, and their reports come in the order of the jobs. The
induction is on the turns, of which there is one for each job. -/
theorem Idle.foldl_serve (hb : b.Idle) {turns : List String}
    (hturns : turns.length = b.waiting.length)
    (hends : ∀ job ∈ b.waiting, (behaviour job).within runner.timeout ≠ none) :
    (turns.foldl (fun b _ => b.serve runner behaviour) b).Idle ∧
      (turns.foldl (fun b _ => b.serve runner behaviour) b).waiting = [] ∧
      (turns.foldl (fun b _ => b.serve runner behaviour) b).arrived =
        b.arrived ++ b.waiting.filterMap (Job.served? runner behaviour) := by
  induction turns generalizing b with
  | nil =>
    have hnone : b.waiting = [] := List.length_eq_zero_iff.mp hturns.symm
    exact ⟨hb, hnone, by rw [hnone, List.filterMap_nil, List.append_nil]; rfl⟩
  | cons turn turns ih =>
    obtain ⟨job, waiting, hnext⟩ := List.exists_cons_of_length_eq_add_one hturns.symm
    rw [hnext] at hends hturns
    obtain ⟨hidle, hwaiting, harrived⟩ := hb.serve hnext (hends job List.mem_cons_self)
    obtain ⟨hidle', hwaiting', harrived'⟩ := ih hidle (by rw [hwaiting]; exact Nat.succ.inj hturns)
      (by rw [hwaiting]; exact fun job hjob => hends job (List.mem_cons_of_mem _ hjob))
    refine ⟨hidle', hwaiting', harrived'.trans ?_⟩
    rw [harrived, hwaiting, hnext, List.append_assoc]
    cases hserved : job.served? runner behaviour with
    | none => rw [List.filterMap_cons_none hserved]; rfl
    | some m => rw [List.filterMap_cons_some hserved]; rfl

theorem play?_append {moves moves' : List Move} :
    b.play? runner behaviour (moves ++ moves') =
      (b.play? runner behaviour moves).bind fun next => next.play? runner behaviour moves' :=
  List.foldlM_append

variable (runner behaviour) in
/-- Moves that are attempted are as good as those of them that are possible: one that is not
possible leaves the board as it was. -/
theorem exists_play?_attempts (attempts : List Move) (b : Board α) :
    ∃ moves, b.play? runner behaviour moves =
      some (attempts.foldl (attempt runner behaviour) b) := by
  induction attempts generalizing b with
  | nil => exact ⟨[], rfl⟩
  | cons m attempts ih =>
    obtain ⟨moves, hmoves⟩ := ih (b.attempt runner behaviour m)
    cases hm : b.move? runner behaviour m with
    | none =>
      have hkept : b.attempt runner behaviour m = b := by rw [attempt, hm]; rfl
      rw [hkept] at hmoves
      exact ⟨moves, by rw [List.foldl_cons, hkept]; exact hmoves⟩
    | some next =>
      have hmade : b.attempt runner behaviour m = next := by rw [attempt, hm]; rfl
      rw [hmade] at hmoves
      refine ⟨m :: moves, ?_⟩
      rw [List.foldl_cons, hmade, play?, List.foldlM_cons, hm]
      exact hmoves

variable (runner behaviour) in
/-- Serving all jobs in turn is one of the ways in which a batch can go, whatever jobs there are. -/
theorem exists_play?_serves (turns : List String) (b : Board α) :
    ∃ moves, b.play? runner behaviour moves =
      some (turns.foldl (fun b _ => b.serve runner behaviour) b) := by
  induction turns generalizing b with
  | nil => exact ⟨[], rfl⟩
  | cons turn turns ih =>
    obtain ⟨first, hfirst⟩ := exists_play?_attempts runner behaviour
      [.take, .finish b.threads.length, .wait (runner.timeout.getD ⟨0⟩), .report b.threads.length,
        .collect 0] b
    obtain ⟨rest, hrest⟩ := ih (b.serve runner behaviour)
    refine ⟨first ++ rest, ?_⟩
    rw [play?_append, hfirst]
    exact hrest

end Board

section Serve

variable {runner : Runner} {behaviour : Job → Behaviour α} {dirs : List String}

/-- The jobs that are served one after the other are done in the end, if each of them ends or has a
limit. -/
theorem exists_play?_runJobs
    (hends : ∀ job ∈ dirs.mapIdx Job.mk, (behaviour job).within runner.timeout ≠ none) :
    ∃ moves b, (Board.initial dirs).play? runner behaviour moves = some b ∧ b.isDone = true ∧
      runJobs runner dirs behaviour = b.outcomes := by
  obtain ⟨moves, hmoves⟩ :=
    Board.exists_play?_serves runner behaviour dirs (Board.initial dirs)
  have hidle : (Board.initial (α := α) dirs).Idle := ⟨rfl, rfl⟩
  obtain ⟨hdone, hwaiting, -⟩ := hidle.foldl_serve (List.length_mapIdx).symm hends
  exact ⟨moves, _, hmoves, Board.isDone_iff.mpr ⟨hwaiting, hdone.awaited, hdone.sent⟩, rfl⟩

/-- What comes out of jobs that are served one after the other is what each of them comes to. -/
theorem runJobs_eq
    (hends : ∀ job ∈ dirs.mapIdx Job.mk, (behaviour job).within runner.timeout ≠ none) :
    runJobs runner dirs behaviour =
      ((dirs.mapIdx Job.mk).filterMap (Job.served? runner behaviour)).map JobReport.outcome := by
  have hidle : (Board.initial (α := α) dirs).Idle := ⟨rfl, rfl⟩
  obtain ⟨-, -, harrived⟩ := hidle.foldl_serve (List.length_mapIdx).symm hends
  have hsorted : ((dirs.mapIdx Job.mk).filterMap (Job.served? runner behaviour)).Pairwise
      fun x y => decide (x.number ≤ y.number) = true := by
    refine (pairwise_mapIdx dirs).filterMap _ fun x y hxy m hm m' hm' => ?_
    rw [Job.number_of_served? hm, Job.number_of_served? hm']
    exact decide_eq_true (Nat.le_of_lt hxy)
  rw [runJobs, Board.outcomes, harrived]
  exact congrArg _ (List.mergeSort_of_pairwise hsorted)

end Serve

/-- The analysis of a batch is made by moves until all is done. -/
theorem Batch.exists_play?_analyze (s : Storage) (dirs : List String) (options : RunOptions)
    (runner : Runner) : ∃ moves b, (Board.initial dirs).play? runner
      (fun job => .ends (.returned (RunAnalysis.load s job.dir options))) moves = some b ∧
      b.isDone = true ∧ Batch.analyze s dirs options runner = b.outcomes :=
  exists_play?_runJobs fun job _ => by simp [Behaviour.within, Behaviour.result?]

/-- The analysis of a batch is that of each directory. -/
theorem Batch.analyze_eq {s : Storage} {dirs : List String} {options : RunOptions}
    {runner : Runner} (hnames : ∀ dir ∈ dirs, '\x00' ∉ dir.toList) :
    Batch.analyze s dirs options runner =
      dirs.map fun dir => ⟨dir, (RunAnalysis.load s dir options).mapError .run⟩ := by
  unfold Batch.analyze
  rw [runJobs_eq fun job _ => by simp [Behaviour.within, Behaviour.result?]]
  have hserved : ∀ job ∈ dirs.mapIdx Job.mk,
      job.served? runner (fun job => .ends (.returned (RunAnalysis.load s job.dir options))) =
        some (job.report ((RunAnalysis.load s job.dir options).mapError .run)) := by
    intro job hjob
    rw [Job.served?, isNameable_of_mem hnames hjob, if_pos rfl]
    rfl
  rw [List.filterMap_congr hserved, List.filterMap_eq_map', List.map_map]
  refine List.ext_getElem (by simp) fun i hi hi' => ?_
  simp [Job.report]

/-! ## The report -/

/-- Runs that were loaded from the directories of their outcomes are listed under these. -/
theorem BatchReport.lists_ofOutcomes {outcomes : List (JobOutcome RunAnalysis)}
    (h : ∀ o ∈ outcomes, ∀ run, o.result = .ok run → run.files.dir = o.dir) :
    BatchReport.Lists outcomes (BatchReport.ofOutcomes outcomes).runs
      (BatchReport.ofOutcomes outcomes).failures := by
  induction outcomes with
  | nil => exact .nil
  | cons o rest ih =>
    have hrest := ih fun o ho => h o (List.mem_cons_of_mem _ ho)
    obtain ⟨dir, result⟩ := o
    cases result with
    | ok run => exact .run (h _ List.mem_cons_self run rfl) hrest
    | error fault => exact .failure hrest

/-- Whatever the workers, the behaviours of the jobs and the moves are, a batch that is done has the
outcomes of its jobs in their order, and each is the job's own. So the report of a batch of runs
lists each of them once, as what its own analysis came to. Only the threads must have names, or else
some jobs have no outcome. -/
theorem batch_inOrder {runner : Runner} {dirs : List String}
    (hnames : ∀ dir ∈ dirs, '\x00' ∉ dir.toList) :
    (∀ {α : Type} {behaviour : Job → Behaviour α} {moves : List Move} {b : Board α},
      (Board.initial dirs).play? runner behaviour moves = some b → b.isDone = true →
        b.Reported runner behaviour dirs) ∧
    (∀ (s : Storage) (options : RunOptions) {behaviour : Job → Behaviour RunAnalysis}
      {moves : List Move} {b : Board RunAnalysis},
      (∀ job run, behaviour job = .ends (.returned (.ok run)) →
        RunAnalysis.load s job.dir options = .ok run) →
      (Board.initial dirs).play? runner behaviour moves = some b → b.isDone = true →
        b.outcomes.map JobOutcome.dir = dirs ∧
          BatchReport.Lists b.outcomes (BatchReport.ofOutcomes b.outcomes).runs
            (BatchReport.ofOutcomes b.outcomes).failures) := by
  refine ⟨fun hplay hdone => (Board.accounted_of_play? hplay).reported hdone hnames, ?_⟩
  intro s options behaviour moves b hload hplay hdone
  have haccounted := Board.accounted_of_play? hplay
  refine ⟨(haccounted.reported hdone hnames).map_dir, ?_⟩
  refine BatchReport.lists_ofOutcomes fun o ho run hresult => ?_
  obtain ⟨job, hdir, hreturned⟩ := haccounted.returned_ok ho hresult
  exact hdir ▸ RunAnalysis.dir_of_load (hload job run hreturned)

/-- Four jobs: one that takes longer than its limit, one with a value, one that panics and one whose
thread cannot be started. -/
def mixedBehaviour (job : Job) : Behaviour Nat :=
  match job.number with
  | 0 => .ends (.returned (.ok 1))
  | 1 => .ends (.returned (.ok 7))
  | 2 => .ends (.panicked (.text "bad run"))
  | _ => .unstarted .noLogStats

/-- Two workers take the jobs, the first job is given up and ends later, and the reports arrive in
another order than that of the jobs. -/
def mixedMoves : List Move :=
  [.take, .take, .finish 1, .report 1, .collect 0, .wait ⟨30⟩, .take, .wait ⟨20⟩, .report 0, .take,
    .collect 1, .finish 2, .finish 0, .report 2, .collect 1, .collect 0]

/-- The board after these moves. -/
def mixedBoard : Board Nat where
  now := 50
  waiting := []
  threads :=
    [⟨⟨0, "slow"⟩, 0, some (50, .returned (.ok 1)), false⟩,
     ⟨⟨1, "a"⟩, 0, some (0, .returned (.ok 7)), false⟩,
     ⟨⟨2, "b"⟩, 30, some (50, .panicked (.text "bad run")), false⟩]
  sent := []
  arrived :=
    [⟨1, "a", .ok 7⟩, ⟨3, "c", .error (.run .noLogStats)⟩, ⟨2, "b", .error (.panicked "bad run")⟩,
     ⟨0, "slow", .error (.timeout ⟨50⟩)⟩]

/-- A storage with the directory of one run, to which another path does not lead. -/
def gpuStorage : Storage := RunFiles.runStorage (gpuRun "1")

/-- Of two runs one is analysed and the other is not there. -/
theorem analyze_gpuStorage : ∃ run, RunAnalysis.load gpuStorage "run" ⟨true, .standard⟩ = .ok run ∧
    Batch.analyze gpuStorage ["run", "absent"] ⟨true, .standard⟩ ⟨1, none⟩ =
      [⟨"run", .ok run⟩, ⟨"absent", .error (.run (.unreadable "absent" .notFound))⟩] := by
  have proper : gpuStorage.root.Proper :=
    .singleton (by decide) (.singleton (by decide) (proper_gpuRun "1"))
  have hlist : gpuStorage.list "run" = .ok (gpuRun "1") := rfl
  obtain ⟨run, hrun, -⟩ := exists_load_gpuRun proper hlist (by decide)
  have habsent : RunAnalysis.load gpuStorage "absent" ⟨true, .standard⟩ =
      .error (.unreadable "absent" .notFound) := rfl
  refine ⟨run, hrun, ?_⟩
  rw [Batch.analyze_eq (by decide), List.map_cons, List.map_singleton, hrun, habsent]
  rfl

/-- Each way in which a job can end keeps to its own outcome. In a report of two runs the one that
is there is listed with the runs, and the other one with its message. -/
theorem mixedBoard_inOrder :
    mixedBoard.Reported ⟨2, some ⟨50⟩⟩ mixedBehaviour ["slow", "a", "b", "c"] ∧
    ∃ outcomes run, outcomes =
        Batch.analyze gpuStorage ["run", "absent"] ⟨true, .standard⟩ ⟨1, none⟩ ∧
      RunAnalysis.load gpuStorage "run" ⟨true, .standard⟩ = .ok run ∧
      (BatchReport.ofOutcomes outcomes).runs = [.ofRun run] ∧
      (BatchReport.ofOutcomes outcomes).failures =
        [⟨"absent", "failed to read absent: No such file or directory (os error 2)"⟩] ∧
      BatchReport.Lists outcomes (BatchReport.ofOutcomes outcomes).runs
        (BatchReport.ofOutcomes outcomes).failures := by
  have hplay : (Board.initial ["slow", "a", "b", "c"]).play? ⟨2, some ⟨50⟩⟩ mixedBehaviour
      mixedMoves = some mixedBoard := rfl
  obtain ⟨run, hrun, hanalyze⟩ := analyze_gpuStorage
  obtain ⟨moves, b, hserved, hdone, houtcomes⟩ := Batch.exists_play?_analyze gpuStorage
    ["run", "absent"] ⟨true, .standard⟩ ⟨1, none⟩
  obtain ⟨-, hlists⟩ := (batch_inOrder (by decide)).2 gpuStorage ⟨true, .standard⟩
    (fun job run hrun => ThreadEnd.returned.inj (Behaviour.ends.inj hrun)) hserved hdone
  have hboth : b.outcomes =
      [⟨"run", .ok run⟩, ⟨"absent", .error (.run (.unreadable "absent" .notFound))⟩] :=
    houtcomes.symm.trans hanalyze
  refine ⟨(batch_inOrder (by decide)).1 hplay rfl, b.outcomes, run, houtcomes.symm, hrun, ?_, ?_,
    hlists⟩
  · rw [hboth]
    rfl
  · rw [hboth]
    rfl

end ClusterTrace
