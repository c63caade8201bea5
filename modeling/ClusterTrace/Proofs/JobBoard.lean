import ClusterTrace.Batch.Jobs
import Mathlib.Data.List.Nodup

/-!
# Where the jobs of a batch are

Whatever the moves are, each job is in one place: it waits, a worker waits for its thread, or the
one report on it is on its way or has arrived. A report says what the job came to by itself, or that
its own thread was not in time, so no other job has a part in it. Both are kept by every move
(`Board.Step`), and so they hold of every board that moves lead to.
-/

namespace ClusterTrace

variable {α : Type}

/-- The job that a report is about. -/
def JobReport.job (m : JobReport α) : Job := ⟨m.number, m.outcome.dir⟩

@[simp] theorem Job.job_report (job : Job) (result : Except JobFault α) :
    (job.report result).job = job := rfl

/-- What a job comes to by itself, if it comes to an end. -/
def Behaviour.result? : Behaviour α → Option (Except JobFault α)
  | unstarted fault => some (.error (.run fault))
  | ends how => some how.result
  | hangs => none

/-- The limit of a thread is over, and it sent nothing before. -/
structure JobThread.Late (limit : Duration) (now : Nat) (t : JobThread α) : Prop where
  passed : t.start + limit.millis ≤ now
  unsent : ∀ tick how, t.ended = some (tick, how) → t.start + limit.millis ≤ tick

/-- What a worker hears is how the thread ended, or else the limit is over. -/
theorem JobThread.result?_cases {limit : Option Duration} {now : Nat} {t : JobThread α}
    {result : Except JobFault α} (h : t.result? limit now = some result) :
    (∃ tick how, t.ended = some (tick, how) ∧ result = how.result) ∨
      ∃ l, limit = some l ∧ t.Late l now ∧ result = .error (.timeout l) := by
  unfold result? at h
  split at h
  · rename_i tick how hended
    exact Or.inl ⟨tick, how, hended, (Option.some.inj h).symm⟩
  · rename_i l hended
    split at h
    · rename_i hpassed
      have hunsent : ∀ tick how, t.ended = some (tick, how) → t.start + l.millis ≤ tick := by
        intro tick how hsome
        rw [hended] at hsome
        cases hsome
      exact Or.inr ⟨l, rfl, ⟨hpassed, hunsent⟩, (Option.some.inj h).symm⟩
    · cases h
  · cases h

/-- A result of a job that only the job itself has a part in: what it comes to by itself or, if
there is a limit, that its own thread was late. -/
inductive OwnResult (limit : Option Duration) (b : Board α) (job : Job) (behaviour : Behaviour α) :
    Except JobFault α → Prop
  | itself {result : Except JobFault α} (has : behaviour.result? = some result) :
      OwnResult limit b job behaviour result
  | late {l : Duration} {t : JobThread α} (limited : limit = some l) (thread : t ∈ b.threads)
      (own : t.job = job) (late : t.Late l b.now) :
      OwnResult limit b job behaviour (.error (.timeout l))

namespace Board

/-- The jobs that can be named, at each place where they can be. -/
def jobs (b : Board α) : List Job :=
  b.waiting.filter Job.isNameable ++ (b.threads.filter JobThread.awaited).map JobThread.job ++
    (b.sent ++ b.arrived).map JobReport.job

/-! ## Moves -/

/-- What a move can be. -/
inductive Step (runner : Runner) (behaviour : Job → Behaviour α) (b : Board α) : Board α → Prop
  | wait (span : Duration) : Step runner behaviour b { b with now := b.now + span.millis }
  | unnamed {job : Job} {waiting : List Job} (free : b.busy < max 1 runner.threads)
      (next : b.waiting = job :: waiting) (nameless : job.isNameable = false) :
      Step runner behaviour b { b with waiting }
  | unstarted {job : Job} {waiting : List Job} {fault : RunFault}
      (free : b.busy < max 1 runner.threads) (next : b.waiting = job :: waiting)
      (nameable : job.isNameable = true) (behaves : behaviour job = .unstarted fault) :
      Step runner behaviour b
        { b with waiting, sent := b.sent ++ [job.report (.error (.run fault))] }
  | started {job : Job} {waiting : List Job} (free : b.busy < max 1 runner.threads)
      (next : b.waiting = job :: waiting) (nameable : job.isNameable = true) :
      Step runner behaviour b
        { b with waiting, threads := b.threads ++ [⟨job, b.now, none, true⟩] }
  | finished {before after : List (JobThread α)} {t : JobThread α} {how : ThreadEnd α}
      (place : b.threads = before ++ t :: after) (working : t.ended = none)
      (behaves : behaviour t.job = .ends how) :
      Step runner behaviour b
        { b with threads := before ++ { t with ended := some (b.now, how) } :: after }
  | reported {before after : List (JobThread α)} {t : JobThread α} {result : Except JobFault α}
      (place : b.threads = before ++ t :: after) (awaited : t.awaited = true)
      (heard : t.result? runner.timeout b.now = some result) :
      Step runner behaviour b
        { b with
          threads := before ++ { t with awaited := false } :: after
          sent := b.sent ++ [t.job.report result] }
  | collected {before after : List (JobReport α)} {m : JobReport α}
      (place : b.sent = before ++ m :: after) :
      Step runner behaviour b { b with sent := before ++ after, arrived := b.arrived ++ [m] }

variable {runner : Runner} {behaviour : Job → Behaviour α} {b b' : Board α} {dirs : List String}

/-- A list around one of its places. -/
theorem exists_of_getElem? {β : Type} {l : List β} {place : Nat} {x : β}
    (h : l[place]? = some x) : ∃ before after, l = before ++ x :: after ∧
      (∀ y, l.set place y = before ++ y :: after) ∧ l.eraseIdx place = before ++ after := by
  obtain ⟨hlt, hx⟩ := List.getElem?_eq_some_iff.mp h
  refine ⟨l.take place, l.drop (place + 1), ?_, fun y => ?_, ?_⟩
  · rw [← hx, List.getElem_cons_drop, List.take_append_drop]
  · rw [List.set_eq_take_append_cons_drop, if_pos hlt]
  · exact List.eraseIdx_eq_take_drop_succ l place

theorem mem_around {β : Type} {before after : List β} {x y : β} :
    y ∈ before ++ x :: after ↔ y = x ∨ y ∈ before ++ after := by
  rw [List.mem_append, List.mem_cons, List.mem_append, or_left_comm]

/-- A worker that takes a job starts it, or reports that it cannot be started, or breaks off because
the thread has no name. -/
theorem step_of_take? (h : b.take? runner behaviour = some b') : Step runner behaviour b b' := by
  unfold take? at h
  split at h
  · rename_i job waiting hnext
    split at h
    · rename_i hfree
      obtain rfl := Option.some.inj h
      unfold start
      cases hname : job.isNameable with
      | false => exact .unnamed hfree hnext hname
      | true =>
        cases hbehaves : behaviour job with
        | unstarted fault => exact .unstarted hfree hnext hname hbehaves
        | ends how => exact .started hfree hnext hname
        | hangs => exact .started hfree hnext hname
    · cases h
  · cases h

/-- A thread ends as its job behaves, at the time of the move. -/
theorem step_of_finish? {place : Nat} (h : b.finish? behaviour place = some b') :
    Step runner behaviour b b' := by
  unfold finish? at h
  split at h
  · rename_i t ht
    obtain ⟨before, after, hplace, hset, -⟩ := exists_of_getElem? ht
    split at h
    · rename_i how hworking hbehaves
      obtain rfl := Option.some.inj h
      rw [hset]
      exact .finished hplace hworking hbehaves
    · cases h
  · cases h

/-- A worker reports what it has heard from the thread it waits for, or that the limit is over. -/
theorem step_of_report? {place : Nat} (h : b.report? runner place = some b') :
    Step runner behaviour b b' := by
  unfold report? at h
  split at h
  · rename_i t ht
    obtain ⟨before, after, hplace, hset, -⟩ := exists_of_getElem? ht
    split at h
    · rename_i hawaited
      obtain ⟨result, hheard, rfl⟩ := Option.map_eq_some_iff.mp h
      rw [hset]
      exact .reported hplace hawaited hheard
    · cases h
  · cases h

/-- Reports are collected in any order. -/
theorem step_of_collect? {place : Nat} (h : b.collect? place = some b') :
    Step runner behaviour b b' := by
  obtain ⟨m, hm, rfl⟩ := Option.map_eq_some_iff.mp h
  obtain ⟨before, after, hplace, -, herase⟩ := exists_of_getElem? hm
  rw [herase]
  exact .collected hplace

/-- Each move that is possible is a step, so what steps preserve holds of all that can happen. -/
theorem step_of_move? {m : Move} (h : b.move? runner behaviour m = some b') :
    Step runner behaviour b b' := by
  cases m with
  | wait span =>
    obtain rfl := Option.some.inj h
    exact .wait span
  | take => exact step_of_take? h
  | finish place => exact step_of_finish? h
  | report place => exact step_of_report? h
  | collect place => exact step_of_collect? h

/-- What every move keeps holds after all moves. -/
theorem play?_induction {motive : Board α → Prop} (hb : motive b)
    (hstep : ∀ {b b' : Board α}, motive b → Step runner behaviour b b' → motive b')
    {moves : List Move} (h : b.play? runner behaviour moves = some b') : motive b' := by
  induction moves generalizing b with
  | nil =>
    obtain rfl := Option.some.inj h
    exact hb
  | cons m moves ih =>
    obtain ⟨next, hnext, hrest⟩ := Option.bind_eq_some_iff.mp h
    exact ih (hstep hb (step_of_move? hnext)) hrest

/-- No more threads are waited for than there are workers: only a worker that is free starts a
thread, and no other move makes one be waited for. -/
theorem Step.busy_le (h : Step runner behaviour b b') (hb : b.busy ≤ max 1 runner.threads) :
    b'.busy ≤ max 1 runner.threads := by
  cases h with
  | wait span => exact hb
  | unnamed free next nameless => exact hb
  | unstarted free next nameable behaves => exact hb
  | collected place => exact hb
  | @started job waiting free next nameable =>
    have hbusy : Board.busy { b with waiting, threads := b.threads ++ [⟨job, b.now, none, true⟩] } =
        b.busy + 1 := by
      simp [busy]
    rw [hbusy]
    exact free
  | @finished before after t how place working behaves =>
    refine Nat.le_trans (Nat.le_of_eq ?_) hb
    cases hawaited : t.awaited <;> simp [busy, place, hawaited]
  | reported place awaited heard =>
    refine Nat.le_trans ?_ hb
    simp [busy, place, awaited]

/-- No more jobs are under way at a time than there are workers, of which there is always one. -/
theorem busy_le_of_play? {moves : List Move}
    (h : (initial dirs).play? runner behaviour moves = some b) :
    b.busy ≤ max 1 runner.threads :=
  play?_induction (Nat.zero_le _) (fun hb hstep => hstep.busy_le hb) h

/-! ## Each job is in one place -/

/-- A move takes a job from one place to another at most. So every job that can be named is in just
one place along every run. -/
theorem Step.jobs (h : Step runner behaviour b b') : b'.jobs.Perm b.jobs := by
  -- The places are lists side by side, so a job that moves is counted once less and once more.
  rw [List.perm_iff_count]
  intro job
  cases h with
  | wait span => rfl
  | unnamed free next nameless => simp [Board.jobs, next, nameless]
  | unstarted free next nameable behaves =>
    simp [Board.jobs, next, nameable, List.count_cons]
    omega
  | started free next nameable =>
    simp [Board.jobs, next, nameable, List.count_cons]
    omega
  | @finished before after t how place working behaves =>
    cases hawaited : t.awaited <;> simp [Board.jobs, place, hawaited]
  | reported place awaited heard =>
    simp [Board.jobs, place, awaited, List.count_cons]
    omega
  | collected place =>
    simp [Board.jobs, place, List.count_cons]
    omega

/-- The threads are of different jobs, taken in their order. -/
theorem Step.threads (h : Step runner behaviour b b') :
    (b'.threads.map JobThread.job ++ b'.waiting).Sublist
      (b.threads.map JobThread.job ++ b.waiting) := by
  cases h with
  | wait span => exact List.Sublist.refl _
  | unnamed free next nameless =>
    rw [next]
    exact (List.sublist_cons_self _ _).append_left _
  | unstarted free next nameable behaves =>
    rw [next]
    exact (List.sublist_cons_self _ _).append_left _
  | started free next nameable => simp [next]
  | finished place working behaves => simp [place]
  | reported place awaited heard => simp [place]
  | collected place => exact List.Sublist.refl _

/-! ## Results are own results -/

/-- A thread that was late stays so. Time only goes forward, and if the thread ends now, it ends
past its limit. -/
theorem Step.late (h : Step runner behaviour b b') {l : Duration} {t : JobThread α}
    (ht : t ∈ b.threads) (hlate : t.Late l b.now) :
    ∃ t' ∈ b'.threads, t'.job = t.job ∧ t'.Late l b'.now := by
  cases h with
  | wait span => exact ⟨t, ht, rfl, Nat.le_add_right_of_le hlate.passed, hlate.unsent⟩
  | unnamed free next nameless => exact ⟨t, ht, rfl, hlate⟩
  | unstarted free next nameable behaves => exact ⟨t, ht, rfl, hlate⟩
  | started free next nameable => exact ⟨t, List.mem_append_left _ ht, rfl, hlate⟩
  | @finished before after s how place working behaves =>
    rw [place] at ht
    rcases mem_around.mp ht with rfl | hother
    · -- The thread ends now, and now is past its limit.
      refine ⟨{ t with ended := some (b.now, how) }, mem_around.mpr (Or.inl rfl), rfl,
        hlate.passed, fun tick how' hended => ?_⟩
      obtain ⟨rfl, -⟩ := Prod.mk.inj (Option.some.inj hended)
      exact hlate.passed
    · exact ⟨t, mem_around.mpr (Or.inr hother), rfl, hlate⟩
  | @reported before after s result place awaited heard =>
    rw [place] at ht
    rcases mem_around.mp ht with rfl | hother
    · exact ⟨{ t with awaited := false }, mem_around.mpr (Or.inl rfl), rfl, hlate.passed,
        hlate.unsent⟩
    · exact ⟨t, mem_around.mpr (Or.inr hother), rfl, hlate⟩
  | collected place => exact ⟨t, ht, rfl, hlate⟩

/-- A result that is a job's own stays so: threads keep what they were, and time only passes. -/
theorem OwnResult.step {job : Job} {own : Behaviour α} {result : Except JobFault α}
    (hr : OwnResult runner.timeout b job own result) (h : Step runner behaviour b b') :
    OwnResult runner.timeout b' job own result := by
  cases hr with
  | itself has => exact .itself has
  | late limited thread isOwn late =>
    obtain ⟨t', ht', hjob, hlate'⟩ := h.late thread late
    exact .late limited ht' (hjob.trans isOwn) hlate'

/-- All that is kept by every move. -/
structure Accounted (runner : Runner) (behaviour : Job → Behaviour α) (dirs : List String)
    (b : Board α) : Prop where
  /-- Each job is in one place. -/
  jobs : b.jobs.Perm ((dirs.mapIdx Job.mk).filter Job.isNameable)
  threads : (b.threads.map JobThread.job ++ b.waiting).Sublist (dirs.mapIdx Job.mk)
  ended : ∀ t ∈ b.threads, ∀ tick how, t.ended = some (tick, how) → behaviour t.job = .ends how
  /-- Every report says what its job alone came to. -/
  own : ∀ m ∈ b.sent ++ b.arrived,
    OwnResult runner.timeout b m.job (behaviour m.job) m.outcome.result

theorem accounted_initial : (initial dirs).Accounted runner behaviour dirs where
  jobs := by simp [Board.jobs, initial]
  threads := by simp [initial]
  ended := fun t ht => (List.not_mem_nil ht).elim
  own := fun m hm => (List.not_mem_nil hm).elim

/-- A thread that has ended did so as its own job behaves. Only the move by which a thread ends
writes how, and it takes this from the job. -/
theorem Step.ended (h : Step runner behaviour b b')
    (hb : ∀ t ∈ b.threads, ∀ tick how, t.ended = some (tick, how) → behaviour t.job = .ends how) :
    ∀ t ∈ b'.threads, ∀ tick how, t.ended = some (tick, how) → behaviour t.job = .ends how := by
  cases h with
  | wait span => exact hb
  | unnamed free next nameless => exact hb
  | unstarted free next nameable behaves => exact hb
  | collected place => exact hb
  | started free next nameable =>
    intro t ht tick how hended
    rcases List.mem_append.mp ht with ht | ht
    · exact hb t ht tick how hended
    · obtain rfl := List.mem_singleton.mp ht
      cases hended
  | @finished before after s how place working behaves =>
    intro t ht tick how' hended
    rw [place] at hb
    rcases mem_around.mp ht with rfl | hother
    · obtain ⟨-, rfl⟩ := Prod.mk.inj (Option.some.inj hended)
      exact behaves
    · exact hb t (mem_around.mpr (Or.inr hother)) tick how' hended
  | @reported before after s result place awaited heard =>
    intro t ht tick how hended
    rw [place] at hb
    rcases mem_around.mp ht with rfl | hother
    · exact hb s (mem_around.mpr (Or.inl rfl)) tick how hended
    · exact hb t (mem_around.mpr (Or.inr hother)) tick how hended

/-- The reports after a move: those before, and at most one more, which a worker adds for the job of
its own thread. Each says what its own job does, or that it was late. -/
theorem Step.own (h : Step runner behaviour b b') (hb : b.Accounted runner behaviour dirs) :
    ∀ m ∈ b'.sent ++ b'.arrived,
      OwnResult runner.timeout b' m.job (behaviour m.job) m.outcome.result := by
  -- Only a worker that reports, or finds that a thread cannot be started, adds a report.
  have hold : ∀ m ∈ b.sent ++ b.arrived,
      OwnResult runner.timeout b' m.job (behaviour m.job) m.outcome.result :=
    fun m hm => OwnResult.step (hb.own m hm) h
  cases h with
  | wait span => exact hold
  | unnamed free next nameless => exact hold
  | started free next nameable => exact hold
  | finished place working behaves => exact hold
  | unstarted free next nameable behaves =>
    intro m hm
    rw [List.append_assoc, List.mem_append, List.mem_append, List.mem_singleton] at hm
    rcases hm with hm | rfl | hm
    · exact hold m (List.mem_append_left _ hm)
    · exact .itself (congrArg Behaviour.result? behaves)
    · exact hold m (List.mem_append_right _ hm)
  | @reported before after t result place awaited heard =>
    intro m hm
    rw [List.append_assoc, List.mem_append, List.mem_append, List.mem_singleton] at hm
    rcases hm with hm | rfl | hm
    · exact hold m (List.mem_append_left _ hm)
    · rcases JobThread.result?_cases heard with ⟨tick, how, hended, rfl⟩ | ⟨l, hlimit, hlate, rfl⟩
      · have ht : t ∈ b.threads := place ▸ mem_around.mpr (Or.inl rfl)
        exact .itself (congrArg Behaviour.result? (hb.ended t ht tick how hended))
      · have ht' : { t with awaited := false } ∈ before ++ { t with awaited := false } :: after :=
          mem_around.mpr (Or.inl rfl)
        exact .late hlimit ht' rfl ⟨hlate.passed, hlate.unsent⟩
    · exact hold m (List.mem_append_right _ hm)
  | @collected before after report place =>
    intro m hm
    refine hold m ?_
    rw [place]
    simp only [List.mem_append, List.mem_cons] at hm ⊢
    tauto

/-- No move loses a job, doubles it or mixes it up with another one. -/
theorem Accounted.step (hb : b.Accounted runner behaviour dirs)
    (h : Step runner behaviour b b') : b'.Accounted runner behaviour dirs where
  jobs := h.jobs.trans hb.jobs
  threads := h.threads.trans hb.threads
  ended := h.ended hb.ended
  own := h.own hb

/-- At the beginning all jobs wait, and no move loses one. So each is accounted for after any moves,
by induction on them. -/
theorem accounted_of_play? {moves : List Move}
    (h : (initial dirs).play? runner behaviour moves = some b) :
    b.Accounted runner behaviour dirs :=
  play?_induction accounted_initial Accounted.step h

end Board

end ClusterTrace
