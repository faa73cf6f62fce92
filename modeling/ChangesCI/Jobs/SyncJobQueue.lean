import ChangesCI.Jobs.SyncJobBuild

/-!
# What `sync_job` puts on the queue

Under at-least-once delivery a job's `sync_job` task may be delivered many times, and every failure
re-enqueues it.  What ties the queue to the stored jobs:

* `fan_out_at_most_once` — **PROVED**: each of the four finish tasks (`update_build_result`,
  `update_project_stats`, `notify_listeners` with `job.finished`, `update_project_plan_stats`) is
  enqueued at most once by the runs of a job, whatever the deliveries, duplicates and failures:
  only a run that found the job unfinished fans out, it does so once, and it commits the job
  finished first, after which every run returns at line 19;
* `fan_out_lost_after_failed_update` — but a fan-out can be lost: a run that commits the job
  finished and then fails before line 72 leaves a retry that returns at line 19;
* `sync_task_dropped_under_lock` — and an unfinished job can drop off the queue: the `sync_job`
  task of line 74 is delivered while its run still holds the lock at `publish_job_update`, the
  `@lock` decorator drops it, and the run then ends with nothing of the job pending.
-/

namespace ChangesCI.Jobs.SyncJob

open ChangesCI.Models

/-! ### The fan-out of a finished job -/

/-- The four tasks of the fan-out of a finished job (lines 78-97). -/
inductive FinishTask where
  | updateBuildResult
  | updateProjectStats
  | notifyListeners
  | updateProjectPlanStats
  deriving DecidableEq, Repr

/-- Which fan-out task a queue message is; `notify_listeners` counts with the signal `job.finished`. -/
def finishTaskOf : Task → Option FinishTask
  | .updateBuildResult .. => some .updateBuildResult
  | .updateProjectStats .. => some .updateProjectStats
  | .notifyListeners _ signalName =>
    if signalName = "job.finished" then some .notifyListeners else none
  | .updateProjectPlanStats .. => some .updateProjectPlanStats
  | _ => none

/-- How many tasks of kind `k` the runs of `jobId` have put on the queue. -/
def SyncState.finishCount (s : SyncState) (jobId : JobId) (k : FinishTask) : Nat :=
  s.sent.countP fun p => p.1 = jobId ∧ finishTaskOf p.2 = some k

/-- The fan-out holds each kind of finish task at most once; the continuation of an unfinished job
holds none. -/
theorem continuation_countP_le (jobId : JobId) (job : Job) (jobPlan : Option JobPlan)
    (k : FinishTask) :
    (continuation jobId job jobPlan).countP (fun t => finishTaskOf t = some k) ≤
      if job.status = .finished then 1 else 0 := by
  unfold continuation
  split
  · simp_all [finishTaskOf]
  · rw [if_pos (not_not.mp ‹_›)]
    -- one task of each kind, the optional ones only when their row exists
    cases job.buildId <;> cases jobPlan <;>
      simp only [finishTaskOf, List.countP_cons, List.countP_nil, List.cons_append, List.nil_append] <;>
      cases k <;> simp

theorem finishCount_perform (s : SyncState) (jobId : JobId) (eff : Effect) (k : JobId)
    (kind : FinishTask) :
    (s.perform jobId eff).finishCount k kind =
      s.finishCount k kind +
        if k = jobId then eff.enqueued.countP (fun t => finishTaskOf t = some kind) else 0 := by
  simp only [SyncState.finishCount, perform_sent, List.countP_append, List.countP_map]
  split
  · subst k; simp [Function.comp_def]
  · simp [Function.comp_def, Ne.symm ‹_›]

/-- Whether a run is between the load of an unfinished job and its fan-out (lines 30-97). -/
def SyncJobPc.beforeFanOut : SyncJobPc → Bool
  | .execute .. | .commitJob .. | .updateBuild .. | .publishBuild .. | .finish .. => true
  | .load | .publishJob _ | .release => false

/-- The fan-out invariant: at most one task of each kind per job; none while a run of the job is
between its load and its fan-out; and any only once the job is stored finished. -/
def SyncState.FinishOnce (s : SyncState) : Prop :=
  ∀ jobId, (∀ k, s.finishCount jobId k ≤ 1) ∧
    (∀ pc, s.runs jobId = some pc → pc.beforeFanOut → ∀ k, s.finishCount jobId k = 0) ∧
    (∀ k, s.finishCount jobId k ≠ 0 → ∃ job, s.jobs jobId = some job ∧ job.status = .finished)

theorem finishOnce_of_idle {s : SyncState} (h₀ : s.Idle) (hsent : s.sent = []) : s.FinishOnce :=
  fun jobId => ⟨fun _ => by simp [SyncState.finishCount, hsent],
    fun pc hr => by simp [h₀ jobId] at hr, fun _ h => by simp [SyncState.finishCount, hsent] at h⟩

section Paths

variable {jobs : JobId → Option Job} {jobPlans : JobId → Option JobPlan} {jobId : JobId}
  {pc : SyncJobPc} {eff : Effect}

/-- An action puts no finish task on the queue, except the fan-out of a run at line 72, which holds
each kind at most once, and none unless the job it holds is finished. -/
theorem ActionPath.finish_tasks (hp : ActionPath jobs jobPlans jobId pc eff) (kind : FinishTask) :
    eff.enqueued.countP (fun t => finishTaskOf t = some kind) = 0 ∨
      ∃ job jobPlan, pc = .finish job jobPlan ∧ eff.next = some (.publishJob job) ∧
        eff.commit = none ∧
        eff.enqueued.countP (fun t => finishTaskOf t = some kind) ≤
          if job.status = .finished then 1 else 0 := by
  cases hp with
  | @finished job jobPlan =>
      exact .inr ⟨_, _, rfl, rfl, rfl, continuation_countP_le jobId job jobPlan kind⟩
  | _ => exact .inl rfl

/-- Outside the window between the load and the fan-out, an action writes no row and puts no finish
task on the queue, and the run enters the window only by loading an unfinished job. -/
theorem ActionPath.outside_window (hp : ActionPath jobs jobPlans jobId pc eff)
    (hb : pc.beforeFanOut = false) :
    eff.commit = none ∧ eff.advance = none ∧
      (∀ kind, eff.enqueued.countP (fun t => finishTaskOf t = some kind) = 0) ∧
      ∀ pc', eff.next = some pc' → pc'.beforeFanOut →
        ∃ job, jobs jobId = some job ∧ job.status ≠ .finished := by
  cases hp <;> simp_all [SyncJobPc.beforeFanOut, retry, finishTaskOf]

end Paths

theorem perform_finishOnce {s : SyncState} {jobId : JobId} {pc : SyncJobPc} {eff : Effect}
    (hc : s.CommittedStored) (hf : s.FinishOnce) (hr : s.runs jobId = some pc)
    (hp : ActionPath s.jobs s.jobPlans jobId pc eff) : (s.perform jobId eff).FinishOnce := by
  intro k
  obtain ⟨hle, hzero, hfin⟩ := hf k
  by_cases hkj : k = jobId
  · subst hkj
    cases hb : pc.beforeFanOut
    · -- outside the window the action sends and writes nothing, and enters it only from the load
      obtain ⟨hcm, had, hnone, hload⟩ := hp.outside_window hb
      have hcnt : ∀ kind, (s.perform k eff).finishCount k kind = s.finishCount k kind := fun kind => by
        rw [finishCount_perform, if_pos rfl, hnone kind, Nat.add_zero]
      have hjobs : (s.perform k eff).jobs = s.jobs := (perform_tables s k eff hcm had).1
      refine ⟨fun kind => hcnt kind ▸ hle kind, fun pc' h' hb' kind => ?_,
        fun kind h => hjobs ▸ hfin kind (hcnt kind ▸ h)⟩
      obtain ⟨job, hj, hnf⟩ := hload pc' (by simpa using h') hb'
      rw [hcnt]
      by_contra h0
      obtain ⟨job', hj', hf'⟩ := hfin kind h0
      exact hnf (Option.some.inj (hj.symm.trans hj') ▸ hf')
    · -- inside the window the run has enqueued no finish task; only its fan-out adds one
      have hz := hzero pc hr hb
      have hcnt : ∀ kind, (s.perform k eff).finishCount k kind =
          eff.enqueued.countP (fun t => finishTaskOf t = some kind) := fun kind => by
        rw [finishCount_perform, if_pos rfl, hz, Nat.zero_add]
      refine ⟨fun kind => ?_, fun pc' h' hb' kind => ?_, fun kind h => ?_⟩ <;> rw [hcnt] at * <;>
        rcases hp.finish_tasks kind with h0 | ⟨job, jobPlan, rfl, hn, hcm, hle'⟩
      · omega
      · exact Nat.le_trans hle' (by split <;> omega)
      · exact h0
      · -- the fan-out leaves the window
        simp only [perform_runs, Function.update_same, hn, Option.some.injEq] at h'
        subst h'
        cases hb'
      · exact absurd h0 h
      · refine ⟨job, by simp [SyncState.perform, hcm, hc k _ job hr rfl], ?_⟩
        by_contra hnf
        simp only [hnf, if_false] at hle'
        omega
  · have hjobs := perform_jobs_of_ne s jobId eff hkj
    simp only [finishCount_perform, hkj, if_false, Nat.add_zero, hjobs, perform_runs,
      Function.update_noteq hkj]
    exact ⟨hle, hzero, hfin⟩

theorem next_finishOnce {s s' : SyncState} {e : SyncEvent} (hc : s.CommittedStored)
    (hf : s.FinishOnce) (h : s.next e = some s') : s'.FinishOnce := by
  cases e with
  | deliver jobId countdown =>
      obtain ⟨-, hs'⟩ := next_deliver h
      -- a delivery sends nothing, writes no job, and starts a run only at its load
      have hruns : ∀ k pc, s'.runs k = some pc → pc.beforeFanOut → s.runs k = some pc :=
        fun k pc hr hb => (next_deliver_runs h hr).resolve_right (by rintro rfl; cases hb)
      intro k
      obtain ⟨hle, hzero, hfin⟩ := hf k
      rw [show s'.finishCount = s.finishCount by rw [hs']; rfl, show s'.jobs = s.jobs by rw [hs']]
      exact ⟨hle, fun pc hr hne => hzero pc (hruns k pc hr hne) hne, hfin⟩
  | act jobId env =>
      obtain ⟨pc, eff, hr, hp, rfl⟩ := next_act h
      exact perform_finishOnce hc hf hr hp

/-- **At most one fan-out per job.**  From a state where no run is in flight and nothing has been
sent yet, after every schedule of deliveries (duplicates and retries included) and actions (with
any store call, backend call or publisher raising), the runs of each job have put each finish task
on the queue at most once. -/
theorem fan_out_at_most_once {s₀ s : SyncState} {es : List SyncEvent} (h₀ : s₀.Idle)
    (hsent : s₀.sent = []) (hs : s₀.exec es = some s) (jobId : JobId) (kind : FinishTask) :
    s.finishCount jobId kind ≤ 1 :=
  ((exec_induction (P := fun s => s.CommittedStored ∧ s.FinishOnce)
    (fun hs' hn => ⟨next_committedStored hs'.1 hn, next_finishOnce hs'.1 hs'.2 hn⟩)
    ⟨committedStored_of_idle h₀, finishOnce_of_idle h₀ hsent⟩ hs).2 jobId).1 kind

theorem fan_out_at_most_once_abort :
    abortStart.Idle ∧ abortStart.sent = [] ∧ abortStart.exec abortRun = some abortEnd ∧
      abortEnd.finishCount 0 .notifyListeners ≤ 1 :=
  ⟨fun _ => rfl, rfl, abortStart_exec,
    fan_out_at_most_once (fun _ => rfl) rfl abortStart_exec 0 .notifyListeners⟩

/-! ### A lost fan-out -/

/-- The run of `lostRun` commits job 0 finished and then fails in the conditional update; the retry
returns at line 19.  At the end no run is in flight and nothing is pending, job 0 is stored finished,
and the only task its runs ever sent is the retry: no `notify_listeners('job.finished')`, no
`update_build_result`, no statistics refresh. -/
theorem fan_out_lost_after_failed_update :
    lostStart.exec lostRun = some lostEnd ∧ lostEnd.Idle ∧ lostEnd.pending = [] ∧
      (lostEnd.jobs 0).map Job.status = some .finished ∧ lostEnd.sent = [(0, .syncJob 0 60)] :=
  ⟨lostStart_exec, lostEnd_idle, by decide, by decide, by decide⟩

/-! ### A `sync_job` task dropped under the lock -/

/-- The backend reports job 0 of `lostStart` `in_progress`; its run commits it at time 2, advances
the build, and enqueues `sync_job` in 5 s (line 74).  That task is delivered while the run, at
`publish_job_update`, still holds the lock, so the `@lock` decorator drops it; the run then
publishes and releases the lock. -/
def droppedRun : List SyncEvent :=
  [.deliver 0 0, .act 0 ⟨false, 0, .raises⟩, .act 0 ⟨false, 0, .returns .inProgress .unknown (some 1)⟩,
   .act 0 ⟨false, 2, .raises⟩, .act 0 ⟨false, 0, .raises⟩, .act 0 ⟨false, 0, .raises⟩,
   .act 0 ⟨false, 0, .raises⟩, .deliver 0 5, .act 0 ⟨false, 0, .raises⟩, .act 0 ⟨false, 0, .raises⟩]

def droppedEnd : SyncState := (lostStart.exec droppedRun).getD lostStart

/-- At the end no run is in flight and nothing is pending, yet job 0 is stored `in_progress`: no
`sync_job` task will reconcile it again. -/
theorem sync_task_dropped_under_lock :
    lostStart.exec droppedRun = some droppedEnd ∧ droppedEnd.Idle ∧ droppedEnd.pending = [] ∧
      (droppedEnd.jobs 0).map Job.status = some .inProgress ∧
      droppedEnd.sent = [(0, .syncJob 0 5)] :=
  have hexec : lostStart.exec droppedRun = some droppedEnd := rfl
  ⟨hexec, idle_of_exec (fun _ => rfl) hexec (by decide), by decide, by decide, by decide⟩

end ChangesCI.Jobs.SyncJob
