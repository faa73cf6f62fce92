import ChangesCI.Models

/-!
# `sync_job`: a job's reconciliation run as a sequence of atomic actions

`_sync_job(job_id)` (`changes/jobs/sync_job.py`, lines 14-99) reads the job, asks the backend to
`execute` it, commits the job, advances the build by a conditional update, and then either
re-enqueues itself or fans out the finish tasks.  Its wrapper `sync_job` (lines 102-113) runs under
the per-job `@lock` and turns any exception into `queue.retry` with a countdown of 60.

A run is not atomic: the job commit (line 52) and the build update (lines 57-66) are separate
transactions, and runs for other jobs interleave with it.  Nor is the lock's hold: the `@lock`
decorator releases the job's lock only after `sync_job` has returned or raised, so the fan-out
enqueues (lines 72-97), `publish_job_update` (line 99) and the release are three actions, and a
delivery of the job's own `sync_job` task can land between them.  So a run is modelled as a program point
`SyncJobPc` carrying the locals live there, and `syncJobAction` performs the next action against the
store, with the environment's choices `Env` at that action: whether its store call or event publisher
raises, the clock, and what the backend's `execute` does.  An action's `Effect` is applied by
`SyncState.perform`; the whole system, with the queue delivering `sync_job` tasks, is
`SyncState.next`, and `SyncState.exec` runs a schedule of events.

* `runExecute` — the `try` block of lines 30-45, with the two `UnrecoverableException`s of a
  missing plan or an empty plan and the backend's outcome;
* `BuildUpdate.apply` — the conditional update of lines 57-64: it matches only a build that is
  `queued` or `unknown`;
* `continuation` — lines 72-97: `sync_job` again in 5 s, or the fan-out of a finished job;
* `SyncState.next` — a delivery takes the per-job lock or, when a run of the job holds it, is
  dropped (the `@lock` decorator returns without running); an action advances one run, and the
  run's last action releases the lock.

The lock's own expiry is not modelled: a run holds its job's lock until it releases it.
-/

namespace ChangesCI.Jobs.SyncJob

open ChangesCI.Models

/-- What `implementation.execute(job=job)` (line 40) does to the session's copy of the job: it
raises, raises `UnrecoverableException`, or returns having set the job's status, result and start. -/
inductive Execute where
  | raises
  | unrecoverable
  | returns (status : Status) (result : Result) (dateStarted : Option Nat)
  deriving DecidableEq, Repr

/-- The environment's choices at one action of a run: whether the store call or event publisher of
the action raises, what `datetime.utcnow()` reads, and what the backend's `execute` does. -/
structure Env where
  raises : Bool
  now : Nat
  execute : Execute
  deriving DecidableEq, Repr

/-- Where a run of `sync_job` stands: the action of `_sync_job` it performs next, with the locals
live there. -/
inductive SyncJobPc where
  /-- `Job.query.get` and the early returns, then the job-plan query (lines 15-29). -/
  | load
  /-- The `try` block around `execute` (lines 30-45); `prev_status` is `job.status`. -/
  | execute (job : Job) (jobPlan : Option JobPlan)
  /-- `job.date_modified = current_datetime` and `db.session.commit()` (lines 47-52). -/
  | commitJob (job : Job) (prevStatus : Status) (jobPlan : Option JobPlan)
  /-- The conditional build update and its commit (lines 56-66). -/
  | updateBuild (job : Job) (prevStatus : Status) (jobPlan : Option JobPlan) (currentDatetime : Nat)
  /-- `Build.query.get` and `publish_build_update(build)` (lines 68-70). -/
  | publishBuild (job : Job) (jobPlan : Option JobPlan)
  /-- The continuation or the fan-out (lines 72-97). -/
  | finish (job : Job) (jobPlan : Option JobPlan)
  /-- `publish_job_update(job)` (line 99). -/
  | publishJob (job : Job)
  /-- `sync_job` has returned or raised: the `@lock` decorator releases the job's lock. -/
  | release
  deriving DecidableEq, Repr

/-! ### The actions -/

/-- The `except UnrecoverableException` branch (lines 43-44). -/
def markAborted (job : Job) : Job := { job with status := .finished, result := .aborted }

/-- The `try` block of lines 30-45 on the session's copy of the job: no job plan, or a plan without
steps, raises `UnrecoverableException` before the backend runs; `none` when any other exception
escapes to the wrapper. -/
def runExecute (job : Job) (jobPlan : Option JobPlan) (e : Execute) : Option Job :=
  match jobPlan with
  | none => some (markAborted job)
  | some plan =>
    match plan.steps, e with
    | [], _ => some (markAborted job)
    | _ :: _, .raises => none
    | _ :: _, .unrecoverable => some (markAborted job)
    | _ :: _, .returns status result dateStarted =>
      some { job with status := status, result := result, dateStarted := dateStarted }

/-- The values of the conditional update of lines 57-64. -/
structure BuildUpdate where
  buildId : BuildId
  status : Status
  dateStarted : Option Nat
  dateModified : Nat
  deriving DecidableEq, Repr

/-- The conditional update on the build row: `Build.status.in_([Status.queued, Status.unknown])`
is part of its `WHERE` clause, so it changes only a build that has not advanced. -/
def BuildUpdate.apply (u : BuildUpdate) (build : Build) : Build :=
  if build.status ∈ [Status.queued, Status.unknown] then
    { build with
      status := u.status, dateStarted := u.dateStarted, dateModified := some u.dateModified }
  else build

/-- Lines 72-97: `sync_job` again in 5 s while the job is not finished, else the fan-out of the
finished job. -/
def continuation (jobId : JobId) (job : Job) (jobPlan : Option JobPlan) : List Task :=
  if job.status ≠ .finished then [.syncJob jobId 5]
  else
    (match job.buildId with
      | some buildId => [.updateBuildResult buildId jobId]
      | none => []) ++
    [.updateProjectStats job.projectId 1, .notifyListeners jobId "job.finished"] ++
    (match jobPlan with
      | some plan => [.updateProjectPlanStats job.projectId plan.planId 1]
      | none => [])

/-- What one action does: where the run goes on (`none` once the lock is released), the job row it
commits, the conditional build update it commits, and the tasks it puts on the queue. -/
structure Effect where
  next : Option SyncJobPc
  commit : Option Job := none
  advance : Option BuildUpdate := none
  enqueued : List Task := []

/-- `queue.retry('sync_job', kwargs={'job_id': job_id}, countdown=60)`: the wrapper's answer to an
exception (lines 107-113); nothing of the failed transaction is committed, and the lock is released
after it. -/
def retry (jobId : JobId) : Effect := { next := some .release, enqueued := [.syncJob jobId 60] }

/-- The next action of the run of `jobId` at `pc`, under the environment's choices `env`. -/
def syncJobAction (jobs : JobId → Option Job) (jobPlans : JobId → Option JobPlan) (jobId : JobId)
    (env : Env) : SyncJobPc → Effect
  | .load =>
    if env.raises then retry jobId
    else
      match jobs jobId with
      | none => { next := some .release }
      | some job =>
        if job.status = .finished then { next := some .release }
        else { next := some (.execute job (jobPlans jobId)) }
  | .execute job jobPlan =>
    match runExecute job jobPlan env.execute with
    | none => retry jobId
    | some job' => { next := some (.commitJob job' job.status jobPlan) }
  | .commitJob job prevStatus jobPlan =>
    if env.raises then retry jobId
    else
      let job' := { job with dateModified := some env.now }
      { next := some (.updateBuild job' prevStatus jobPlan env.now), commit := some job' }
  | .updateBuild job prevStatus jobPlan now =>
    match job.buildId with
    | some buildId =>
      if job.status ≠ prevStatus then
        if env.raises then retry jobId
        else
          { next := some (.publishBuild job jobPlan),
            advance := some ⟨buildId, job.status, job.dateStarted, now⟩ }
      else { next := some (.finish job jobPlan) }
    | none => { next := some (.finish job jobPlan) }
  | .publishBuild job jobPlan =>
    if env.raises then retry jobId else { next := some (.finish job jobPlan) }
  | .finish job jobPlan =>
    { next := some (.publishJob job), enqueued := continuation jobId job jobPlan }
  | .publishJob _ =>
    if env.raises then retry jobId else { next := some .release }
  | .release => { next := none }

/-! ### The system: store, queue and runs in flight -/

/-- The store, the queue and the runs in flight.  `pending` is the multiset of queued tasks;
`sent` records every task a run put on the queue, with the job of that run. -/
structure SyncState where
  jobs : JobId → Option Job
  builds : BuildId → Option Build
  jobPlans : JobId → Option JobPlan
  pending : List Task
  sent : List (JobId × Task)
  runs : JobId → Option SyncJobPc

/-- Commit an action's effect for the run of `jobId`. -/
def SyncState.perform (s : SyncState) (jobId : JobId) (eff : Effect) : SyncState :=
  { s with
    jobs := match eff.commit with
      | some job => Function.update s.jobs jobId (some job)
      | none => s.jobs
    builds := match eff.advance with
      | some u => Function.update s.builds u.buildId ((s.builds u.buildId).map u.apply)
      | none => s.builds
    pending := s.pending ++ eff.enqueued
    sent := s.sent ++ eff.enqueued.map (jobId, ·)
    runs := Function.update s.runs jobId eff.next }

/-- What can happen next: the queue delivers a pending `sync_job` task, or a run performs its next
action. -/
inductive SyncEvent where
  | deliver (jobId : JobId) (countdown : Nat)
  | act (jobId : JobId) (env : Env)
  deriving DecidableEq, Repr

/-- One event; `none` when it cannot happen.  A delivery while a run of the job holds its lock is
dropped, as the `@lock` decorator returns without calling `sync_job`. -/
def SyncState.next (s : SyncState) : SyncEvent → Option SyncState
  | .deliver jobId countdown =>
    if Task.syncJob jobId countdown ∈ s.pending then
      let s' := { s with pending := s.pending.erase (.syncJob jobId countdown) }
      match s.runs jobId with
      | some _ => some s'
      | none => some { s' with runs := Function.update s.runs jobId (some .load) }
    else none
  | .act jobId env =>
    match s.runs jobId with
    | some pc => some (s.perform jobId (syncJobAction s.jobs s.jobPlans jobId env pc))
    | none => none

/-- A schedule of events, run from `s`. -/
def SyncState.exec (s : SyncState) : List SyncEvent → Option SyncState
  | [] => some s
  | e :: es =>
    match s.next e with
    | some s' => s'.exec es
    | none => none

end ChangesCI.Jobs.SyncJob
