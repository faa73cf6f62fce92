import ChangesCI.Jobs.SyncJobSteps

/-!
# How `sync_job` advances a build

The build's status, start and modification time are written only by the conditional update of
`_sync_job` (lines 56-66), which matches a build that is still `queued` or `unknown` and copies the
status and start of the job whose run changed that job's status.  Jobs of one build are reconciled by
independent runs, in any interleaving.

* `build_update_guarded` — **PROVED**: at every step of every schedule, a build that is
  `in_progress` or `finished` is left as it is, and a build that changes was `queued` or `unknown`
  and takes the status and start of the job of the run whose conditional update it is, a run that
  changed that job's status;
* `build_start_not_earliest` — the build's start is neither always set nor the earliest start of its
  jobs: a job aborted without a start finishes its build with no start, and a job that starts later
  but commits first gives the build its later start;
* `build_start_from_first_update` — **PROVED**: what holds instead: a build that has left
  `queued`/`unknown` carries the start that the job of the first such update had just committed;
* `build_left_queued_after_failed_update` — the job commit and the build update are separate
  transactions: when the update raises, the retry sees no status change (or returns at line 19), so
  a finished job can stay beside a build that is still `queued`, with nothing left on the queue.
-/

namespace ChangesCI.Jobs.SyncJob

open ChangesCI.Models

/-! ### The conditional update -/

/-- A build that is not `queued` or `unknown` is not matched by the update. -/
theorem BuildUpdate.apply_of_advanced (u : BuildUpdate) {build : Build}
    (h : build.status = .inProgress ∨ build.status = .finished) : u.apply build = build := by
  rcases h with h | h <;> simp [BuildUpdate.apply, h]

/-- A build that changes under the update was `queued` or `unknown`, and takes the update's values. -/
theorem BuildUpdate.apply_of_ne (u : BuildUpdate) {build : Build} (h : u.apply build ≠ build) :
    (build.status = .queued ∨ build.status = .unknown) ∧
      u.apply build = { build with
        status := u.status, dateStarted := u.dateStarted, dateModified := some u.dateModified } := by
  unfold BuildUpdate.apply at h ⊢
  split at h
  · rename_i hm
    exact ⟨by simpa using hm, by simp [hm]⟩
  · exact absurd rfl h

/-- A build that is `queued` or `unknown` takes the update's values. -/
theorem BuildUpdate.apply_of_pending (u : BuildUpdate) {build : Build}
    (h : build.status = .queued ∨ build.status = .unknown) :
    u.apply build = { build with
      status := u.status, dateStarted := u.dateStarted, dateModified := some u.dateModified } := by
  rcases h with h | h <;> simp [BuildUpdate.apply, h]

/-- A build that is `in_progress` or `finished` stays as it is for the rest of every schedule. -/
theorem exec_builds_settled {s s' : SyncState} {es : List SyncEvent} {buildId : BuildId}
    {build : Build} (h : s.exec es = some s') (hb : s.builds buildId = some build)
    (hp : build.status = .inProgress ∨ build.status = .finished) :
    s'.builds buildId = some build := by
  induction es generalizing s with
  | nil => cases h; exact hb
  | cons e es ih =>
      rw [exec_cons] at h
      cases hn : s.next e with
      | none => simp [hn] at h
      | some s₁ =>
          refine ih (by simpa [hn] using h) ?_
          rcases next_builds hn buildId with h₁ | ⟨_, _, _, _, _, _, -, -, -, -, h₁⟩
          · rw [h₁, hb]
          · rw [h₁, hb, Option.map_some', BuildUpdate.apply_of_advanced _ hp]

/-! ### Every step of every schedule -/

/-- What the conditional update allows an event `e` from `s` to `s'` to do to a build that was
`build`: leave it as it is once it is `in_progress` or `finished`; and change it only as the update
of a run whose job belongs to the build and changed status in that run, while the build was `queued`
or `unknown`, setting it to the status and start of that job as stored. -/
def GuardedBuildUpdate (s : SyncState) (e : SyncEvent) (s' : SyncState) (buildId : BuildId)
    (build : Build) : Prop :=
  ((build.status = .inProgress ∨ build.status = .finished) → s'.builds buildId = some build) ∧
  (s'.builds buildId ≠ some build →
    ∃ jobId env job prevStatus jobPlan now, e = .act jobId env ∧
      s.runs jobId = some (.updateBuild job prevStatus jobPlan now) ∧ s.jobs jobId = some job ∧
      job.buildId = some buildId ∧ job.status ≠ prevStatus ∧
      (build.status = .queued ∨ build.status = .unknown) ∧
      s'.builds buildId = some { build with
        status := job.status, dateStarted := job.dateStarted, dateModified := some now })

theorem build_update_guarded {s₀ s s' : SyncState} {es : List SyncEvent} {e : SyncEvent}
    {buildId : BuildId} {build : Build} (h₀ : s₀.Idle) (hs : s₀.exec es = some s)
    (he : s.next e = some s') (hb : s.builds buildId = some build) :
    GuardedBuildUpdate s e s' buildId build := by
  have hc : s.CommittedStored :=
    exec_induction next_committedStored (committedStored_of_idle h₀) hs
  rcases next_builds he buildId with
    h₁ | ⟨jobId, env, job, prevStatus, jobPlan, now, rfl, hr, hj, hst, h₁⟩
  · exact ⟨fun _ => h₁.trans hb, fun hne => absurd (h₁.trans hb) hne⟩
  · rw [hb, Option.map_some'] at h₁
    refine ⟨fun hp => by rw [h₁, BuildUpdate.apply_of_advanced _ hp], fun hne => ?_⟩
    have hne' : BuildUpdate.apply ⟨buildId, job.status, job.dateStarted, now⟩ build ≠ build :=
      fun h => hne (h₁.trans (congrArg some h))
    obtain ⟨hq, happ⟩ := BuildUpdate.apply_of_ne _ hne'
    exact ⟨jobId, env, job, prevStatus, jobPlan, now, rfl, hr,
      hc jobId _ job hr rfl, hj, hst, hq, h₁.trans (congrArg some happ)⟩

/-! ### Two jobs of one build, reconciled in an interleaving

Job 0 starts at time 1 but commits last; job 1 starts at time 2, commits at time 3 and advances the
build first.  Both plans have a step; the backend reports each job `in_progress`. -/

/-- Job `jobId` of build 0 in project 0, queued. -/
def queuedJob : Job := ⟨.queued, .unknown, some 0, 0, none, none⟩

/-- Build 0: queued, with a source on `master`. -/
def queuedBuild : Build := ⟨.queued, .unknown, 0, none, none, ⟨"a", ["master"]⟩⟩

/-- Jobs 0 and 1 of build 0, both queued with a one-step plan, a `sync_job` task for each. -/
def twoJobsStart : SyncState where
  jobs := fun k => if k ≤ 1 then some queuedJob else none
  builds := fun b => if b = 0 then some queuedBuild else none
  jobPlans := fun k => if k ≤ 1 then some ⟨0, [0]⟩ else none
  pending := [.syncJob 0 0, .syncJob 1 0]
  sent := []
  runs := fun _ => none

/-- Both runs load and execute; job 1 commits and reaches its conditional update. -/
def twoJobsPrefix : List SyncEvent :=
  [.deliver 0 0, .act 0 ⟨false, 0, .raises⟩, .act 0 ⟨false, 0, .returns .inProgress .unknown (some 1)⟩,
   .deliver 1 0, .act 1 ⟨false, 0, .raises⟩, .act 1 ⟨false, 0, .returns .inProgress .unknown (some 2)⟩,
   .act 1 ⟨false, 3, .raises⟩]

/-- Job 1's conditional update. -/
def twoJobsUpdate : SyncEvent := .act 1 ⟨false, 0, .raises⟩

/-- Job 1 publishes, re-enqueues itself and releases its lock; job 0 commits at time 4, its update
matches nothing, and it ends the same way. -/
def twoJobsRest : List SyncEvent :=
  [.act 1 ⟨false, 0, .raises⟩, .act 1 ⟨false, 0, .raises⟩, .act 1 ⟨false, 0, .raises⟩,
   .act 1 ⟨false, 0, .raises⟩,
   .act 0 ⟨false, 4, .raises⟩, .act 0 ⟨false, 0, .raises⟩, .act 0 ⟨false, 0, .raises⟩,
   .act 0 ⟨false, 0, .raises⟩, .act 0 ⟨false, 0, .raises⟩, .act 0 ⟨false, 0, .raises⟩]

def twoJobsBefore : SyncState := (twoJobsStart.exec twoJobsPrefix).getD twoJobsStart

def twoJobsAfter : SyncState := (twoJobsBefore.next twoJobsUpdate).getD twoJobsStart

def twoJobsEnd : SyncState := (twoJobsAfter.exec twoJobsRest).getD twoJobsStart

/-- The whole interleaving. -/
def twoJobsRun : List SyncEvent := twoJobsPrefix ++ twoJobsUpdate :: twoJobsRest

theorem twoJobsStart_idle : twoJobsStart.Idle := fun _ => rfl

theorem build_update_guarded_two_jobs :
    twoJobsStart.Idle ∧ twoJobsStart.exec twoJobsPrefix = some twoJobsBefore ∧
      twoJobsBefore.next twoJobsUpdate = some twoJobsAfter ∧
      twoJobsBefore.builds 0 = some queuedBuild ∧
      GuardedBuildUpdate twoJobsBefore twoJobsUpdate twoJobsAfter 0 queuedBuild :=
  ⟨twoJobsStart_idle, rfl, rfl, rfl,
    build_update_guarded twoJobsStart_idle
      (show twoJobsStart.exec twoJobsPrefix = some twoJobsBefore from rfl) rfl rfl⟩

/-! ### Quiescent states of a concrete schedule -/

/-- A schedule from an idle state that leaves no run of the jobs it mentions in flight ends idle. -/
theorem idle_of_exec {s s' : SyncState} {es : List SyncEvent} (h₀ : s.Idle)
    (h : s.exec es = some s') (hjobs : ∀ k ∈ es.map SyncEvent.jobId, s'.runs k = none) :
    s'.Idle := by
  intro k
  by_cases hk : k ∈ es.map SyncEvent.jobId
  · exact hjobs k hk
  · rw [exec_runs_of_ne h (fun e he hke => hk (by rw [hke]; exact List.mem_map_of_mem _ he)), h₀ k]

/-! ### The build's start -/

/-- Job 0 of build 0, queued and never started, with no job plan: its run aborts it. -/
def abortStart : SyncState where
  jobs := fun k => if k = 0 then some queuedJob else none
  builds := fun b => if b = 0 then some queuedBuild else none
  jobPlans := fun _ => none
  pending := [.syncJob 0 0]
  sent := []
  runs := fun _ => none

/-- One run: `UnrecoverableException` for the missing plan, commit at time 1, update, fan-out,
`publish_job_update` and the lock's release. -/
def abortRun : List SyncEvent :=
  [.deliver 0 0, .act 0 ⟨false, 0, .raises⟩, .act 0 ⟨false, 0, .raises⟩, .act 0 ⟨false, 1, .raises⟩,
   .act 0 ⟨false, 0, .raises⟩, .act 0 ⟨false, 0, .raises⟩, .act 0 ⟨false, 0, .raises⟩,
   .act 0 ⟨false, 0, .raises⟩, .act 0 ⟨false, 0, .raises⟩]

def abortEnd : SyncState := (abortStart.exec abortRun).getD abortStart

theorem abortStart_exec : abortStart.exec abortRun = some abortEnd := rfl

theorem twoJobsStart_exec : twoJobsStart.exec twoJobsRun = some twoJobsEnd := rfl

theorem build_start_not_earliest :
    (abortStart.exec abortRun = some abortEnd ∧ abortEnd.Idle ∧
      (abortEnd.builds 0).map (fun b => (b.status, b.dateStarted)) = some (.finished, none)) ∧
    (twoJobsStart.exec twoJobsRun = some twoJobsEnd ∧ twoJobsEnd.Idle ∧
      (twoJobsEnd.builds 0).map (fun b => (b.status, b.dateStarted)) = some (.inProgress, some 2) ∧
      (twoJobsEnd.jobs 0).map Job.dateStarted = some (some 1)) :=
  ⟨⟨abortStart_exec, idle_of_exec (fun _ => rfl) abortStart_exec (by decide), by decide⟩,
    ⟨twoJobsStart_exec, idle_of_exec twoJobsStart_idle twoJobsStart_exec (by decide), by decide,
      by decide⟩⟩

/-- What holds of the build's start instead, for a schedule `es` from `s₀` to `s` that took the
build from `queued`/`unknown` to `build`, `in_progress` or `finished`: some event `e` of the schedule
was the conditional update of a run of a job of the build that changed its status; the build was
still `queued`/`unknown` just before `e`, so `e` is the update that moved it out; `e` left it as
`build`, with that job's status and committed start; and every state after `e` holds `build`. -/
def StartFromFirstUpdate (s₀ : SyncState) (es : List SyncEvent) (s : SyncState)
    (buildId : BuildId) (build : Build) : Prop :=
  ∃ es₁ e es₂ s₁ s₂ jobId env job prevStatus jobPlan now build₁,
    es = es₁ ++ e :: es₂ ∧ s₀.exec es₁ = some s₁ ∧ s₁.next e = some s₂ ∧ s₂.exec es₂ = some s ∧
    e = .act jobId env ∧ s₁.runs jobId = some (.updateBuild job prevStatus jobPlan now) ∧
    s₁.jobs jobId = some job ∧ job.buildId = some buildId ∧ job.status ≠ prevStatus ∧
    s₁.builds buildId = some build₁ ∧ (build₁.status = .queued ∨ build₁.status = .unknown) ∧
    build = { build₁ with
      status := job.status, dateStarted := job.dateStarted, dateModified := some now } ∧
    build.dateStarted = job.dateStarted ∧
    ∀ es' s', es' <+: es₂ → s₂.exec es' = some s' → s'.builds buildId = some build

/-- `StartFromFirstUpdate`, by induction on the schedule from any state where the committed jobs
are stored: the first event that moves the build out of `queued`/`unknown` is the witness. -/
theorem exec_startFromFirstUpdate {s₀ s : SyncState} {es : List SyncEvent} {buildId : BuildId}
    {build₀ build : Build} (hc : s₀.CommittedStored) (hs : s₀.exec es = some s)
    (hb₀ : s₀.builds buildId = some build₀) (hq : build₀.status = .queued ∨ build₀.status = .unknown)
    (hb : s.builds buildId = some build) (hp : build.status = .inProgress ∨ build.status = .finished) :
    StartFromFirstUpdate s₀ es s buildId build := by
  induction es generalizing s₀ build₀ with
  | nil =>
      cases hs
      obtain rfl := Option.some.inj (hb₀.symm.trans hb)
      rcases hq with h | h <;> rcases hp with h' | h' <;> simp [h] at h'
  | cons e es ih =>
      rw [exec_cons] at hs
      cases hn : s₀.next e with
      | none => simp [hn] at hs
      | some s₁ =>
          have hs₁ : s₁.exec es = some s := by simpa [hn] using hs
          have hc₁ := next_committedStored hc hn
          -- the event `e` either leaves the build alone or is a conditional update
          have later : ∀ {build₁ : Build}, s₁.builds buildId = some build₁ →
              (build₁.status = .queued ∨ build₁.status = .unknown) →
              StartFromFirstUpdate s₀ (e :: es) s buildId build := by
            intro build₁ hb₁ hq₁
            obtain ⟨es₁, e', es₂, s₂, s₃, jobId, env, job, prevStatus, jobPlan, now, build₂, hes, h₁,
              h₂, h₃, rest⟩ := ih hc₁ hs₁ hb₁ hq₁
            exact ⟨e :: es₁, e', es₂, s₂, s₃, jobId, env, job, prevStatus, jobPlan, now, build₂,
              by rw [hes]; rfl, by rw [exec_cons, hn]; exact h₁, h₂, h₃, rest⟩
          rcases next_builds hn buildId with
            h₁ | ⟨jobId, env, job, prevStatus, jobPlan, now, rfl, hr, hj, hst, h₁⟩
          · exact later (h₁.trans hb₀) hq
          · rw [hb₀, Option.map_some', BuildUpdate.apply_of_pending _ hq] at h₁
            by_cases hp₁ : job.status = .inProgress ∨ job.status = .finished
            · -- the first update that moves the build; it stays settled for the rest of the schedule
              obtain rfl := Option.some.inj ((exec_builds_settled hs₁ h₁ hp₁).symm.trans hb)
              exact ⟨[], _, es, s₀, s₁, jobId, env, job, prevStatus, jobPlan, now, build₀, rfl, rfl,
                hn, hs₁, rfl, hr, hc jobId _ job hr rfl, hj, hst, hb₀, hq, rfl, rfl,
                fun _ _ _ h' => exec_builds_settled h' h₁ hp₁⟩
            · exact later h₁ (by cases h : job.status <;> simp_all)

/-- **Where the build's start comes from.**  From a state where no run is in flight, whenever a
schedule has taken a build from `queued`/`unknown` to `in_progress` or `finished`, its start is the
start committed by the job whose conditional update first moved it out of `queued`/`unknown`, and
no state since has changed it. -/
theorem build_start_from_first_update {s₀ s : SyncState} {es : List SyncEvent} {buildId : BuildId}
    {build₀ build : Build} (h₀ : s₀.Idle) (hs : s₀.exec es = some s)
    (hb₀ : s₀.builds buildId = some build₀) (hq : build₀.status = .queued ∨ build₀.status = .unknown)
    (hb : s.builds buildId = some build) (hp : build.status = .inProgress ∨ build.status = .finished) :
    StartFromFirstUpdate s₀ es s buildId build :=
  exec_startFromFirstUpdate (committedStored_of_idle h₀) hs hb₀ hq hb hp

/-- The build at the end of the interleaving: job 1's status and start, its update at time 3. -/
def twoJobsBuild : Build :=
  { queuedBuild with status := .inProgress, dateStarted := some 2, dateModified := some 3 }

theorem build_start_from_first_update_two_jobs :
    twoJobsStart.Idle ∧ twoJobsStart.exec twoJobsRun = some twoJobsEnd ∧
      twoJobsStart.builds 0 = some queuedBuild ∧
      (queuedBuild.status = .queued ∨ queuedBuild.status = .unknown) ∧
      twoJobsEnd.builds 0 = some twoJobsBuild ∧
      (twoJobsBuild.status = .inProgress ∨ twoJobsBuild.status = .finished) ∧
      StartFromFirstUpdate twoJobsStart twoJobsRun twoJobsEnd 0 twoJobsBuild :=
  ⟨twoJobsStart_idle, twoJobsStart_exec, rfl, .inl rfl, rfl, .inl rfl,
    build_start_from_first_update twoJobsStart_idle twoJobsStart_exec rfl (.inl rfl) rfl (.inl rfl)⟩

/-! ### A failure between the two commits -/

/-- Job 0 of build 0, queued, with a one-step plan and a `sync_job` task. -/
def lostStart : SyncState where
  jobs := fun k => if k = 0 then some queuedJob else none
  builds := fun b => if b = 0 then some queuedBuild else none
  jobPlans := fun k => if k = 0 then some ⟨0, [0]⟩ else none
  pending := [.syncJob 0 0]
  sent := []
  runs := fun _ => none

/-- The backend finishes the job; the job commit at time 2 goes through; the conditional update
raises, so the wrapper retries and the lock is released; the retry finds the job finished and
returns at line 19. -/
def lostRun : List SyncEvent :=
  [.deliver 0 0, .act 0 ⟨false, 0, .raises⟩, .act 0 ⟨false, 0, .returns .finished .passed (some 1)⟩,
   .act 0 ⟨false, 2, .raises⟩, .act 0 ⟨true, 0, .raises⟩, .act 0 ⟨false, 0, .raises⟩,
   .deliver 0 60, .act 0 ⟨false, 3, .raises⟩, .act 0 ⟨false, 0, .raises⟩]

def lostEnd : SyncState := (lostStart.exec lostRun).getD lostStart

theorem lostStart_exec : lostStart.exec lostRun = some lostEnd := rfl

theorem lostEnd_idle : lostEnd.Idle := idle_of_exec (fun _ => rfl) lostStart_exec (by decide)

theorem build_left_queued_after_failed_update :
    lostStart.exec lostRun = some lostEnd ∧ lostEnd.Idle ∧ lostEnd.pending = [] ∧
      (lostEnd.jobs 0).map Job.status = some .finished ∧
      (lostEnd.builds 0).map Build.status = some .queued :=
  ⟨lostStart_exec, lostEnd_idle, by decide, by decide, by decide⟩

end ChangesCI.Jobs.SyncJob
