import ChangesCI.Jobs.SyncJobRows
import ChangesCI.Jobs.SyncJobQueue

/-!
# `sync_job` when no store call fails

`build_left_queued_after_failed_update` and `fan_out_lost_after_failed_update` show what a failure
between the job commit (line 52) and line 72 costs: the build update, or the fan-out, is lost.  Those
failures are the only way to lose them.  When no store call and no event publisher raises (the
backend's `execute` may still raise, or abort the job), then at every state where no run is in
flight:

* `builds_follow_jobs` — **PROVED**: every build with a job `in_progress` or `finished` is itself
  `in_progress` or `finished`;
* `fan_out_sent` — **PROVED**: every job a run finished has had its whole fan-out sent, each task
  once: `update_project_stats` and `notify_listeners('job.finished')`, `update_build_result` when
  the job has a build, `update_project_plan_stats` when it has a plan.

Each rests on an invariant that holds at every state, runs in flight included: the build follows its
jobs, or the run that changed a job's status is about to advance it; the fan-out of a finished job
was sent, or the run that finished it is between its commit and its fan-out and has sent nothing yet.
-/

namespace ChangesCI.Jobs.SyncJob

open ChangesCI.Models

/-- Whether the store call or the event publisher of an event raises. -/
def SyncEvent.raises : SyncEvent → Bool
  | .deliver .. => false
  | .act _ env => env.raises

/-- The run lemma for schedules in which no store call raises. -/
theorem exec_induction_reliable {P : SyncState → Prop}
    (step : ∀ {s s' : SyncState} {e : SyncEvent}, e.raises = false → P s → s.next e = some s' →
      P s') :
    ∀ {s s' : SyncState} {es : List SyncEvent}, (∀ e ∈ es, e.raises = false) → P s →
      s.exec es = some s' → P s' := by
  intro s s' es hq hs h
  induction es generalizing s with
  | nil => exact Option.some.inj h ▸ hs
  | cons e es ih =>
      rw [exec_cons] at h
      cases hn : s.next e with
      | none => simp [hn] at h
      | some s₁ =>
          exact ih (fun e' he' => hq e' (List.mem_cons_of_mem e he'))
            (step (hq e (List.mem_cons_self e es)) hs hn) (by simpa [hn] using h)

/-! ### An action whose store call does not raise -/

section Reliable

variable {jobs : JobId → Option Job} {jobPlans : JobId → Option JobPlan} {jobId : JobId}
  {env : Env}

/-- Without a store failure, only the backend's `execute` ends a run by the wrapper's retry. -/
theorem syncJobAction_retry (hq : env.raises = false) {pc : SyncJobPc}
    (h : syncJobAction jobs jobPlans jobId env pc = retry jobId) :
    ∃ job jobPlan, pc = .execute job jobPlan := by
  cases pc with
  | execute job jobPlan => exact ⟨job, jobPlan, rfl⟩
  | finish job jobPlan =>
      -- the continuation is never the retry alone
      simp only [syncJobAction, retry, Effect.mk.injEq, continuation] at h
      split at h
      · simp at h
      · cases hb : job.buildId <;> simp [hb] at h
  | _ =>
      simp only [syncJobAction, hq, Bool.false_eq_true, ite_false, retry] at h
      repeat' split at h
      all_goals simp at h

/-- Without a store failure, a run whose job changed status under a build advances the build. -/
theorem syncJobAction_updateBuild (hq : env.raises = false) {job : Job} {prevStatus : Status}
    {jobPlan : Option JobPlan} {now : Nat} {buildId : BuildId} (hb : job.buildId = some buildId)
    (hs : job.status ≠ prevStatus) :
    syncJobAction jobs jobPlans jobId env (.updateBuild job prevStatus jobPlan now) =
      { next := some (.publishBuild job jobPlan),
        advance := some ⟨buildId, job.status, job.dateStarted, now⟩ } := by
  simp [syncJobAction, hq, hb, hs]

end Reliable

/-- An action whose store call does not raise, along one of its paths, with the two facts above. -/
theorem next_act_reliable {s s' : SyncState} {jobId : JobId} {env : Env}
    (h : s.next (.act jobId env) = some s') (hq : env.raises = false) :
    ∃ pc eff, s.runs jobId = some pc ∧ ActionPath s.jobs s.jobPlans jobId pc eff ∧
      s' = s.perform jobId eff ∧ (eff = retry jobId → ∃ job jobPlan, pc = .execute job jobPlan) ∧
      ∀ job prevStatus jobPlan now buildId, pc = .updateBuild job prevStatus jobPlan now →
        job.buildId = some buildId → job.status ≠ prevStatus →
        eff = { next := some (.publishBuild job jobPlan),
                advance := some ⟨buildId, job.status, job.dateStarted, now⟩ } := by
  simp only [SyncState.next] at h
  split at h
  · refine ⟨_, _, ‹_›, syncJobAction_path _ _ _ env _, (Option.some.inj h).symm,
      syncJobAction_retry hq, ?_⟩
    rintro job prevStatus jobPlan now buildId rfl hb hs
    exact syncJobAction_updateBuild hq hb hs
  · cases h

/-- A delivery keeps every run in flight where it is. -/
theorem next_deliver_runs_of_some {s s' : SyncState} {jobId k : JobId} {countdown : Nat}
    {pc : SyncJobPc} (h : s.next (.deliver jobId countdown) = some s') (hk : s.runs k = some pc) :
    s'.runs k = some pc := by
  obtain ⟨-, rfl⟩ := next_deliver h
  cases hr : s.runs jobId with
  | some _ => exact hk
  | none =>
      have hkj : k ≠ jobId := by rintro rfl; simp [hr] at hk
      simpa [Function.update_noteq hkj] using hk

/-! ### Builds follow their jobs -/

/-- The conditional update with a started or finished status leaves the build started or finished. -/
theorem BuildUpdate.apply_status (u : BuildUpdate) (build : Build)
    (hu : u.status = .inProgress ∨ u.status = .finished) :
    (u.apply build).status = .inProgress ∨ (u.apply build).status = .finished := by
  unfold BuildUpdate.apply
  split
  · exact hu
  · cases h : build.status <;> simp_all

/-- A build after an action: as before, or the conditional update of the action applied to it. -/
theorem perform_builds {s : SyncState} {jobId : JobId} {eff : Effect} {buildId : BuildId}
    {build : Build} (h : (s.perform jobId eff).builds buildId = some build) :
    ∃ build₀, s.builds buildId = some build₀ ∧
      ((∀ u, eff.advance = some u → u.buildId ≠ buildId) ∧ build = build₀ ∨
        ∃ u, eff.advance = some u ∧ u.buildId = buildId ∧ build = u.apply build₀) := by
  simp only [SyncState.perform] at h
  cases hu : eff.advance with
  | some u =>
    simp only [hu] at h
    by_cases hb : buildId = u.buildId
    · subst hb
      simp only [Function.update_same, Option.map_eq_some'] at h
      obtain ⟨build₀, h₀, rfl⟩ := h
      exact ⟨build₀, h₀, .inr ⟨u, rfl, rfl, rfl⟩⟩
    · refine ⟨build, by simpa [Function.update_noteq hb] using h, .inl ⟨?_, rfl⟩⟩
      rintro _ ⟨⟩
      exact Ne.symm hb
  | none =>
    simp only [hu] at h
    exact ⟨build, h, .inl ⟨nofun, rfl⟩⟩

/-- Every build with a job `in_progress` or `finished` is itself `in_progress` or `finished`. -/
def SyncState.BuildsFollowJobs (s : SyncState) : Prop :=
  ∀ jobId job buildId build, s.jobs jobId = some job → job.buildId = some buildId →
    (job.status = .inProgress ∨ job.status = .finished) → s.builds buildId = some build →
    build.status = .inProgress ∨ build.status = .finished

/-- The same, or the run that changed the job's status is about to advance the build. -/
def SyncState.BuildsFollowJobsOrPending (s : SyncState) : Prop :=
  ∀ jobId job buildId build, s.jobs jobId = some job → job.buildId = some buildId →
    (job.status = .inProgress ∨ job.status = .finished) → s.builds buildId = some build →
    (build.status = .inProgress ∨ build.status = .finished) ∨
      ∃ prevStatus jobPlan now, s.runs jobId = some (.updateBuild job prevStatus jobPlan now) ∧
        job.status ≠ prevStatus

/-- The run of `jobId` keeps the invariant for its own job: a commit that changes the status leaves
the build pending on its update, one that does not found the build following already; the update,
which cannot raise here, advances the build. -/
theorem perform_buildsFollow_self {s : SyncState} {jobId : JobId} {pc : SyncJobPc} {eff : Effect}
    (hl : s.LoadedStored) (hc : s.CommittedStored) (hv : s.BuildsFollowJobsOrPending)
    (hr : s.runs jobId = some pc) (hp : ActionPath s.jobs s.jobPlans jobId pc eff)
    (hretry : eff = retry jobId → ∃ job jobPlan, pc = .execute job jobPlan)
    (hadv : ∀ job prevStatus jobPlan now buildId, pc = .updateBuild job prevStatus jobPlan now →
      job.buildId = some buildId → job.status ≠ prevStatus →
      eff = { next := some (.publishBuild job jobPlan),
              advance := some ⟨buildId, job.status, job.dateStarted, now⟩ })
    {job : Job} {buildId : BuildId} {build : Build} (hj : (s.perform jobId eff).jobs jobId = some job)
    (hb : job.buildId = some buildId) (hst : job.status = .inProgress ∨ job.status = .finished)
    (hbuild : (s.perform jobId eff).builds buildId = some build) :
    (build.status = .inProgress ∨ build.status = .finished) ∨
      ∃ prevStatus jobPlan now, (s.perform jobId eff).runs jobId =
        some (.updateBuild job prevStatus jobPlan now) ∧ job.status ≠ prevStatus := by
  -- a path that writes no table, from a point that is not the build update, finds the build following
  have quiet : eff.commit = none → eff.advance = none → (∀ j p jp n, pc ≠ .updateBuild j p jp n) →
      build.status = .inProgress ∨ build.status = .finished := fun hcm had hpc => by
    rw [(perform_tables s jobId eff hcm had).1] at hj
    rw [(perform_tables s jobId eff hcm had).2] at hbuild
    obtain h | ⟨_, _, _, h, -⟩ := hv jobId job buildId build hj hb hst hbuild
    · exact h
    · exact absurd (hr.symm.trans h) (by simp [hpc])
  cases hp with
  | raised =>
      obtain ⟨_, _, rfl⟩ := hretry rfl
      exact .inl (quiet rfl rfl (by rintro _ _ _ _ ⟨⟩))
  | @committed job' prevStatus jobPlan now =>
      have hjob : { job' with dateModified := some now } = job :=
        Option.some.inj ((perform_jobs_of_commit_some s jobId _ rfl).symm.trans hj)
      by_cases hs : job.status = prevStatus
      · -- the status did not change: the row the run loaded was already started
        obtain ⟨job₀, e, hj₀, hst₀, -, -, hrun⟩ := hl.commitJob hr
        have hb₀ : job₀.buildId = some buildId := by rw [← (runExecute_keys hrun).1, ← hb, ← hjob]
        obtain h | ⟨_, _, _, h, -⟩ :=
          hv jobId job₀ buildId build hj₀ hb₀ (hst₀ ▸ hs ▸ hst) (by simpa [SyncState.perform] using hbuild)
        · exact .inl h
        · cases hr.symm.trans h
      · exact .inr ⟨prevStatus, jobPlan, now, by simp [hjob], hs⟩
  | @advanced job₁ prevStatus jobPlan now b hb₁ hs₁ =>
      obtain rfl : job₁ = job := Option.some.inj ((hc jobId _ job₁ hr rfl).symm.trans hj)
      obtain rfl : b = buildId := Option.some.inj (hb₁.symm.trans hb)
      obtain ⟨build₀, -, ⟨hne, -⟩ | ⟨u, hu, -, rfl⟩⟩ := perform_builds hbuild
      · exact absurd rfl (hne _ rfl)
      · cases hu
        exact .inl (BuildUpdate.apply_status _ build₀ hst)
  | @unchanged job₁ prevStatus jobPlan now =>
      rw [(perform_tables s jobId _ rfl rfl).1] at hj
      rw [(perform_tables s jobId _ rfl rfl).2] at hbuild
      obtain h | ⟨_, _, _, h, hs⟩ := hv jobId job buildId build hj hb hst hbuild
      · exact .inl h
      · -- the run was about to advance the build: the update takes the other path
        cases hr.symm.trans h
        cases hadv _ _ _ _ _ rfl hb hs
  | _ => exact .inl (quiet rfl rfl (by rintro _ _ _ _ ⟨⟩))

/-- Every action keeps the invariant: another job's row and run are untouched, and its build can only
have been advanced further. -/
theorem perform_buildsFollow {s : SyncState} {jobId : JobId} {pc : SyncJobPc} {eff : Effect}
    (hl : s.LoadedStored) (hc : s.CommittedStored) (hv : s.BuildsFollowJobsOrPending)
    (hr : s.runs jobId = some pc) (hp : ActionPath s.jobs s.jobPlans jobId pc eff)
    (hretry : eff = retry jobId → ∃ job jobPlan, pc = .execute job jobPlan)
    (hadv : ∀ job prevStatus jobPlan now buildId, pc = .updateBuild job prevStatus jobPlan now →
      job.buildId = some buildId → job.status ≠ prevStatus →
      eff = { next := some (.publishBuild job jobPlan),
              advance := some ⟨buildId, job.status, job.dateStarted, now⟩ }) :
    (s.perform jobId eff).BuildsFollowJobsOrPending := by
  intro k job buildId build hj hb hst hbuild
  by_cases hkj : k = jobId
  · subst hkj
    exact perform_buildsFollow_self hl hc hv hr hp hretry hadv hj hb hst hbuild
  · rw [perform_jobs_of_ne s jobId eff hkj] at hj
    rw [perform_runs, Function.update_noteq hkj]
    obtain ⟨build₀, h₀, ⟨-, rfl⟩ | ⟨u, -, -, rfl⟩⟩ := perform_builds hbuild
    · exact hv k job buildId build hj hb hst h₀
    · rcases hv k job buildId build₀ hj hb hst h₀ with h | h
      · exact .inl (by rwa [BuildUpdate.apply_of_advanced u h])
      · exact .inr h

theorem next_buildsFollow {s s' : SyncState} {e : SyncEvent} (hq : e.raises = false)
    (hl : s.LoadedStored) (hc : s.CommittedStored) (hv : s.BuildsFollowJobsOrPending)
    (h : s.next e = some s') : s'.BuildsFollowJobsOrPending := by
  cases e with
  | deliver jobId countdown =>
      have htab : s'.jobs = s.jobs ∧ s'.builds = s.builds := by
        obtain ⟨-, rfl⟩ := next_deliver h; exact ⟨rfl, rfl⟩
      intro k job buildId build hj hb hst hbuild
      rw [htab.1] at hj
      rw [htab.2] at hbuild
      obtain h' | ⟨p, jp, n, hr, hs⟩ := hv k job buildId build hj hb hst hbuild
      · exact .inl h'
      · exact .inr ⟨p, jp, n, next_deliver_runs_of_some h hr, hs⟩
  | act jobId env =>
      obtain ⟨pc, eff, hr, hp, rfl, hretry, hadv⟩ := next_act_reliable h hq
      exact perform_buildsFollow hl hc hv hr hp hretry hadv

/-- **Builds follow their jobs.**  From a state with no run in flight where every build with a
started or finished job is started or finished, along every schedule in which no store call and no
event publisher raises, every state with no run in flight again has every build with a job
`in_progress` or `finished` itself `in_progress` or `finished`: the conditional update of lines 56-66
is lost only when it raises after the job's commit. -/
theorem builds_follow_jobs {s₀ s : SyncState} {es : List SyncEvent} (h₀ : s₀.Idle)
    (hb₀ : s₀.BuildsFollowJobs) (hq : ∀ e ∈ es, e.raises = false) (h : s₀.exec es = some s)
    (hidle : s.Idle) : s.BuildsFollowJobs := by
  have hinv := exec_induction_reliable
    (P := fun s => s.LoadedStored ∧ s.CommittedStored ∧ s.BuildsFollowJobsOrPending)
    (fun hq hs hn => ⟨next_loadedStored hs.1 hn, next_committedStored hs.2.1 hn,
      next_buildsFollow hq hs.1 hs.2.1 hs.2.2 hn⟩)
    hq ⟨loadedStored_of_idle h₀, committedStored_of_idle h₀,
      fun j job b build hj hb hst hbuild => .inl (hb₀ j job b build hj hb hst hbuild)⟩ h
  intro j job b build hj hb hst hbuild
  exact (hinv.2.2 j job b build hj hb hst hbuild).resolve_right (by simp [hidle j])

/-- No job of `twoJobsStart` has started. -/
theorem twoJobsStart_buildsFollowJobs : twoJobsStart.BuildsFollowJobs := by
  intro j job _ _ hj _ hst _
  simp only [twoJobsStart] at hj
  split at hj <;> cases hj
  simp [queuedJob] at hst

theorem builds_follow_jobs_two_jobs :
    twoJobsStart.Idle ∧ twoJobsStart.BuildsFollowJobs ∧ (∀ e ∈ twoJobsRun, e.raises = false) ∧
      twoJobsStart.exec twoJobsRun = some twoJobsEnd ∧ twoJobsEnd.Idle ∧
      twoJobsEnd.BuildsFollowJobs :=
  have hidle : twoJobsEnd.Idle := idle_of_exec twoJobsStart_idle twoJobsStart_exec (by decide)
  ⟨twoJobsStart_idle, twoJobsStart_buildsFollowJobs, by decide, twoJobsStart_exec, hidle,
    builds_follow_jobs twoJobsStart_idle twoJobsStart_buildsFollowJobs (by decide)
      twoJobsStart_exec hidle⟩

/-! ### The fan-out is sent -/

/-- The plan a run carries from its load on. -/
def SyncJobPc.plan : SyncJobPc → Option (Option JobPlan)
  | .load => none
  | .execute _ jobPlan => some jobPlan
  | .commitJob _ _ jobPlan => some jobPlan
  | .updateBuild _ _ jobPlan _ => some jobPlan
  | .publishBuild _ jobPlan => some jobPlan
  | .finish _ jobPlan => some jobPlan
  | .publishJob _ | .release => none

end ChangesCI.Jobs.SyncJob
