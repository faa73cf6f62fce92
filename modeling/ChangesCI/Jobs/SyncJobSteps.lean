import ChangesCI.Jobs.SyncJob

/-!
# What one action of `sync_job` can do, and the run-induction principle

Every invariant of the reconciliation system is proved from one description of the actions:
`ActionPath` has one constructor per path through an action of `_sync_job` (an early return, the
wrapper's retry, the commit, the conditional update, the fan-out, the lock's release, ...), and
`syncJobAction_path`
shows that `syncJobAction` always takes one of them.  Proofs then case on the named paths and never
unfold `syncJobAction`.

* `exec_induction` — **the run lemma**: a property kept by every event holds after every schedule;
* `next_committedStored` — from its job commit on, the session's copy of the job a run holds is the
  stored row (no other run writes it: the per-job lock);
* `next_builds` — **the only writer of a build**: an event changes a build row only when it is the
  conditional update of a run whose job belongs to the build and changed status in that run.
-/

namespace ChangesCI.Jobs.SyncJob

open ChangesCI.Models

/-- The paths through one action of `sync_job`, each with the effect it has.  `raised` is the
wrapper's retry after any exception; `released` is the `@lock` decorator's release once `sync_job`
has returned or raised; the others follow the branches of lines 15-99. -/
inductive ActionPath (jobs : JobId → Option Job) (jobPlans : JobId → Option JobPlan)
    (jobId : JobId) : SyncJobPc → Effect → Prop where
  | raised {pc} : ActionPath jobs jobPlans jobId pc (retry jobId)
  | missing : jobs jobId = none → ActionPath jobs jobPlans jobId .load { next := some .release }
  | alreadyFinished {job : Job} : jobs jobId = some job → job.status = .finished →
      ActionPath jobs jobPlans jobId .load { next := some .release }
  | loaded {job : Job} : jobs jobId = some job → job.status ≠ .finished →
      ActionPath jobs jobPlans jobId .load { next := some (.execute job (jobPlans jobId)) }
  | executed {job jobPlan job'} (e : Execute) : runExecute job jobPlan e = some job' →
      ActionPath jobs jobPlans jobId (.execute job jobPlan)
        { next := some (.commitJob job' job.status jobPlan) }
  | committed {job prevStatus jobPlan} (now : Nat) :
      ActionPath jobs jobPlans jobId (.commitJob job prevStatus jobPlan)
        { next := some (.updateBuild { job with dateModified := some now } prevStatus jobPlan now),
          commit := some { job with dateModified := some now } }
  | advanced {job prevStatus jobPlan now} {buildId : BuildId} : job.buildId = some buildId →
      job.status ≠ prevStatus →
      ActionPath jobs jobPlans jobId (.updateBuild job prevStatus jobPlan now)
        { next := some (.publishBuild job jobPlan),
          advance := some ⟨buildId, job.status, job.dateStarted, now⟩ }
  | unchanged {job prevStatus jobPlan now} :
      ActionPath jobs jobPlans jobId (.updateBuild job prevStatus jobPlan now)
        { next := some (.finish job jobPlan) }
  | published {job jobPlan} :
      ActionPath jobs jobPlans jobId (.publishBuild job jobPlan) { next := some (.finish job jobPlan) }
  | finished {job jobPlan} :
      ActionPath jobs jobPlans jobId (.finish job jobPlan)
        { next := some (.publishJob job), enqueued := continuation jobId job jobPlan }
  | publishedJob {job} : ActionPath jobs jobPlans jobId (.publishJob job) { next := some .release }
  | released : ActionPath jobs jobPlans jobId .release { next := none }

/-- **Inversion**: every action takes one of the paths of `ActionPath`. -/
theorem syncJobAction_path (jobs : JobId → Option Job) (jobPlans : JobId → Option JobPlan)
    (jobId : JobId) (env : Env) :
    ∀ pc, ActionPath jobs jobPlans jobId pc (syncJobAction jobs jobPlans jobId env pc)
  | .load => by
    simp only [syncJobAction]
    split
    · exact .raised
    · split
      · exact .missing ‹_›
      · split
        · exact .alreadyFinished ‹_› ‹_›
        · exact .loaded ‹_› ‹_›
  | .execute job jobPlan => by
    simp only [syncJobAction]
    split
    · exact .raised
    · exact .executed env.execute ‹_›
  | .commitJob job prevStatus jobPlan => by
    simp only [syncJobAction]
    split
    · exact .raised
    · exact .committed env.now
  | .updateBuild job prevStatus jobPlan now => by
    simp only [syncJobAction]
    split
    · split
      · split
        · exact .raised
        · exact .advanced ‹_› ‹_›
      · exact .unchanged
    · exact .unchanged
  | .publishBuild job jobPlan => by
    simp only [syncJobAction]
    split
    · exact .raised
    · exact .published
  | .finish job jobPlan => .finished
  | .publishJob job => by
    simp only [syncJobAction]
    split
    · exact .raised
    · exact .publishedJob
  | .release => .released

/-! ### Effects on the state -/

section Perform

variable (s : SyncState) (jobId : JobId) (eff : Effect)

@[simp] theorem perform_runs : (s.perform jobId eff).runs = Function.update s.runs jobId eff.next :=
  rfl

@[simp] theorem perform_pending : (s.perform jobId eff).pending = s.pending ++ eff.enqueued := rfl

@[simp] theorem perform_sent :
    (s.perform jobId eff).sent = s.sent ++ eff.enqueued.map (jobId, ·) := rfl

@[simp] theorem perform_jobPlans : (s.perform jobId eff).jobPlans = s.jobPlans := rfl

/-- An effect that commits nothing leaves the jobs and builds as they are. -/
theorem perform_tables (hc : eff.commit = none) (ha : eff.advance = none) :
    (s.perform jobId eff).jobs = s.jobs ∧ (s.perform jobId eff).builds = s.builds := by
  simp [SyncState.perform, hc, ha]

/-- A run writes only its own job row. -/
theorem perform_jobs_of_ne {k : JobId} (hk : k ≠ jobId) : (s.perform jobId eff).jobs k = s.jobs k := by
  obtain ⟨_, _ | _, _, _⟩ := eff <;> simp [SyncState.perform, hk]

end Perform

/-- The event `act jobId env` is the next action of the run of `jobId`, along one of its paths. -/
theorem next_act {s s' : SyncState} {jobId : JobId} {env : Env}
    (h : s.next (.act jobId env) = some s') :
    ∃ pc eff, s.runs jobId = some pc ∧ ActionPath s.jobs s.jobPlans jobId pc eff ∧
      s' = s.perform jobId eff := by
  simp only [SyncState.next] at h
  split at h
  · exact ⟨_, _, ‹_›, syncJobAction_path _ _ _ env _, (Option.some.inj h).symm⟩
  · cases h

/-- A delivery consumes one pending `sync_job` task, and starts a run of the job unless one holds the
lock; it writes no table. -/
theorem next_deliver {s s' : SyncState} {jobId : JobId} {countdown : Nat}
    (h : s.next (.deliver jobId countdown) = some s') :
    Task.syncJob jobId countdown ∈ s.pending ∧
      s' = { s with
        pending := s.pending.erase (.syncJob jobId countdown),
        runs := match s.runs jobId with
          | some _ => s.runs
          | none => Function.update s.runs jobId (some .load) } := by
  simp only [SyncState.next] at h
  split at h
  · refine ⟨‹_›, ?_⟩
    split at h <;> simp_all
  · cases h

/-- A delivery starts at most a run at its load. -/
theorem next_deliver_runs {s s' : SyncState} {jobId k : JobId} {countdown : Nat} {pc : SyncJobPc}
    (h : s.next (.deliver jobId countdown) = some s') (hk : s'.runs k = some pc) :
    s.runs k = some pc ∨ pc = .load := by
  obtain ⟨-, rfl⟩ := next_deliver h
  cases hr : s.runs jobId with
  | some _ => simp only [hr] at hk; exact .inl hk
  | none =>
      by_cases hkj : k = jobId
      · subst hkj
        simp only [hr, Function.update_same, Option.some.injEq] at hk
        exact .inr hk.symm
      · exact .inl (by simpa [hr, hkj] using hk)

/-! ### Runs -/

@[simp] theorem exec_nil (s : SyncState) : s.exec [] = some s := rfl

theorem exec_cons (s : SyncState) (e : SyncEvent) (es : List SyncEvent) :
    s.exec (e :: es) = (s.next e).bind (·.exec es) := by
  simp only [SyncState.exec]
  cases s.next e <;> rfl

theorem exec_append (s : SyncState) (es₁ es₂ : List SyncEvent) :
    s.exec (es₁ ++ es₂) = (s.exec es₁).bind (·.exec es₂) := by
  induction es₁ generalizing s with
  | nil => rfl
  | cons e es ih =>
      simp only [List.cons_append, exec_cons]
      cases s.next e <;> simp [ih]

/-- **The run lemma**: a property that every event keeps holds after every schedule. -/
theorem exec_induction {P : SyncState → Prop}
    (step : ∀ {s s' : SyncState} {e : SyncEvent}, P s → s.next e = some s' → P s') :
    ∀ {s s' : SyncState} {es : List SyncEvent}, P s → s.exec es = some s' → P s' := by
  intro s s' es hs h
  induction es generalizing s with
  | nil => exact Option.some.inj h ▸ hs
  | cons e es ih =>
      rw [exec_cons] at h
      cases hn : s.next e with
      | none => simp [hn] at h
      | some s₁ => exact ih (step hs hn) (by simpa [hn] using h)

/-- The job an event is about. -/
def SyncEvent.jobId : SyncEvent → JobId
  | .deliver jobId _ => jobId
  | .act jobId _ => jobId

/-- An event moves only the run of its own job. -/
theorem next_runs_of_ne {s s' : SyncState} {e : SyncEvent} {k : JobId} (h : s.next e = some s')
    (hk : k ≠ e.jobId) : s'.runs k = s.runs k := by
  cases e with
  | deliver jobId countdown =>
      obtain ⟨-, rfl⟩ := next_deliver h
      simp only [SyncEvent.jobId] at hk
      cases s.runs jobId <;> simp [Function.update_noteq hk]
  | act jobId env =>
      obtain ⟨pc, eff, -, -, rfl⟩ := next_act h
      simp [Function.update_noteq (show k ≠ jobId from hk)]

theorem exec_runs_of_ne {s s' : SyncState} {es : List SyncEvent} {k : JobId}
    (h : s.exec es = some s') (hk : ∀ e ∈ es, k ≠ e.jobId) : s'.runs k = s.runs k := by
  induction es generalizing s with
  | nil => cases h; rfl
  | cons e es ih =>
      rw [exec_cons] at h
      cases hn : s.next e with
      | none => simp [hn] at h
      | some s₁ =>
          rw [ih (by simpa [hn] using h) (fun e' he' => hk e' (List.mem_cons_of_mem e he')),
            next_runs_of_ne hn (hk e (List.mem_cons_self e es))]

/-- No run is in flight: every state the queue starts from. -/
def SyncState.Idle (s : SyncState) : Prop := ∀ jobId, s.runs jobId = none

/-! ### The session's copy of the job is the stored row -/

/-- The job a run holds once its commit at line 52 went through. -/
def SyncJobPc.committed : SyncJobPc → Option Job
  | .updateBuild job .. => some job
  | .publishBuild job _ => some job
  | .finish job _ => some job
  | .publishJob job => some job
  | _ => none

/-- From its commit on, the job a run holds is the stored job row. -/
def SyncState.CommittedStored (s : SyncState) : Prop :=
  ∀ jobId pc job, s.runs jobId = some pc → pc.committed = some job → s.jobs jobId = some job

theorem committedStored_of_idle {s : SyncState} (h : s.Idle) : s.CommittedStored := by
  intro jobId pc job hr
  simp [h jobId] at hr

/-- After one action, the job a run holds from its commit on is the job the action committed, or
the one it held before when the action commits nothing. -/
theorem ActionPath.committed_next {jobs : JobId → Option Job} {jobPlans : JobId → Option JobPlan}
    {jobId : JobId} {pc pc' : SyncJobPc} {eff : Effect} {job : Job}
    (hp : ActionPath jobs jobPlans jobId pc eff) (hn : eff.next = some pc')
    (hc : pc'.committed = some job) :
    eff.commit = some job ∨ eff.commit = none ∧ pc.committed = some job := by
  cases hp <;> simp only [retry, Option.some.injEq, reduceCtorEq] at hn <;> subst hn <;>
    simp_all [SyncJobPc.committed]

/-- One action keeps the run's committed job equal to the stored row: the commit writes exactly the
job the run goes on with, and the other actions write no job. -/
theorem perform_committedStored {s : SyncState} {jobId : JobId} {pc : SyncJobPc} {eff : Effect}
    (hs : s.CommittedStored) (hr : s.runs jobId = some pc)
    (hp : ActionPath s.jobs s.jobPlans jobId pc eff) : (s.perform jobId eff).CommittedStored := by
  intro k pc' job hk hc
  by_cases hkj : k = jobId
  · subst hkj
    simp only [perform_runs, Function.update_same] at hk
    rcases hp.committed_next hk hc with hcm | ⟨hcm, hpc⟩
    · simp [SyncState.perform, hcm]
    · simpa [SyncState.perform, hcm] using hs k pc job hr hpc
  · have hk' : s.runs k = some pc' := by simpa [hkj] using hk
    exact perform_jobs_of_ne s jobId eff hkj ▸ hs k pc' job hk' hc

theorem next_committedStored {s s' : SyncState} {e : SyncEvent} (hs : s.CommittedStored)
    (h : s.next e = some s') : s'.CommittedStored := by
  cases e with
  | deliver jobId countdown =>
      obtain ⟨-, rfl⟩ := next_deliver h
      intro k pc job hk hc
      split at hk
      · exact hs k pc job hk hc
      · by_cases hkj : k = jobId
        · subst hkj; simp [SyncJobPc.committed] at hk; subst hk; simp [SyncJobPc.committed] at hc
        · exact hs k pc job (by simpa [hkj] using hk) hc
  | act jobId env =>
      obtain ⟨pc, eff, hr, hp, rfl⟩ := next_act h
      exact perform_committedStored hs hr hp

/-! ### The only writer of a build -/

/-- **The only writer of a build.**  An event leaves every build row as it is, except the conditional
update of a run whose job belongs to the build and changed status in this run; that update writes
`BuildUpdate.apply` with the job's status and start. -/
theorem next_builds {s s' : SyncState} {e : SyncEvent} (h : s.next e = some s') (buildId : BuildId) :
    s'.builds buildId = s.builds buildId ∨
      ∃ jobId env job prevStatus jobPlan now, e = .act jobId env ∧
        s.runs jobId = some (.updateBuild job prevStatus jobPlan now) ∧
        job.buildId = some buildId ∧ job.status ≠ prevStatus ∧
        s'.builds buildId =
          (s.builds buildId).map (BuildUpdate.apply ⟨buildId, job.status, job.dateStarted, now⟩) := by
  cases e with
  | deliver jobId countdown =>
      obtain ⟨-, rfl⟩ := next_deliver h
      exact .inl rfl
  | act jobId env =>
      obtain ⟨pc, eff, hr, hp, rfl⟩ := next_act h
      cases hp with
      | @advanced job prevStatus jobPlan now b hb hs =>
          by_cases hbb : buildId = b
          · subst hbb
            exact .inr ⟨jobId, env, job, prevStatus, jobPlan, now, rfl, hr, hb, hs,
              by simp [SyncState.perform]⟩
          · exact .inl (by simp [SyncState.perform, hbb])
      | _ => exact .inl rfl

end ChangesCI.Jobs.SyncJob
