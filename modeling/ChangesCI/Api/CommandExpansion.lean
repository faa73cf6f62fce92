import ChangesCI.Api.CommandReports
import Mathlib.Data.List.Nodup

/-!
# What `expand_command` creates, and what a failed report leaves

`expand_command` (`changes/api/command_details.py`, lines 125-162) works in the request's session:
the new phase and the steps `create_expanded_jobstep` creates reach the store only through the
view's commit at line 114.  The `sync_job_step` tasks it schedules (lines 155-160) go to the queue
at once, before that commit, and no rollback takes them back.

* `createSteps_map_snd`, `createSteps_map_fst` — the created steps are `create_expanded_jobstep` of
  each descriptor, in order, with the ids that follow the phase's;
* `expand_command_creates` — **PROVED**: for every sequence of descriptors the expander yields,
  one phase under the jobstep's job, one step per descriptor in order, one `sync_job_step` task per
  created step and none for any other, and the phase queued, or finished and passed when no step
  was created;
* `post_failure_keeps_tables` — **PROVED**: a report answered with an error, or that raises, leaves
  the commands, the phases and the steps as they were; it leaves tasks on the queue only when a
  `delay_if_needed` or the commit raised;
* `failed_commit_leaves_step_tasks` — and then those tasks schedule steps that were never stored.
-/

namespace ChangesCI.Api.CommandDetails

open ChangesCI.Models

/-! ### The created steps and their tasks -/

section Steps

variable (buildStep : BuildStep) (jobstep : JobStep) (phase : JobPhase)

@[simp] theorem createSteps_length (nextId : Nat) (futures : List FutureJobStep) :
    (createSteps buildStep jobstep phase nextId futures).length = futures.length := by
  induction futures generalizing nextId <;> simp [createSteps, *]

/-- The steps are `create_expanded_jobstep` of each descriptor, in order. -/
theorem createSteps_map_snd (nextId : Nat) (futures : List FutureJobStep) :
    (createSteps buildStep jobstep phase nextId futures).map Prod.snd =
      futures.map (buildStep.createExpandedJobstep jobstep phase) := by
  induction futures generalizing nextId <;> simp [createSteps, *]

/-- The steps take the ids from `nextId` on, one each. -/
theorem createSteps_map_fst (nextId : Nat) (futures : List FutureJobStep) :
    (createSteps buildStep jobstep phase nextId futures).map Prod.fst =
      List.range' nextId futures.length := by
  induction futures generalizing nextId <;> simp [createSteps, List.range'_succ, *]

end Steps

/-- Steps with distinct ids get one `sync_job_step` task each. -/
theorem scheduleSteps_count {jobId : JobId} {steps : List (JobStepId × JobStep)}
    (hnd : (steps.map Prod.fst).Nodup) {step : JobStepId × JobStep} (hs : step ∈ steps) :
    (scheduleSteps jobId steps).count (.syncJobStep step.1 step.1 jobId) = 1 := by
  have hmap : scheduleSteps jobId steps =
      (steps.map Prod.fst).map fun id => .syncJobStep id id jobId := by
    simp [scheduleSteps, Function.comp_def]
  rw [hmap]
  exact List.count_eq_one_of_mem (hnd.map fun _ _ h => (Task.syncJobStep.inj h).1)
    (List.mem_map_of_mem _ (List.mem_map_of_mem _ hs))

/-- The task a step gets names that step. -/
theorem mem_scheduleSteps {jobId : JobId} {steps : List (JobStepId × JobStep)} {t : Task} :
    t ∈ scheduleSteps jobId steps ↔ ∃ step ∈ steps, t = .syncJobStep step.1 step.1 jobId := by
  simp [scheduleSteps, eq_comm]

/-! ### `expand_command` -/

/-- With `max_executors` set and no raise in the expansion, `expand_command` creates the phase
with the next fresh id, the steps of the descriptors, and their tasks. -/
theorem expandCommand_eq_done {expander : Expander} {buildStep : BuildStep} {jobstep : JobStep}
    {data : Output} {nextId maxExecutors : Nat} {fault : Option PostFault}
    (hm : jobstep.maxExecutors = some maxExecutors) (hexpand : fault ≠ some .expand)
    (hdelay : ∀ i, fault ≠ some (.delay i)) :
    let created : JobPhase :=
      ⟨nextId, jobstep.jobId, jobstep.projectId, phaseName expander data, .queued, .unknown⟩
    let steps := createSteps buildStep jobstep created (nextId + 1)
      (expander.expand data maxExecutors buildStep.testStatsFrom)
    expandCommand expander buildStep jobstep data nextId fault =
      .done (if steps.length = 0 then { created with status := .finished, result := .passed }
        else created) steps (scheduleSteps jobstep.jobId steps) := by
  -- `hdelay` discharges the `delay` branch of the match on the fault
  simp only [expandCommand, hm, if_neg hexpand]

/-- **What `expand_command` creates.**  For every sequence of descriptors the expander yields, when
`max_executors` is set and nothing in the expansion raises: one new phase, with the next fresh id,
under the originating jobstep's job; one step per descriptor, in order, created by
`create_expanded_jobstep` with that phase and the originating jobstep, with the ids that follow;
one `sync_job_step` task, parented to the job, for each created step and none for any other step;
and the phase queued when a step was created, finished and passed when none was. -/
theorem expand_command_creates (expander : Expander) (buildStep : BuildStep) (jobstep : JobStep)
    (data : Output) (nextId maxExecutors : Nat) (fault : Option PostFault)
    (hm : jobstep.maxExecutors = some maxExecutors) (hexpand : fault ≠ some .expand)
    (hdelay : ∀ i, fault ≠ some (.delay i)) :
    ∃ phase steps tasks,
      expandCommand expander buildStep jobstep data nextId fault = .done phase steps tasks ∧
      phase.id = nextId ∧ phase.jobId = jobstep.jobId ∧
      steps.map Prod.snd = (expander.expand data maxExecutors buildStep.testStatsFrom).map
        (buildStep.createExpandedJobstep jobstep phase) ∧
      steps.map Prod.fst =
        List.range' (nextId + 1) (expander.expand data maxExecutors buildStep.testStatsFrom).length ∧
      (∀ step ∈ steps, tasks.count (.syncJobStep step.1 step.1 jobstep.jobId) = 1) ∧
      (∀ t ∈ tasks, ∃ step ∈ steps, t = .syncJobStep step.1 step.1 jobstep.jobId) ∧
      (steps ≠ [] ∧ phase.status = .queued ∨
        steps = [] ∧ phase.status = .finished ∧ phase.result = .passed) := by
  refine ⟨_, _, _, expandCommand_eq_done hm hexpand hdelay, ?_⟩
  have hnd := createSteps_map_fst buildStep jobstep
    ⟨nextId, jobstep.jobId, jobstep.projectId, phaseName expander data, .queued, .unknown⟩ (nextId + 1)
    (expander.expand data maxExecutors buildStep.testStatsFrom)
  refine ⟨by split <;> rfl, by split <;> rfl, ?_, hnd,
    fun _ hs => scheduleSteps_count (hnd ▸ List.nodup_range' _ _) hs, fun _ => mem_scheduleSteps.mp, ?_⟩
  all_goals cases expander.expand data maxExecutors buildStep.testStatsFrom <;>
    simp [createSteps, createSteps_map_snd]

/-- An output listing two steps. -/
def lintAndTest : Output := ⟨none, ["make lint", "make test"]⟩

/-- The jobstep of command 0, which may run on two executors. -/
def collectingJobstep : JobStep := ⟨0, 0, 0, .unknown, some 2⟩

theorem expand_command_creates_lint_and_test :
    collectingJobstep.maxExecutors = some 2 ∧ (none : Option PostFault) ≠ some .expand ∧
      (∀ i, (none : Option PostFault) ≠ some (.delay i)) ∧
      ∃ phase steps tasks,
        expandCommand listExpander phaseBuildStep collectingJobstep lintAndTest 1 none =
          .done phase steps tasks ∧
        phase.id = 1 ∧ phase.jobId = collectingJobstep.jobId ∧
        steps.map Prod.snd = (listExpander.expand lintAndTest 2 phaseBuildStep.testStatsFrom).map
          (phaseBuildStep.createExpandedJobstep collectingJobstep phase) ∧
        steps.map Prod.fst =
          List.range' (1 + 1) (listExpander.expand lintAndTest 2 phaseBuildStep.testStatsFrom).length ∧
        (∀ step ∈ steps, tasks.count (.syncJobStep step.1 step.1 collectingJobstep.jobId) = 1) ∧
        (∀ t ∈ tasks, ∃ step ∈ steps, t = .syncJobStep step.1 step.1 collectingJobstep.jobId) ∧
        (steps ≠ [] ∧ phase.status = .queued ∨
          steps = [] ∧ phase.status = .finished ∧ phase.result = .passed) :=
  ⟨rfl, by decide, fun _ => (Option.some_ne_none _).symm,
    expand_command_creates listExpander phaseBuildStep collectingJobstep lintAndTest 1 2 none rfl
      (by decide) fun _ => (Option.some_ne_none _).symm⟩

/-! ### A failed report -/

/-- **A failed report.**  A report answered with an error, or that raises, leaves the commands, the
phases, the steps and the fresh ids as they were; the tasks it sent before failing stay on the
queue, and there are some only when a `delay_if_needed` or the commit raised. -/
theorem post_failure_keeps_tables {expanders : Expanders} {buildStep : BuildStep}
    {s s' : CommandStore} {commandId : CommandId} {args : Report} {env : PostEnv} {reply : Reply}
    (h : post expanders buildStep s commandId args env = (reply, s'))
    (hr : ∀ c, reply ≠ .command c) :
    ∃ tasks, s' = { s with tasks := s.tasks ++ tasks } ∧
      (tasks = [] ∨ env.fault = some .commit ∨ ∃ i, env.fault = some (.delay i)) := by
  unfold post at h
  split at h
  · cases h
    exact ⟨[], by simp, .inl rfl⟩
  · rcases postFrom_cases h with ⟨tasks, rfl, ht, -⟩ | ⟨_, _, -, -, -, hreply | hreply, -⟩
    · -- the request read the command it then found gone: not when it runs alone
      exact ⟨tasks, rfl, ht.imp_right <| Or.imp_right fun h =>
        h.resolve_right fun ⟨hread, hgone⟩ => by simp [hgone] at hread⟩
    all_goals exact absurd hreply (hr _)

/-- A final report whose output lists two steps. -/
def twoStepsReport : Report := ⟨some .finished, some 0, none, some lintAndTest⟩

/-- The final report of command 0 on its queued `collect_steps` command, once with the commit of
line 114 raising, once with the second `delay_if_needed` raising.  Both requests raise; the
command, the phases and the steps are as before; but the `sync_job_step` task of step 2 is on the
queue, and the store holds no step 2. -/
theorem failed_commit_leaves_step_tasks :
    post listExpanders phaseBuildStep queuedCommandStore 0 finishedWithOutput ⟨10, some .commit⟩ =
        (.raised, { queuedCommandStore with tasks := [.syncJobStep 2 2 0] }) ∧
      post listExpanders phaseBuildStep queuedCommandStore 0 twoStepsReport ⟨10, some (.delay 1)⟩ =
        (.raised, { queuedCommandStore with tasks := [.syncJobStep 2 2 0] }) ∧
      queuedCommandStore.jobsteps 2 = none :=
  ⟨rfl, rfl, rfl⟩

end ChangesCI.Api.CommandDetails
