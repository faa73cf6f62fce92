import Mathlib.Logic.Function.Basic

/-!
# The entity model: status vocabulary, rows and queue messages

The reconciliation tasks and the command report endpoint of `changes` work on a handful of tables
(`job`, `build`, `jobplan`, `command`, `jobstep`, `jobphase`, `latest_green_build`) and on the work
queue.  This file fixes the vocabulary shared by every model of the development:

* `Status` and `Result` — `changes.constants`, the progress and the verdict of a row;
* `Job`, `Build`, `Source`, `JobPlan` — the rows `_sync_job` and the green-build listener read and
  write, with exactly the columns those functions touch;
* `Command`, `CommandType`, `JobStep`, `JobPhase` — the rows `CommandDetailsAPIView.post` and
  `expand_command` read and write;
* `Task` — a message on the work queue, the task name with its keyword arguments.

A table is a function from ids to optional rows (`none`: no such row); ids are numbers, as the
`uuid` columns are compared only for equality.  Timestamps are numbers of seconds: only their order
and their being set or not matter to the code modelled here.
-/

namespace ChangesCI.Models

/-! Row ids of the `job`, `build`, `project`, `plan`, `jobstep`, `jobphase` and `command` tables. -/

abbrev JobId := Nat
abbrev BuildId := Nat
abbrev ProjectId := Nat
abbrev PlanId := Nat
abbrev JobStepId := Nat
abbrev PhaseId := Nat
abbrev CommandId := Nat

/-- `changes.constants.Status`: the progress of a job, build, phase, step or command. -/
inductive Status where
  | unknown
  | queued
  | inProgress
  | finished
  deriving DecidableEq, Repr

/-- `changes.constants.Result`: the verdict of a row, set at or after its finish. -/
inductive Result where
  | unknown
  | passed
  | failed
  | aborted
  | infraFailed
  deriving DecidableEq, Repr

/-! ### Jobs, builds and plans -/

/-- A `job` row, with the columns `_sync_job` reads or writes. -/
structure Job where
  status : Status
  result : Result
  buildId : Option BuildId
  projectId : ProjectId
  dateStarted : Option Nat
  dateModified : Option Nat
  deriving DecidableEq, Repr

/-- The `source` of a build with its `revision`: the sha under test and the branches it is on. -/
structure Source where
  revisionSha : String
  branches : List String
  deriving DecidableEq, Repr

/-- A `build` row: the columns the conditional update of `_sync_job` writes, and those the
green-build listener reads. -/
structure Build where
  status : Status
  result : Result
  projectId : ProjectId
  dateStarted : Option Nat
  dateModified : Option Nat
  source : Source
  deriving DecidableEq, Repr

/-- A `jobplan` row joined with its `plan`: the plan id and the plan's ordered step ids. -/
structure JobPlan where
  planId : PlanId
  steps : List Nat
  deriving DecidableEq, Repr

/-! ### Commands, steps and phases -/

/-- `changes.models.command.CommandType`: the kinds of command the report endpoint tells apart. -/
inductive CommandType where
  | default
  | collectSteps
  | collectTests
  deriving DecidableEq, Repr

/-- `'%s' % command.type`: the text of an enum member, as Python prints it. -/
def CommandType.str : CommandType → String
  | .default => "CommandType.default"
  | .collectSteps => "CommandType.collect_steps"
  | .collectTests => "CommandType.collect_tests"

/-- A `command` row: the columns a report updates, its type and its jobstep. -/
structure Command where
  status : Status
  returnCode : Option Int
  dateStarted : Option Nat
  dateFinished : Option Nat
  type : CommandType
  jobstepId : JobStepId
  deriving DecidableEq, Repr

/-- A `jobstep` row: what the report endpoint reads of it (`data['max_executors']` is `none` when
the key is absent). -/
structure JobStep where
  jobId : JobId
  projectId : ProjectId
  phaseId : PhaseId
  result : Result
  maxExecutors : Option Nat
  deriving DecidableEq, Repr

/-- A `jobphase` row, with the id it was given at creation. -/
structure JobPhase where
  id : PhaseId
  jobId : JobId
  projectId : ProjectId
  label : String
  status : Status
  result : Result
  deriving DecidableEq, Repr

/-! ### The work queue -/

/-- A message on the work queue: the task name with its keyword arguments, and the `countdown` the
caller passed to `queue.delay` or `queue.retry` where it passed one. -/
inductive Task where
  | syncJob (jobId : JobId) (countdown : Nat)
  | updateBuildResult (buildId : BuildId) (jobId : JobId)
  | updateProjectStats (projectId : ProjectId) (countdown : Nat)
  | notifyListeners (jobId : JobId) (signalName : String)
  | updateProjectPlanStats (projectId : ProjectId) (planId : PlanId) (countdown : Nat)
  | syncJobStep (stepId : JobStepId) (taskId : JobStepId) (parentTaskId : JobId)
  deriving DecidableEq, Repr

end ChangesCI.Models
