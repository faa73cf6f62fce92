import ChangesCI.Models

/-!
# `CommandDetailsAPIView.post`: a command's status report and its expansion

`post(command_id)` (`changes/api/command_details.py`, lines 44-120) applies a report (a status, a
return code, a date, a JSON output) to a command.  When the report carries output or finishes the
command, and the command's jobstep has not failed, the command's type may have an expander
(`EXPANDERS`): the output is validated and `expand_command` (lines 125-162) creates a new phase
with one step per descriptor the expander yields, and schedules `sync_job_step` for each.

The view reads the command at line 60 and commits at line 114; between the two, other requests may
commit.  So the body after the read is `postView`, a function of the command as read (`snapshot`)
and of the store at commit time.  The commit is SQLAlchemy's: the `UPDATE` writes the columns whose
value the request changed from the one it read (`writeCommand`), and the reply, serialised after
the commit has expired the session, is the row as stored.  The error returns write nothing: the
command is unchanged (lines 62, 65) or the session is rolled back (lines 95, 106, 109).  The return
of line 91 is a normal one, with the report applied and flushed: the APIView's dispatcher commits
the session after the view has returned (`dispatchCommit`), while the reply was serialised from the
session's command before.  `postFrom` is the view followed by that commit, and `post` reads the
command and runs it at once.

* `applyReport` — lines 67-82: the return code, the status and the two dates;
* `expandCommand` — lines 125-162, with the new phase, the created steps and the scheduled tasks,
  or the tasks already scheduled when it raised;
* `postView`, `postFrom`, `post` — the view, with every early return and the point where it can
  raise (`PostFault`) chosen by the environment;
* `post_commands` — one report processed alone leaves the commands as they were and answers with
  no command, or stores the report applied to a command that was not finished, and answers with it;
* `post_reply_is_committed` — **PROVED**: whenever `post` answers with a command, that command is
  the one the request left stored, on line 91's return as on the commit of line 114.
-/

namespace ChangesCI.Api.CommandDetails

open ChangesCI.Models

/-! ### The request -/

/-- `STATUS_CHOICES`: the statuses a report may carry (`post_parser` rejects any other). -/
inductive ReportStatus where
  | queued
  | inProgress
  | finished
  deriving DecidableEq, Repr

/-- `Status[args.status]`. -/
def ReportStatus.toStatus : ReportStatus → Status
  | .queued => .queued
  | .inProgress => .inProgress
  | .finished => .finished

/-- A report's JSON output, as `expand_command` and the expanders read it: its `phase` key, and
the entries the expander turns into steps (the `commands` or `tests` it lists). -/
structure Output where
  phase : Option String
  entries : List String
  deriving DecidableEq, Repr

/-- The parsed arguments of a report.  `output` is `none` when the report carries none or a falsy
one (`null`, `{}`, `[]`, ...): the view only tests its truth. -/
structure Report where
  status : Option ReportStatus
  returnCode : Option Int
  date : Option Nat
  output : Option Output
  deriving DecidableEq, Repr

/-- Where a request can raise: a store call, an expander or backend call, or the queue.  The first
exception ends the request. -/
inductive PostFault where
  /-- `Command.query.get` (line 60). -/
  | query
  /-- `db.session.flush()` (line 85), or the load of `command.jobstep` (line 89). -/
  | flush
  /-- Lines 126-153 of `expand_command`: the build-step lookup, the expander, the backend's
  `create_expanded_jobstep`, the flush. -/
  | expand
  /-- The `i`-th `sync_job_step.delay_if_needed` (line 156), counted from 0. -/
  | delay (i : Nat)
  /-- `db.session.commit()` (line 114), or the dispatcher's commit after the return of line 91. -/
  | commit
  deriving DecidableEq, Repr

/-- The environment of one request: `datetime.utcnow()`, and where it raises, if it does. -/
structure PostEnv where
  now : Nat
  fault : Option PostFault
  deriving DecidableEq, Repr

/-- What the view answers. -/
inductive Reply where
  /-- `'', 404`. -/
  | notFound
  /-- `error(message)`: a 400 with the message. -/
  | error (message : String)
  /-- `'', 500` after a validation that raised. -/
  | internalError
  /-- `self.respond(command)`. -/
  | command (c : Command)
  /-- An exception escaped the view. -/
  | raised
  deriving DecidableEq, Repr

/-! ### Expanders and the build step (outside this repository's sources) -/

/-- What `expander.validate()` does. -/
inductive Validation where
  | ok
  | assertionError (message : String)
  | raises
  deriving DecidableEq, Repr

/-- A descriptor of a future step, as `expander.expand` yields it. -/
structure FutureJobStep where
  label : String
  deriving DecidableEq, Repr

/-- An expander class instantiated on a report's output: `validate()`,
`expand(max_executors, test_stats_from)`, and `default_phase_name()`. -/
structure Expander where
  validate : Output → Validation
  expand : Output → Nat → Option String → List FutureJobStep
  defaultPhaseName : String

/-- The two expander classes of `EXPANDERS`. -/
structure Expanders where
  commands : Expander
  tests : Expander

/-- `get_expander(type)`: `EXPANDERS.get(type)`. -/
def getExpander (expanders : Expanders) : CommandType → Option Expander
  | .collectSteps => some expanders.commands
  | .collectTests => some expanders.tests
  | .default => none

/-- The job's build step (`JobPlan.get_build_step_for_job`): `get_test_stats_from()` and
`create_expanded_jobstep(jobstep, new_jobphase, future_jobstep)`. -/
structure BuildStep where
  testStatsFrom : Option String
  createExpandedJobstep : JobStep → JobPhase → FutureJobStep → JobStep

/-! ### The store -/

/-- The tables a report touches, the queue, and the next fresh `uuid`. -/
structure CommandStore where
  commands : CommandId → Option Command
  jobsteps : JobStepId → Option JobStep
  jobphases : List JobPhase
  tasks : List Task
  nextId : Nat

/-! ### The report -/

/-- Lines 67-82: the return code, then the status with the two dates it keeps consistent. -/
def applyReport (command : Command) (args : Report) (currentDatetime : Nat) : Command :=
  let command := match args.returnCode with
    | some returnCode => { command with returnCode := some returnCode }
    | none => command
  match args.status with
  | none => command
  | some reported =>
    let status := reported.toStatus
    { command with
      status := status
      dateFinished :=
        if status = .finished ∧ command.dateFinished = none then some currentDatetime
        else if status ≠ .finished ∧ command.dateFinished.isSome then none
        else command.dateFinished
      dateStarted :=
        if status ≠ .queued ∧ command.dateStarted = none then some currentDatetime
        else if status = .queued ∧ command.dateStarted.isSome then none
        else command.dateStarted }

/-- `args.output or args.status == 'finished'` (lines 51 and 87): the request takes the expand lock
and may expand. -/
def Report.mayExpand (args : Report) : Bool :=
  args.output.isSome || args.status == some .finished

/-- `command.jobstep.result in (Result.aborted, Result.failed, Result.infra_failed)` (line 89). -/
def failedResults : List Result := [.aborted, .failed, .infraFailed]

/-- The `UPDATE` of the commit: the columns whose value the request changed from the one it read
are written over the stored row; the others keep what is stored. -/
def writeCommand (stored snapshot updated : Command) : Command :=
  { stored with
    status := if updated.status ≠ snapshot.status then updated.status else stored.status
    returnCode :=
      if updated.returnCode ≠ snapshot.returnCode then updated.returnCode else stored.returnCode
    dateStarted :=
      if updated.dateStarted ≠ snapshot.dateStarted then updated.dateStarted else stored.dateStarted
    dateFinished :=
      if updated.dateFinished ≠ snapshot.dateFinished then updated.dateFinished
      else stored.dateFinished }

@[simp] theorem applyReport_type (c : Command) (args : Report) (t : Nat) :
    (applyReport c args t).type = c.type := by
  unfold applyReport
  split <;> split <;> rfl

@[simp] theorem applyReport_jobstepId (c : Command) (args : Report) (t : Nat) :
    (applyReport c args t).jobstepId = c.jobstepId := by
  unfold applyReport
  split <;> split <;> rfl

/-- A commit after a read of the stored row itself writes the updated command. -/
theorem writeCommand_read {c u : Command} (htype : u.type = c.type)
    (hjobstep : u.jobstepId = c.jobstepId) : writeCommand c c u = u := by
  cases c
  cases u
  simp only at htype hjobstep
  subst htype hjobstep
  simp only [writeCommand, ne_eq, ite_not, Command.mk.injEq]
  refine ⟨?_, ?_, ?_, ?_⟩ <;> split <;> simp_all

/-! ### `expand_command` -/

/-- What `expand_command` leaves: the new phase and the created steps in the session, with the
`sync_job_step` tasks it put on the queue; or, when it raised, the tasks it had put there. -/
inductive Expansion where
  | done (phase : JobPhase) (steps : List (JobStepId × JobStep)) (tasks : List Task)
  | raised (tasks : List Task)

/-- The loop of lines 142-145: one `create_expanded_jobstep` per descriptor, in order, each step
with the next fresh id. -/
def createSteps (buildStep : BuildStep) (jobstep : JobStep) (phase : JobPhase) :
    Nat → List FutureJobStep → List (JobStepId × JobStep)
  | _, [] => []
  | nextId, future :: futures =>
    (nextId, buildStep.createExpandedJobstep jobstep phase future) ::
      createSteps buildStep jobstep phase (nextId + 1) futures

/-- The loop of lines 155-160: `sync_job_step.delay_if_needed` for each created step, with the
step's id as task id and the job's id as parent task id.  Modelled from the spec (4.5: each new
step "is then scheduled for reconciliation, parented to the owning Job for task tracking"):
`TrackedTask.delay_if_needed` is not in src, and is taken as the enqueue of `sync_job_step` it
performs.  The task tracking under the parent job is left out: nothing modelled reads it, and src
does not say in which transaction it is written. -/
def scheduleSteps (jobId : JobId) (steps : List (JobStepId × JobStep)) : List Task :=
  steps.map fun step => .syncJobStep step.1 step.1 jobId

/-- `phase_name = data.get('phase')`, or the expander's default when that is falsy (lines 127-129). -/
def phaseName (expander : Expander) (data : Output) : String :=
  match data.phase with
  | some name => if name = "" then expander.defaultPhaseName else name
  | none => expander.defaultPhaseName

/-- `expand_command(command, expander, data)` for the command's jobstep, with `nextId` the next
fresh id and `fault` the request's failure point. -/
def expandCommand (expander : Expander) (buildStep : BuildStep) (jobstep : JobStep)
    (data : Output) (nextId : Nat) (fault : Option PostFault) : Expansion :=
  let phase : JobPhase :=
    ⟨nextId, jobstep.jobId, jobstep.projectId, phaseName expander data, .queued, .unknown⟩
  match jobstep.maxExecutors with
  | none => .raised []
  | some maxExecutors =>
    if fault = some .expand then .raised []
    else
      let steps := createSteps buildStep jobstep phase (nextId + 1)
        (expander.expand data maxExecutors buildStep.testStatsFrom)
      let phase := if steps.length = 0 then { phase with status := .finished, result := .passed }
        else phase
      let tasks := scheduleSteps jobstep.jobId steps
      match fault with
      | some (.delay i) => if i < tasks.length then .raised (tasks.take i) else .done phase steps tasks
      | _ => .done phase steps tasks

/-! ### The view -/

/-- Line 114 and the reply of line 120: the commit writes the command (and the expansion, if any);
the reply is the row as stored after it.  A failing commit leaves only the tasks already sent. -/
def commitPost (s : CommandStore) (commandId : CommandId) (snapshot updated : Command)
    (fault : Option PostFault) (phases : List JobPhase) (steps : List (JobStepId × JobStep))
    (tasks : List Task) : Reply × CommandStore :=
  match s.commands commandId with
  | none => (.raised, { s with tasks := s.tasks ++ tasks })
  | some stored =>
    if fault = some .commit then (.raised, { s with tasks := s.tasks ++ tasks })
    else
      let written := writeCommand stored snapshot updated
      (.command written,
        { s with
          commands := Function.update s.commands commandId (some written)
          jobsteps := fun id => ((steps.lookup id).map some).getD (s.jobsteps id)
          jobphases := s.jobphases ++ phases
          tasks := s.tasks ++ tasks
          nextId := s.nextId + phases.length + steps.length })

/-- How lines 61-120 end, once line 60 has read `snapshot`: with the reply and the store after the
commit of line 114, or after a return that commits nothing; or at the return of line 91, with the
command read and the report applied to it, flushed but not committed. -/
inductive ViewEnd where
  | done (result : Reply × CommandStore)
  | responded (snapshot updated : Command)

/-- Lines 61-120 of `post`, once line 60 has read `snapshot`, against the store `s` at that point. -/
def postView (expanders : Expanders) (buildStep : BuildStep) (s : CommandStore)
    (commandId : CommandId) (snapshot : Option Command) (args : Report) (env : PostEnv) : ViewEnd :=
  match snapshot with
  | none => .done (.notFound, s)
  | some command =>
    if command.status = .finished then .done (.error "Command already marked as finished", s)
    else
      let updated := applyReport command args (args.date.getD env.now)
      if env.fault = some .flush then .done (.raised, s)
      else if args.mayExpand then
        match s.jobsteps command.jobstepId with
        | none => .done (.raised, s)
        | some jobstep =>
          if jobstep.result ∈ failedResults then .responded command updated
          else
            match getExpander expanders command.type with
            | none => .done (commitPost s commandId command updated env.fault [] [] [])
            | some expander =>
              match args.output with
              | none => .done (.error ("Missing output for command of type " ++ command.type.str), s)
              | some output =>
                match expander.validate output with
                | .assertionError message => .done (.error message, s)
                | .raises => .done (.internalError, s)
                | .ok =>
                  match expandCommand expander buildStep jobstep output s.nextId env.fault with
                  | .raised tasks => .done (.raised, { s with tasks := s.tasks ++ tasks })
                  | .done phase steps tasks =>
                    .done (commitPost s commandId command updated env.fault [phase] steps tasks)
      else .done (commitPost s commandId command updated env.fault [] [] [])

/-- The APIView's dispatcher after the return of line 91: the reply is `self.respond(command)`,
serialised from the session's command, and the session, which holds the flushed command, is then
committed, writing the report's columns over the row stored by then.  A failing commit answers with
the exception.  Modelled from the spec (4.5: the report updates the command's status, return code
and timestamps, and only the expansion is skipped on a failed step): the dispatcher is not in src. -/
def dispatchCommit (s : CommandStore) (commandId : CommandId) (snapshot updated : Command)
    (fault : Option PostFault) : Reply × CommandStore :=
  match s.commands commandId with
  | none => (.raised, s)
  | some stored =>
    if fault = some .commit then (.raised, s)
    else
      (.command updated,
        { s with
          commands := Function.update s.commands commandId
            (some (writeCommand stored snapshot updated)) })

/-- The request once line 60 has read `snapshot`: the view, then the dispatcher's commit when it
returned at line 91. -/
def postFrom (expanders : Expanders) (buildStep : BuildStep) (s : CommandStore)
    (commandId : CommandId) (snapshot : Option Command) (args : Report) (env : PostEnv) :
    Reply × CommandStore :=
  match postView expanders buildStep s commandId snapshot args env with
  | .done result => result
  | .responded command updated => dispatchCommit s commandId command updated env.fault

/-- `CommandDetailsAPIView.post(command_id)` with the expand lock free: read the command, then the
rest of the view. -/
def post (expanders : Expanders) (buildStep : BuildStep) (s : CommandStore)
    (commandId : CommandId) (args : Report) (env : PostEnv) : Reply × CommandStore :=
  if env.fault = some .query then (.raised, s)
  else postFrom expanders buildStep s commandId (s.commands commandId) args env

/-! ### What a report leaves -/

/-- A commit either raises, leaving only the tasks already sent (the command is gone, or the
commit itself failed), or writes the report's columns over the stored command. -/
theorem commitPost_cases {s s' : CommandStore} {commandId : CommandId} {snapshot updated : Command}
    {fault : Option PostFault} {phases : List JobPhase} {steps : List (JobStepId × JobStep)}
    {tasks : List Task} {reply : Reply}
    (h : commitPost s commandId snapshot updated fault phases steps tasks = (reply, s')) :
    (reply = .raised ∧ s' = { s with tasks := s.tasks ++ tasks } ∧
      (s.commands commandId = none ∨ fault = some .commit)) ∨
    ∃ stored, s.commands commandId = some stored ∧
      reply = .command (writeCommand stored snapshot updated) ∧
      s'.commands = Function.update s.commands commandId (some (writeCommand stored snapshot updated)) := by
  unfold commitPost at h
  split at h
  · cases h
    exact .inl ⟨rfl, rfl, .inl ‹_›⟩
  · split at h
    · cases h
      exact .inl ⟨rfl, rfl, .inr ‹_›⟩
    · cases h
      exact .inr ⟨_, ‹_›, rfl, rfl⟩

/-- An expansion that raises has sent tasks only when a `delay_if_needed` raised. -/
theorem expandCommand_raised {expander : Expander} {buildStep : BuildStep} {jobstep : JobStep}
    {data : Output} {nextId : Nat} {fault : Option PostFault} {tasks : List Task}
    (h : expandCommand expander buildStep jobstep data nextId fault = .raised tasks) :
    tasks = [] ∨ ∃ i, fault = some (.delay i) := by
  unfold expandCommand at h
  dsimp only at h
  repeat' split at h
  all_goals first
    | cases h; exact .inl rfl
    | exact .inr ⟨_, rfl⟩
    | cases h

section View

variable {expanders : Expanders} {buildStep : BuildStep} {s s' : CommandStore}
  {commandId : CommandId} {snapshot : Option Command} {args : Report} {env : PostEnv}
  {reply : Reply}

/-- **What the view's body leaves when it ends on its own.**  Either it commits nothing and answers
with no command; only the tasks it sent before it failed stay on the queue: none, unless a
`delay_if_needed` or the commit raised, or the command it read was gone at the commit.  Or it
commits at line 114: the command it read was not finished, and the report's columns are written
over the stored command. -/
theorem postView_done
    (h : postView expanders buildStep s commandId snapshot args env = .done (reply, s')) :
    (∃ tasks, s' = { s with tasks := s.tasks ++ tasks } ∧
      (tasks = [] ∨ env.fault = some .commit ∨ (∃ i, env.fault = some (.delay i)) ∨
        snapshot.isSome ∧ s.commands commandId = none) ∧ ∀ c, reply ≠ .command c) ∨
    ∃ command stored, snapshot = some command ∧ command.status ≠ .finished ∧
      s.commands commandId = some stored ∧
      reply = .command (writeCommand stored command (applyReport command args (args.date.getD env.now))) ∧
      s'.commands = Function.update s.commands commandId
        (some (writeCommand stored command (applyReport command args (args.date.getD env.now)))) := by
  unfold postView at h
  repeat' split at h
  -- the commits, which raise or write the command
  all_goals try
    rcases commitPost_cases (ViewEnd.done.inj h) with ⟨rfl, rfl, hc⟩ | ⟨stored, hs, rfl, hcmd⟩
    · refine .inl ⟨_, rfl, ?_, fun _ h => by cases h⟩
      rcases hc with hc | hc
      · exact .inr (.inr (.inr ⟨rfl, hc⟩))
      · exact .inr (.inl hc)
    · exact .inr ⟨_, stored, rfl, ‹_›, hs, rfl, hcmd⟩
  -- the expansion that raised, and the returns that send nothing
  all_goals cases h
  all_goals first
    | exact .inl ⟨_, rfl, (expandCommand_raised ‹_›).imp_right (.inr ∘ .inl), fun _ hc => nomatch hc⟩
    | exact .inl ⟨[], by simp, .inl rfl, fun _ hc => nomatch hc⟩

/-- The return of line 91: the command read was not finished, the report asked for expansion and the
command's jobstep had failed; the view hands over the report applied to the command it read. -/
theorem postView_responded {command updated : Command}
    (h : postView expanders buildStep s commandId snapshot args env = .responded command updated) :
    snapshot = some command ∧ command.status ≠ .finished ∧
      updated = applyReport command args (args.date.getD env.now) := by
  unfold postView at h
  repeat' split at h
  all_goals cases h
  exact ⟨rfl, ‹_›, rfl⟩

end View

/-- The dispatcher's commit raises and changes nothing, or writes the report's columns over the
stored command and answers with the command the view serialised. -/
theorem dispatchCommit_cases {s s' : CommandStore} {commandId : CommandId}
    {snapshot updated : Command} {fault : Option PostFault} {reply : Reply}
    (h : dispatchCommit s commandId snapshot updated fault = (reply, s')) :
    (reply = .raised ∧ s' = s) ∨
    ∃ stored, s.commands commandId = some stored ∧ reply = .command updated ∧
      s'.commands = Function.update s.commands commandId (some (writeCommand stored snapshot updated)) := by
  unfold dispatchCommit at h
  split at h
  · cases h
    exact .inl ⟨rfl, rfl⟩
  · split at h
    · cases h
      exact .inl ⟨rfl, rfl⟩
    · cases h
      exact .inr ⟨_, ‹_›, rfl, rfl⟩

/-- **What a report leaves in the store.**  Either the request commits nothing and answers with no
command; only the tasks it sent before it failed stay on the queue: none, unless a
`delay_if_needed` or the commit raised, or the command it read was gone at the commit.  Or the
command it read was not finished, and the report's columns are written over the stored command:
by the commit of line 114, which answers with the row as stored, or by the dispatcher after the
return of line 91, which answers with the report applied to the command read. -/
theorem postFrom_cases {expanders : Expanders} {buildStep : BuildStep} {s s' : CommandStore}
    {commandId : CommandId} {snapshot : Option Command} {args : Report} {env : PostEnv}
    {reply : Reply}
    (h : postFrom expanders buildStep s commandId snapshot args env = (reply, s')) :
    (∃ tasks, s' = { s with tasks := s.tasks ++ tasks } ∧
      (tasks = [] ∨ env.fault = some .commit ∨ (∃ i, env.fault = some (.delay i)) ∨
        snapshot.isSome ∧ s.commands commandId = none) ∧ ∀ c, reply ≠ .command c) ∨
    ∃ command stored, snapshot = some command ∧ command.status ≠ .finished ∧
      s.commands commandId = some stored ∧
      (reply = .command (writeCommand stored command (applyReport command args (args.date.getD env.now))) ∨
        reply = .command (applyReport command args (args.date.getD env.now))) ∧
      s'.commands = Function.update s.commands commandId
        (some (writeCommand stored command (applyReport command args (args.date.getD env.now)))) := by
  unfold postFrom at h
  split at h
  · subst h
    exact (postView_done ‹_›).imp_right fun ⟨command, stored, h₁, h₂, h₃, h₄, h₅⟩ =>
      ⟨command, stored, h₁, h₂, h₃, .inl h₄, h₅⟩
  · obtain ⟨rfl, hnf, rfl⟩ := postView_responded ‹_›
    rcases dispatchCommit_cases h with ⟨rfl, rfl⟩ | ⟨stored, hs, rfl, hcmd⟩
    · exact .inl ⟨[], by simp, .inl rfl, fun _ hc => nomatch hc⟩
    · exact .inr ⟨_, stored, rfl, hnf, hs, .inr rfl, hcmd⟩

/-- **One report processed alone.**  Either the commands stay as they were and the view answers with
no command; or the stored command was not finished, and the request stores the report applied to
it and answers with that command, whether it committed at line 114 or returned at line 91. -/
theorem post_commands {expanders : Expanders} {buildStep : BuildStep} {s s' : CommandStore}
    {commandId : CommandId} {args : Report} {env : PostEnv} {reply : Reply}
    (h : post expanders buildStep s commandId args env = (reply, s')) :
    (s'.commands = s.commands ∧ ∀ c, reply ≠ .command c) ∨
    ∃ command, s.commands commandId = some command ∧ command.status ≠ .finished ∧
      s'.commands = Function.update s.commands commandId
        (some (applyReport command args (args.date.getD env.now))) ∧
      reply = .command (applyReport command args (args.date.getD env.now)) := by
  unfold post at h
  split at h
  · cases h
    exact .inl ⟨rfl, fun _ hc => nomatch hc⟩
  · rcases postFrom_cases h with ⟨tasks, rfl, -, hc⟩ |
      ⟨command, stored, hread, hnf, hstored, hreply, hcmds⟩
    · exact .inl ⟨rfl, hc⟩
    · -- alone, the request writes over the row it read
      obtain rfl : stored = command := Option.some.inj (hstored.symm.trans hread)
      rw [writeCommand_read (applyReport_type _ _ _) (applyReport_jobstepId _ _ _)] at hcmds hreply
      exact .inr ⟨stored, hread, hnf, hcmds, hreply.elim id id⟩

/-- **The reply is what the request stored.**  Whenever `post` answers with a command, the command it
read was not finished, the reply is the report applied to it, and the request leaves exactly that
command stored in its place: after the commit of line 114 the reply is the row as stored, and after
the return of line 91 the dispatcher commits the command the reply was serialised from. -/
theorem post_reply_is_committed {expanders : Expanders} {buildStep : BuildStep} {s : CommandStore}
    {commandId : CommandId} {args : Report} {env : PostEnv} {c : Command}
    (h : (post expanders buildStep s commandId args env).1 = .command c) :
    ∃ command, s.commands commandId = some command ∧ command.status ≠ .finished ∧
      c = applyReport command args (args.date.getD env.now) ∧
      (post expanders buildStep s commandId args env).2.commands =
        Function.update s.commands commandId (some c) := by
  rcases post_commands (show post expanders buildStep s commandId args env = (_, _) from
      (Prod.eta _).symm) with ⟨-, hc⟩ | ⟨command, hs, hnf, hcmds, hreply⟩
  · exact absurd h (hc c)
  · obtain rfl := Reply.command.inj (h.symm.trans hreply)
    exact ⟨command, hs, hnf, rfl, hcmds⟩

/-! ### A report on a command whose jobstep has failed -/

/-- An expander that accepts any output and yields one descriptor per entry. -/
def listExpander : Expander where
  validate := fun _ => .ok
  expand := fun data _ _ => data.entries.map fun entry => ⟨entry⟩
  defaultPhaseName := "expanded"

/-- Both expander classes as `listExpander`. -/
def listExpanders : Expanders := ⟨listExpander, listExpander⟩

/-- A build step that creates each step in the new phase, queued with the originating step's job. -/
def phaseBuildStep : BuildStep where
  testStatsFrom := none
  createExpandedJobstep := fun jobstep phase _ =>
    { jobstep with phaseId := phase.id, result := .unknown }

/-- Command 0, a `collect_steps` command in progress since time 1, on jobstep 0, which has failed. -/
def failedStepStore : CommandStore where
  commands := fun id =>
    if id = 0 then some ⟨.inProgress, none, some 1, none, .collectSteps, 0⟩ else none
  jobsteps := fun id => if id = 0 then some ⟨0, 0, 0, .failed, some 2⟩ else none
  jobphases := []
  tasks := []
  nextId := 1

/-- The command's final report: finished with return code 0, no output. -/
def finishedReport : Report := ⟨some .finished, some 0, none, none⟩

/-- Command 0 as the final report leaves it: finished at time 5, with return code 0. -/
def failedStepFinished : Command := ⟨.finished, some 0, some 1, some 5, .collectSteps, 0⟩

/-- The final report on command 0 returns at line 91, as its jobstep has failed; it answers with the
command finished at time 5 with return code 0, and the dispatcher stores exactly that command. -/
theorem post_reply_is_committed_failed_step :
    (post listExpanders phaseBuildStep failedStepStore 0 finishedReport ⟨5, none⟩).1 =
        .command failedStepFinished ∧
      ∃ command, failedStepStore.commands 0 = some command ∧ command.status ≠ .finished ∧
        failedStepFinished = applyReport command finishedReport (finishedReport.date.getD 5) ∧
        (post listExpanders phaseBuildStep failedStepStore 0 finishedReport ⟨5, none⟩).2.commands =
          Function.update failedStepStore.commands 0 (some failedStepFinished) :=
  have h : (post listExpanders phaseBuildStep failedStepStore 0 finishedReport ⟨5, none⟩).1 =
      .command failedStepFinished := by decide
  ⟨h, post_reply_is_committed h⟩

end ChangesCI.Api.CommandDetails
