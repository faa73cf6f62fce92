import ChangesCI.Api.CommandDetails

/-!
# Concurrent reports on one command

Reports on a command arrive as concurrent requests.  A request that carries output or finishes the
command first takes the per-command lock `expand:{command_id}` (`redis.lock(..., expire=15,
nowait=True)`, line 52): when another request holds it, `lock.__enter__()` raises and the request
ends.  Every request then reads the command (line 60) and later runs the rest of the view (lines
61-118) as separate steps; the lock, if taken, is released in the `finally` of line 118.  Requests
without output that do not finish the command take no lock, so they interleave freely with the
locked ones.  The lock also expires 15 s after it was taken, whether its holder is done or not: the
expiry is an event of its own, at any point.  After the return of line 91 the APIView's dispatcher
commits the session once the view has returned, so after the lock's release: a third step.

`Reports` holds the store, the locks and the requests (each with its report, its environment and
where it stands); `Reports.next` performs one event, and `Reports.exec` a schedule of them.  The
view's body is `postView` against the store at that point, with the command as the request read
it, and the dispatcher's commit is `dispatchCommit` against the store at its own point.

* `stale_report_reopens_command` — an unlocked request that read the command before a finishing
  request committed writes its status over the finished command;
* `command_expanded_twice` — a repeated finishing report then expands the command again.
-/

namespace ChangesCI.Api.CommandDetails

open ChangesCI.Models

/-- Where a report request stands. -/
inductive RequestPc where
  /-- Lines 47-59: the lock, if the report needs it, then the read of line 60. -/
  | arrived
  /-- Line 60 read `snapshot`; lines 61-120 come next. -/
  | read (snapshot : Option Command)
  /-- The view returned at line 91 with the command read and the report applied; the lock is
  released and the dispatcher's commit comes next. -/
  | responded (snapshot updated : Command)
  /-- The request has answered. -/
  | replied (reply : Reply)
  deriving DecidableEq, Repr

/-- The status of the command a request answered with, if it answered with one. -/
def RequestPc.repliedStatus : RequestPc → Option Status
  | .replied (.command c) => some c.status
  | _ => none

/-- One request: the command it reports on, its report, its environment, and where it stands. -/
structure Request where
  commandId : CommandId
  args : Report
  env : PostEnv
  pc : RequestPc
  deriving DecidableEq, Repr

/-- The store, the holder of each command's expand lock, and the requests. -/
structure Reports where
  store : CommandStore
  locks : CommandId → Option Nat
  requests : List Request

/-- A step of the request at index `i`: its read, the rest of its view, the dispatcher's commit
after the return of line 91; or the expiry of a command's lock. -/
inductive ReportEvent where
  | read (i : Nat)
  | commit (i : Nat)
  | dispatch (i : Nat)
  | expire (commandId : CommandId)
  deriving DecidableEq, Repr

/-- Lines 47-60 for request `i`: a request that may expand takes the lock or, when another holds
it, raises; then `Command.query.get` reads the command, or raises and releases the lock. -/
def Reports.read (sys : Reports) (i : Nat) (r : Request) : Reports :=
  let reply (reply : Reply) := sys.requests.set i { r with pc := .replied reply }
  if r.args.mayExpand ∧ (sys.locks r.commandId).isSome then { sys with requests := reply .raised }
  else if r.env.fault = some .query then { sys with requests := reply .raised }
  else
    { sys with
      locks := if r.args.mayExpand then Function.update sys.locks r.commandId (some i) else sys.locks
      requests := sys.requests.set i { r with pc := .read (sys.store.commands r.commandId) } }

/-- Lines 61-120 for request `i`, which read `snapshot`; the `finally` of line 118 releases the
command's lock. -/
def Reports.commit (expanders : Expanders) (buildStep : BuildStep) (sys : Reports) (i : Nat)
    (r : Request) (snapshot : Option Command) : Reports :=
  let locks := if r.args.mayExpand then Function.update sys.locks r.commandId none else sys.locks
  match postView expanders buildStep sys.store r.commandId snapshot r.args r.env with
  | .done result =>
    { store := result.2, locks, requests := sys.requests.set i { r with pc := .replied result.1 } }
  | .responded command updated =>
    { sys with locks, requests := sys.requests.set i { r with pc := .responded command updated } }

/-- The dispatcher's commit for request `i`, which returned at line 91, against the store at this
point. -/
def Reports.dispatch (sys : Reports) (i : Nat) (r : Request) (command updated : Command) :
    Reports :=
  let result := dispatchCommit sys.store r.commandId command updated r.env.fault
  { sys with store := result.2, requests := sys.requests.set i { r with pc := .replied result.1 } }

/-- One event; `none` when request `i` is not at that point. -/
def Reports.next (expanders : Expanders) (buildStep : BuildStep) (sys : Reports) :
    ReportEvent → Option Reports
  | .read i =>
    match sys.requests[i]? with
    | some r => if r.pc = .arrived then some (sys.read i r) else none
    | none => none
  | .commit i =>
    match sys.requests[i]? with
    | some r =>
      match r.pc with
      | .read snapshot => some (sys.commit expanders buildStep i r snapshot)
      | _ => none
    | none => none
  | .dispatch i =>
    match sys.requests[i]? with
    | some r =>
      match r.pc with
      | .responded command updated => some (sys.dispatch i r command updated)
      | _ => none
    | none => none
  | .expire commandId =>
    if (sys.locks commandId).isSome then
      some { sys with locks := Function.update sys.locks commandId none }
    else none

/-- A schedule of events, run from `sys`. -/
def Reports.exec (expanders : Expanders) (buildStep : BuildStep) (sys : Reports) :
    List ReportEvent → Option Reports
  | [] => some sys
  | e :: es =>
    match sys.next expanders buildStep e with
    | some sys' => sys'.exec expanders buildStep es
    | none => none

/-! ### A stale report and a repeated final report -/

/-- Command 0, a queued `collect_steps` command on jobstep 0, which may run on two executors. -/
def queuedCommandStore : CommandStore where
  commands := fun id => if id = 0 then some ⟨.queued, none, none, none, .collectSteps, 0⟩ else none
  jobsteps := fun id => if id = 0 then some ⟨0, 0, 0, .unknown, some 2⟩ else none
  jobphases := []
  tasks := []
  nextId := 1

/-- The final report of the command, with its output: one step to run. -/
def finishedWithOutput : Report := ⟨some .finished, some 0, none, some ⟨none, ["make test"]⟩⟩

/-- An earlier report that the command started, without output: it takes no lock. -/
def startedReport : Report := ⟨some .inProgress, none, none, none⟩

/-- Request 0 reports the end at time 10, request 1 the start at time 11, request 2 repeats the
final report at time 12 (a client retry). -/
def raceStart : Reports where
  store := queuedCommandStore
  locks := fun _ => none
  requests :=
    [⟨0, finishedWithOutput, ⟨10, none⟩, .arrived⟩, ⟨0, startedReport, ⟨11, none⟩, .arrived⟩,
     ⟨0, finishedWithOutput, ⟨12, none⟩, .arrived⟩]

/-- Request 1 reads the queued command; request 0 takes the lock, reads, expands and commits the
command finished. -/
def raceFinishing : List ReportEvent := [.read 1, .read 0, .commit 0]

def raceFinished : Reports :=
  (raceStart.exec listExpanders phaseBuildStep raceFinishing).getD raceStart

def raceReopened : Reports :=
  (raceFinished.next listExpanders phaseBuildStep (.commit 1)).getD raceStart

/-- Once request 0 has committed the command finished, request 1, which read it queued and holds no
lock, commits and sets its status back to `in_progress` (and its start to time 11). -/
theorem stale_report_reopens_command :
    raceStart.exec listExpanders phaseBuildStep raceFinishing = some raceFinished ∧
      (raceFinished.store.commands 0).map Command.status = some .finished ∧
      raceFinished.next listExpanders phaseBuildStep (.commit 1) = some raceReopened ∧
      (raceReopened.store.commands 0).map (fun c => (c.status, c.dateStarted, c.dateFinished)) =
        some (.inProgress, some 11, some 10) := by
  refine ⟨rfl, by decide, rfl, by decide⟩

def raceEnd : Reports :=
  (raceReopened.exec listExpanders phaseBuildStep [.read 2, .commit 2]).getD raceStart

/-- Request 2 then finds the command in progress, takes the lock and expands it a second time: two
new phases of job 0 are committed, with one step each, and both requests 0 and 2 answered with the
command. -/
theorem command_expanded_twice :
    raceStart.exec listExpanders phaseBuildStep (raceFinishing ++ [.commit 1, .read 2, .commit 2]) =
        some raceEnd ∧
      raceEnd.store.jobphases.map (fun phase => (phase.jobId, phase.status)) =
        [(0, .queued), (0, .queued)] ∧
      raceEnd.store.tasks = [.syncJobStep 2 2 0, .syncJobStep 4 4 0] ∧
      raceEnd.requests.map (fun r => r.pc.repliedStatus) =
        [some .finished, some .inProgress, some .finished] := by
  refine ⟨rfl, by decide, by decide, by decide⟩

end ChangesCI.Api.CommandDetails
