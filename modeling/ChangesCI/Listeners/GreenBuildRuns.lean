import ChangesCI.Listeners.GreenBuild

/-!
# Concurrent green-build handlers

`build_finished_handler` (`changes/listeners/green_build.py`, lines 60-95) runs once per finished
build.  Its `@lock` is keyed by the call's arguments, so runs for different builds of one project
are not serialised.  Each iteration of the loop of lines 172-217 is three steps against the shared
`LatestGreenBuild` table:
* the lookup of the `(project, branch)` row (line 173);
* the ancestry query (lines 182-209);
* the `create_or_update` (lines 212-217).

Nothing re-reads the row between the lookup and the write.

`GreenRuns` holds the table and the runs.  `GreenRuns.next` performs one step of one run, and
`GreenRuns.exec` a schedule of steps.  The handler's checks before line 95 (the build exists, has
passed, is a commit build, and its repository has a VCS) end a run before it touches the table;
the runs here are those of the builds that pass them.

* `exec_alone` — **PROVED**: a run that steps alone writes what `setLatestGreenBuildForEachBranch`
  computes, so this model refines the sequential loop;
* `queriedWrites_of_exec` — **PROVED**: in every reachable state, a run about to write over the row
  it found has had that row's build answered as an ancestor, or as an unknown parent;
* `green_row_change_checked` — **PROVED**: every change of a row is the write of a run of the new
  build.  When that run's lookup found the build the row points to, the old revision is an ancestor
  of the new one, or the VCS does not know it;
* `green_row_regresses` — but a run can write over a row that another run moved after its lookup.
  Two runs both query against build 0 at `r0`; the one at `r1` writes last, over the one at `r2`,
  and the row moves back to an older commit: what the guard of lines 183-186 is there to prevent.
-/

namespace ChangesCI.Listeners.GreenBuild

open ChangesCI.Models

/-- The answers on which the loop moves the row to the build (lines 182-209): `True`, or
`UnknownParentRevision` raised. -/
def IsChildParent.moves : IsChildParent → Bool
  | .child | .unknownParentRevision => true
  | .notChild | .unknownChildRevision => false

/-- Where a handler run stands in the loop of lines 172-217. -/
inductive GreenPc where
  /-- Line 173: the lookup of the row of the next branch. -/
  | lookup (branches : List String)
  /-- Lines 184-209: the ancestry query against the build `current` the lookup found. -/
  | query (branch : String) (branches : List String) (current : BuildId)
  /-- Lines 212-217: the `create_or_update`; `seen` is what the lookup found. -/
  | write (branch : String) (branches : List String) (seen : Option BuildId)
  /-- The loop has ended, or returned. -/
  | done
  deriving DecidableEq, Repr

/-- A passing commit build that reaches line 95: its id, its project, and the branches of its
revision (`source.revision.branches`). -/
structure PassingBuild where
  buildId : BuildId
  projectId : ProjectId
  branches : List String
  deriving DecidableEq, Repr

/-- One handler run: the build it records and where it stands. -/
structure GreenRun where
  buildId : BuildId
  projectId : ProjectId
  pc : GreenPc
  deriving DecidableEq, Repr

/-- The shared table and the runs. -/
structure GreenRuns where
  table : GreenTable
  runs : List GreenRun

/-- The handler runs for `builds`, each at the head of its loop. -/
def GreenRuns.start (table : GreenTable) (builds : List PassingBuild) : GreenRuns :=
  ⟨table, builds.map fun b => ⟨b.buildId, b.projectId, .lookup b.branches⟩⟩

section Runs

variable (vcs : String → String → IsChildParent) (revisionOf : BuildId → String)

/-- One step of run `r` against the table as it is now; `none` when the run has ended.  The child
in question is the revision of the run's own build. -/
def greenStep (table : GreenTable) (r : GreenRun) : Option (GreenTable × GreenPc) :=
  match r.pc with
  | .lookup [] => some (table, .done)
  | .lookup (branch :: branches) =>
    match table r.projectId branch with
    | none => some (table, .write branch branches none)
    | some current => some (table, .query branch branches current)
  | .query branch branches current =>
    match vcs (revisionOf r.buildId) (revisionOf current) with
    | .child | .unknownParentRevision => some (table, .write branch branches (some current))
    | .notChild | .unknownChildRevision => some (table, .done)
  | .write branch branches _ => some (setRow table r.projectId branch r.buildId, .lookup branches)
  | .done => none

/-- One step of the run at index `i`. -/
def GreenRuns.next (sys : GreenRuns) (i : Nat) : Option GreenRuns :=
  match sys.runs[i]? with
  | some r =>
    match greenStep vcs revisionOf sys.table r with
    | some (table, pc) => some ⟨table, sys.runs.set i { r with pc := pc }⟩
    | none => none
  | none => none

/-- A schedule of steps, run from `sys`. -/
def GreenRuns.exec (sys : GreenRuns) : List Nat → Option GreenRuns
  | [] => some sys
  | i :: schedule =>
    match sys.next vcs revisionOf i with
    | some sys' => sys'.exec schedule
    | none => none

/-! ### What one step does -/

/-- A step changes the table only at a write, and only the written row. -/
theorem greenStep_table {table table' : GreenTable} {r : GreenRun} {pc : GreenPc} {p : ProjectId}
    {b : String} (h : greenStep vcs revisionOf table r = some (table', pc))
    (hne : table' p b ≠ table p b) :
    ∃ branches seen, r.pc = .write b branches seen ∧ p = r.projectId ∧
      table' p b = some r.buildId := by
  unfold greenStep at h
  split at h
  · cases h; exact absurd rfl hne
  · split at h <;> cases h <;> exact absurd rfl hne
  · split at h <;> cases h <;> exact absurd rfl hne
  · rename_i branch branches seen hpc
    cases h
    by_cases hrow : p = r.projectId ∧ b = branch
    · obtain ⟨rfl, rfl⟩ := hrow
      exact ⟨branches, seen, hpc, rfl, by simp [setRow]⟩
    · exact absurd (by simp [setRow, hrow]) hne
  · cases h

/-- A run reaches a write over a row it found only through an answer that moves the row. -/
theorem greenStep_write_moves {table table' : GreenTable} {r : GreenRun} {branch : String}
    {branches : List String} {current : BuildId}
    (h : greenStep vcs revisionOf table r = some (table', .write branch branches (some current))) :
    (vcs (revisionOf r.buildId) (revisionOf current)).moves = true := by
  unfold greenStep at h
  split at h
  · cases h
  · split at h <;> cases h
  · rename_i hpc
    split at h <;> rename_i ha <;> cases h <;> simp [ha, IsChildParent.moves]
  · cases h
  · cases h

/-- What `next` does: the run at index `i` takes one step. -/
theorem next_step {sys sys' : GreenRuns} {i : Nat} (h : sys.next vcs revisionOf i = some sys') :
    ∃ r table pc, sys.runs[i]? = some r ∧ greenStep vcs revisionOf sys.table r = some (table, pc) ∧
      sys' = ⟨table, sys.runs.set i { r with pc := pc }⟩ := by
  simp only [GreenRuns.next] at h
  split at h
  · split at h
    · cases h
      exact ⟨_, _, _, ‹_›, ‹_›, rfl⟩
    · cases h
  · cases h

theorem exec_cons_of_next {sys sys' : GreenRuns} {i : Nat} (schedule : List Nat)
    (h : sys.next vcs revisionOf i = some sys') :
    sys.exec vcs revisionOf (i :: schedule) = sys'.exec vcs revisionOf schedule := by
  simp [GreenRuns.exec, h]

/-- A property kept by every step holds after every schedule. -/
theorem exec_induction (P : GreenRuns → Prop)
    (hstep : ∀ {sys sys' : GreenRuns} {i : Nat}, P sys → sys.next vcs revisionOf i = some sys' →
      P sys') :
    ∀ {sys sys' : GreenRuns} {schedule : List Nat}, P sys →
      sys.exec vcs revisionOf schedule = some sys' → P sys'
  | _, _, [], h, hs => by cases hs; exact h
  | sys, _, i :: schedule, h, hs => by
    simp only [GreenRuns.exec] at hs
    split at hs
    · exact exec_induction P hstep (hstep h ‹_›) hs
    · cases hs

/-! ### A run alone is the sequential loop -/

/-- A one-run system takes its run's step, then the rest of the schedule. -/
theorem exec_alone_cons {table table' : GreenTable} {r : GreenRun} {pc : GreenPc}
    (schedule : List Nat) (h : greenStep vcs revisionOf table r = some (table', pc)) :
    (⟨table, [r]⟩ : GreenRuns).exec vcs revisionOf (0 :: schedule) =
      (⟨table', [{ r with pc := pc }]⟩ : GreenRuns).exec vcs revisionOf schedule :=
  exec_cons_of_next vcs revisionOf schedule (by simp [GreenRuns.next, h])

/-- From the head of the loop over `branches`, a run alone reaches the end of its loop with the
table the sequential loop computes. -/
theorem exec_alone_from (buildId : BuildId) (projectId : ProjectId) :
    ∀ (branches : List String) (table : GreenTable), ∃ n,
      (⟨table, [⟨buildId, projectId, .lookup branches⟩]⟩ : GreenRuns).exec vcs revisionOf
          (List.replicate n 0) =
        some ⟨setLatestGreenBuildForEachBranch vcs revisionOf buildId projectId (revisionOf buildId)
          branches table, [⟨buildId, projectId, .done⟩]⟩
  | [], table => ⟨1, exec_alone_cons vcs revisionOf [] rfl⟩
  | branch :: branches, table => by
    obtain ⟨n, hn⟩ :=
      exec_alone_from buildId projectId branches (setRow table projectId branch buildId)
    -- the write moves the row and goes back to the head of the loop
    have written : ∀ seen,
        (⟨table, [⟨buildId, projectId, .write branch branches seen⟩]⟩ : GreenRuns).exec vcs
            revisionOf (List.replicate (n + 1) 0) =
          some ⟨setLatestGreenBuildForEachBranch vcs revisionOf buildId projectId
            (revisionOf buildId) branches (setRow table projectId branch buildId),
            [⟨buildId, projectId, .done⟩]⟩ :=
      fun _ => Eq.trans (exec_alone_cons vcs revisionOf _ rfl) hn
    rcases hrow : table projectId branch with _ | current
    · have noRow : greenStep vcs revisionOf table
          ⟨buildId, projectId, .lookup (branch :: branches)⟩ =
          some (table, .write branch branches none) := by
        simp [greenStep, hrow]
      refine ⟨n + 2, (exec_alone_cons vcs revisionOf _ noRow).trans ?_⟩
      simpa [setLatestGreenBuildForEachBranch, hrow] using written none
    · have found : greenStep vcs revisionOf table
          ⟨buildId, projectId, .lookup (branch :: branches)⟩ =
          some (table, .query branch branches current) := by
        simp [greenStep, hrow]
      cases ha : vcs (revisionOf buildId) (revisionOf current) with
      | child | unknownParentRevision =>
        have moved : greenStep vcs revisionOf table
            ⟨buildId, projectId, .query branch branches current⟩ =
            some (table, .write branch branches (some current)) := by
          simp [greenStep, ha]
        refine ⟨n + 3, (exec_alone_cons vcs revisionOf _ found).trans
          ((exec_alone_cons vcs revisionOf _ moved).trans ?_)⟩
        simpa [setLatestGreenBuildForEachBranch, hrow, ha] using written (some current)
      | notChild | unknownChildRevision =>
        have stopped : greenStep vcs revisionOf table
            ⟨buildId, projectId, .query branch branches current⟩ =
            some (table, .done) := by
          simp [greenStep, ha]
        simp only [setLatestGreenBuildForEachBranch, hrow, ha]
        exact ⟨2, (exec_alone_cons vcs revisionOf _ found).trans
          (exec_alone_cons vcs revisionOf [] stopped)⟩

/-- A run of a passing build that steps alone ends its loop with the table the sequential loop
computes. -/
theorem exec_alone (table : GreenTable) (b : PassingBuild) : ∃ n,
    (GreenRuns.start table [b]).exec vcs revisionOf (List.replicate n 0) =
      some ⟨setLatestGreenBuildForEachBranch vcs revisionOf b.buildId b.projectId
        (revisionOf b.buildId) b.branches table, [⟨b.buildId, b.projectId, .done⟩]⟩ :=
  exec_alone_from vcs revisionOf b.buildId b.projectId b.branches table

/-! ### Every write over a row a run found was checked -/

/-- Every run about to write over a row it found has had that row's build answered as an ancestor
of its own, or as an unknown parent. -/
def GreenRuns.QueriedWrites (sys : GreenRuns) : Prop :=
  ∀ r ∈ sys.runs, ∀ branch branches current, r.pc = .write branch branches (some current) →
    (vcs (revisionOf r.buildId) (revisionOf current)).moves = true

theorem queriedWrites_start (table : GreenTable) (builds : List PassingBuild) :
    (GreenRuns.start table builds).QueriedWrites vcs revisionOf := by
  intro r hr
  obtain ⟨b, -, rfl⟩ := List.mem_map.mp hr
  simp

theorem next_queriedWrites {sys sys' : GreenRuns} {i : Nat} (h : sys.QueriedWrites vcs revisionOf)
    (hs : sys.next vcs revisionOf i = some sys') : sys'.QueriedWrites vcs revisionOf := by
  obtain ⟨r, table, pc, -, hstep, rfl⟩ := next_step vcs revisionOf hs
  intro r' hr' branch branches current hpc
  rcases List.mem_or_eq_of_mem_set hr' with hr' | rfl
  · exact h r' hr' branch branches current hpc
  · -- the stepped run: its new position came out of `greenStep`
    cases hpc
    exact (greenStep_write_moves vcs revisionOf hstep :)

/-- **The invariant over runs.**  In every state reachable from the runs of passing builds, each
run about to write over a row it found was answered against that row's build with `True` or
`UnknownParentRevision`. -/
theorem queriedWrites_of_exec {table : GreenTable} {builds : List PassingBuild}
    {schedule : List Nat} {sys : GreenRuns}
    (hs : (GreenRuns.start table builds).exec vcs revisionOf schedule = some sys) :
    sys.QueriedWrites vcs revisionOf :=
  exec_induction vcs revisionOf _ (next_queriedWrites vcs revisionOf)
    (queriedWrites_start vcs revisionOf table builds) hs

/-- `vcs` answers the ancestry `le` of the revisions it knows: `True` only for a descendant of the
parent in question (or the parent itself), and `UnknownParentRevision` only for a parent it does
not know. -/
structure AnswersAncestry (le : String → String → Prop) (known : String → Prop) : Prop where
  child : ∀ c p, vcs c p = .child → le p c
  unknownParent : ∀ c p, vcs c p = .unknownParentRevision → ¬ known p

theorem AnswersAncestry.of_moves {le : String → String → Prop} {known : String → Prop}
    (h : AnswersAncestry vcs le known) {c p : String} (hm : (vcs c p).moves = true) :
    le p c ∨ ¬ known p := by
  cases ha : vcs c p with
  | child => exact .inl (h.child c p ha)
  | unknownParentRevision => exact .inr (h.unknownParent c p ha)
  | notChild | unknownChildRevision => simp [ha, IsChildParent.moves] at hm

/-- **Which row changes are checked.**  Whatever the schedule of the runs of any passing builds,
every change of a row from build `old` to build `new` is the write of a run of `new` for that
project and branch.  When the run's lookup found `old`, the revision of `old` is an ancestor of the
revision of `new`, or is unknown to the VCS. -/
theorem green_row_change_checked {le : String → String → Prop} {known : String → Prop}
    (hvcs : AnswersAncestry vcs le known) {table : GreenTable} {builds : List PassingBuild}
    {schedule : List Nat} {sys sys' : GreenRuns} {i : Nat}
    (hs : (GreenRuns.start table builds).exec vcs revisionOf schedule = some sys)
    (hi : sys.next vcs revisionOf i = some sys') {p : ProjectId} {b : String} {old new : BuildId}
    (hold : sys.table p b = some old) (hnew : sys'.table p b = some new) (hne : new ≠ old) :
    ∃ r branches seen, sys.runs[i]? = some r ∧ r.pc = .write b branches seen ∧ r.projectId = p ∧
      r.buildId = new ∧
      (seen = some old → le (revisionOf old) (revisionOf new) ∨ ¬ known (revisionOf old)) := by
  obtain ⟨r, table', pc, hr, hstep, rfl⟩ := next_step vcs revisionOf hi
  have changed : table' p b ≠ sys.table p b := by
    rw [hold, show table' p b = some new from hnew]
    exact fun h => hne (Option.some.inj h)
  obtain ⟨branches, seen, hpc, rfl, hw⟩ := greenStep_table vcs revisionOf hstep changed
  obtain rfl : r.buildId = new := Option.some.inj (hw.symm.trans hnew)
  refine ⟨r, branches, seen, hr, hpc, rfl, rfl, ?_⟩
  rintro rfl
  exact AnswersAncestry.of_moves vcs hvcs
    (queriedWrites_of_exec vcs revisionOf hs r (List.getElem?_mem hr) b branches old hpc)

end Runs

/-! ### Two runs that both query against the same old row -/

/-- On the history, `is_child_parent` answers `True` only along the order of the history, and
`UnknownParentRevision` only for a revision outside it. -/
theorem historyVcs_answersAncestry :
    AnswersAncestry historyVcs (fun p c => historyLe p c = true)
      (fun sha => (historyIndex sha).isSome = true) where
  child c p h := by
    rcases hc : historyIndex c with _ | j <;> rcases hp : historyIndex p with _ | i <;>
      simp_all [historyVcs, historyLe]
  unknownParent c p h := by
    rcases hc : historyIndex c with _ | j <;> rcases hp : historyIndex p with _ | i <;>
      simp_all [historyVcs]
    split at h <;> cases h

/-- Project 0's `master` row points to build 0, at `r0`. -/
def masterAtZero : GreenTable := fun p b => if p = 0 ∧ b = "master" then some 0 else none

/-- Builds 1 (at `r2`) and 2 (at `r1`) of project 0, both on `master`. -/
def racingBuilds : List PassingBuild := [⟨1, 0, ["master"]⟩, ⟨2, 0, ["master"]⟩]

/-- Both runs look up `master` and are answered `True` against build 0. -/
def bothQueried : GreenRuns :=
  ((GreenRuns.start masterAtZero racingBuilds).exec historyVcs revisionOfBuild [0, 1, 0, 1]).getD
    ⟨masterAtZero, []⟩

/-- The run of build 1 writes first. -/
def firstWritten : GreenRuns := (bothQueried.next historyVcs revisionOfBuild 0).getD bothQueried

/-- The run of build 2 writes second. -/
def secondWritten : GreenRuns := (firstWritten.next historyVcs revisionOfBuild 1).getD bothQueried

/-- The second write then moves `master` from build 1 (at `r2`) to build 2 (at `r1`), although the
VCS answers that `r1` is not a descendant of `r2`: the run of build 2 was answered against build 0,
which it found before the first write. -/
theorem green_row_regresses :
    (GreenRuns.start masterAtZero racingBuilds).exec historyVcs revisionOfBuild [0, 1, 0, 1, 0] =
        some firstWritten ∧
      firstWritten.table 0 "master" = some 1 ∧
      firstWritten.next historyVcs revisionOfBuild 1 = some secondWritten ∧
      secondWritten.table 0 "master" = some 2 ∧
      historyVcs (revisionOfBuild 2) (revisionOfBuild 1) = .notChild :=
  ⟨rfl, rfl, rfl, rfl, rfl⟩

end ChangesCI.Listeners.GreenBuild
