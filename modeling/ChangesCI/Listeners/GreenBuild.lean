import ChangesCI.Models

/-!
# The green-build tracker: the latest green build of each branch

`_set_latest_green_build_for_each_branch(build, source, vcs)` (`changes/listeners/green_build.py`,
lines 170-217) walks the branches of the build's revision.  For each it looks up the
`LatestGreenBuild` row of `(project, branch)`; with no row it creates one for the build; with a row
it asks `vcs.is_child_parent(child_in_question=source.revision_sha, parent_in_question=<the row's
revision>)` and moves the row to the build when the answer is `True` or `UnknownParentRevision` is
raised.  On `False` and on `UnknownChildRevision` it `return`s: the branches after it are not
visited at all.

* `setLatestGreenBuildForEachBranch` — the loop as the code has it;
* `setLatestGreenBuildForEachBranch_row` — **PROVED**: the rows it moves are exactly those of the
  branches before the first branch whose ancestry answer stops the loop;
* `later_branch_skipped` — so a branch after a non-descendant answer keeps its row even when it has
  none.
-/

namespace ChangesCI.Listeners.GreenBuild

open ChangesCI.Models

/-- What `vcs.is_child_parent(child_in_question, parent_in_question)` does: it answers, or raises
one of the two errors the listener tells apart. -/
inductive IsChildParent where
  | child
  | notChild
  | unknownChildRevision
  | unknownParentRevision
  deriving DecidableEq, Repr

/-- The `latest_green_build` table: the build each `(project_id, branch)` row points to. -/
abbrev GreenTable := ProjectId → String → Option BuildId

/-- `create_or_update(LatestGreenBuild, where={'project_id': ..., 'branch': ...},
values={'build': build})` (lines 212-217). -/
def setRow (table : GreenTable) (projectId : ProjectId) (branch : String) (buildId : BuildId) :
    GreenTable :=
  fun p b => if p = projectId ∧ b = branch then some buildId else table p b

/-- `takeWhile` reads its predicate only on the list's elements. -/
theorem takeWhile_congr_mem {α : Type} {p q : α → Bool} :
    ∀ {l : List α}, (∀ x ∈ l, p x = q x) → l.takeWhile p = l.takeWhile q
  | [], _ => rfl
  | x :: xs, h => by
    simp only [List.takeWhile_cons, h x (List.mem_cons_self x xs),
      takeWhile_congr_mem fun y hy => h y (List.mem_cons_of_mem x hy)]

section Loop

variable (vcs : String → String → IsChildParent) (revisionOf : BuildId → String)
  (buildId : BuildId) (projectId : ProjectId) (revisionSha : String)

/-- The loop of lines 172-217 for the build `buildId` of project `projectId` at `revisionSha`;
`revisionOf` gives the revision of the build a row points to (`build.source.revision_sha`). -/
def setLatestGreenBuildForEachBranch : List String → GreenTable → GreenTable
  | [], table => table
  | branch :: branches, table =>
    match table projectId branch with
    | none => setLatestGreenBuildForEachBranch branches (setRow table projectId branch buildId)
    | some current =>
      match vcs revisionSha (revisionOf current) with
      | .child | .unknownParentRevision =>
        setLatestGreenBuildForEachBranch branches (setRow table projectId branch buildId)
      | .notChild | .unknownChildRevision => table

/-- Whether the loop body moves the row of `branch` to the build and goes on (lines 179-209). -/
def movesRow (table : GreenTable) (branch : String) : Bool :=
  match table projectId branch with
  | none => true
  | some current =>
    match vcs revisionSha (revisionOf current) with
    | .child | .unknownParentRevision => true
    | .notChild | .unknownChildRevision => false

theorem setLatestGreenBuildForEachBranch_cons (branch : String) (branches : List String)
    (table : GreenTable) :
    setLatestGreenBuildForEachBranch vcs revisionOf buildId projectId revisionSha (branch :: branches)
        table =
      if movesRow vcs revisionOf projectId revisionSha table branch then
        setLatestGreenBuildForEachBranch vcs revisionOf buildId projectId revisionSha branches
          (setRow table projectId branch buildId)
      else table := by
  rcases h : table projectId branch with _ | current
  · simp [setLatestGreenBuildForEachBranch, movesRow, h]
  · rcases h' : vcs revisionSha (revisionOf current) <;>
      simp [setLatestGreenBuildForEachBranch, movesRow, h, h']

/-- Setting another branch's row does not change whether the loop moves this one. -/
theorem movesRow_setRow {table : GreenTable} {branch other : String} (h : other ≠ branch) :
    movesRow vcs revisionOf projectId revisionSha (setRow table projectId other buildId) branch =
      movesRow vcs revisionOf projectId revisionSha table branch := by
  simp [movesRow, setRow, Ne.symm h]

/-- **The rows the loop moves.**  For distinct branches, the loop points the row of a branch of the
project to the build exactly when the branch comes before the first branch whose answer stops the
loop; every other row is as it was. -/
theorem setLatestGreenBuildForEachBranch_row {branches : List String} (hd : branches.Nodup)
    (table : GreenTable) (p : ProjectId) (b : String) :
    setLatestGreenBuildForEachBranch vcs revisionOf buildId projectId revisionSha branches table p b =
      if p = projectId ∧ b ∈ branches.takeWhile (movesRow vcs revisionOf projectId revisionSha table)
      then some buildId else table p b := by
  induction branches generalizing table with
  | nil => simp [setLatestGreenBuildForEachBranch]
  | cons branch branches ih =>
      obtain ⟨hnot, hd'⟩ := List.nodup_cons.mp hd
      rw [setLatestGreenBuildForEachBranch_cons]
      by_cases hm : movesRow vcs revisionOf projectId revisionSha table branch
      · -- the later decisions read the table with only this branch's row moved
        have hrest : branches.takeWhile
            (movesRow vcs revisionOf projectId revisionSha (setRow table projectId branch buildId)) =
            branches.takeWhile (movesRow vcs revisionOf projectId revisionSha table) :=
          takeWhile_congr_mem fun other ho =>
            movesRow_setRow vcs revisionOf buildId projectId revisionSha (fun h => hnot (h ▸ ho))
        rw [if_pos hm, ih hd', hrest, List.takeWhile_cons_of_pos hm]
        by_cases hb : b = branch <;> by_cases hp : p = projectId <;> simp [setRow, hb, hp]
      · rw [if_neg hm, List.takeWhile_cons_of_neg hm]
        simp

end Loop

/-! ### A linear history `r0 → r1 → r2` -/

/-- The position of a revision in the history `r0 → r1 → r2`; `none` for a revision the VCS does
not know. -/
def historyIndex (sha : String) : Option Nat :=
  if sha = "r0" then some 0 else if sha = "r1" then some 1 else if sha = "r2" then some 2 else none

/-- `parent` is an ancestor of, or equal to, `child` in the history. -/
def historyLe (parent child : String) : Bool :=
  match historyIndex parent, historyIndex child with
  | some i, some j => i ≤ j
  | _, _ => false

/-- `is_child_parent` on the history: the unknown child is reported first, as git checks the child
before the parent. -/
def historyVcs (child parent : String) : IsChildParent :=
  match historyIndex child, historyIndex parent with
  | none, _ => .unknownChildRevision
  | some _, none => .unknownParentRevision
  | some j, some i => if i ≤ j then .child else .notChild

/-- Builds 0, 1 and 2 are at `r0`, `r2` and `r1`: build 2 is of an older commit than build 1. -/
def revisionOfBuild (buildId : BuildId) : String :=
  if buildId = 1 then "r2" else if buildId = 2 then "r1" else "r0"

/-! ### A branch after a non-descendant answer -/

/-- Project 0's `master` row points to build 1; `release` has no row. -/
def masterOnly : GreenTable := fun p b => if p = 0 ∧ b = "master" then some 1 else none

/-- Build 2 (at `r1`, on `master` and `release`) finishes after build 1 (at `r2`) was recorded on
`master`: `master` answers `False` and the loop returns, so `release`, which has no row, gets none. -/
theorem later_branch_skipped :
    historyVcs "r1" (revisionOfBuild 1) = .notChild ∧ masterOnly 0 "release" = none ∧
      setLatestGreenBuildForEachBranch historyVcs revisionOfBuild 2 0 "r1" ["master", "release"]
        masterOnly 0 "release" = none := by
  decide

end ChangesCI.Listeners.GreenBuild
