import Mathlib.Logic.Relation
import ChangesCI.Listeners.GreenBuildHandler

/-!
# Serial runs of `build_finished_handler`

`handleAll` runs `build_finished_handler` (`changes/listeners/green_build.py`, lines 60-167) for one
build after another, each run on the store the one before left, whether it returned or raised.
Over every sequence of calls, whatever each run meets:

* `serial_handlers_rows_advance` — **PROVED**: a row moves only by moves the VCS checked, which
  `green_row_regresses` shows concurrent runs do not keep;
* `serial_handlers_row_newest` — **PROVED**: on a linear history whose revisions the VCS knows,
  every row a run's loop reached points from then on to a build at least as new as the run's build.
  The loop does not reach the branches after the one it stopped at (`later_branch_skipped`).
-/

namespace ChangesCI.Listeners.GreenBuild

open ChangesCI.Models

/-! ### The store along serial runs -/

section Calls

variable (vcs : String → String → IsChildParent)

theorem handleAll_append (s : GreenStore) (calls calls' : List HandlerCall) :
    handleAll vcs s (calls ++ calls') = handleAll vcs (handleAll vcs s calls) calls' := by
  induction calls generalizing s with
  | nil => rfl
  | cons call calls ih => exact ih _

theorem handleAll_builds :
    ∀ (s : GreenStore) (calls : List HandlerCall), (handleAll vcs s calls).builds = s.builds
  | _, [] => rfl
  | s, call :: calls => (handleAll_builds _ calls).trans
      (buildFinishedHandler_step vcs s call.buildId call.ctx call.env).builds

/-- The calls of a sequence, cut at call `i`. -/
theorem handleAll_split (s : GreenStore) {calls : List HandlerCall} {i : Nat}
    (hlt : i < calls.length) :
    handleAll vcs s calls =
      handleAll vcs (handlerStore (buildFinishedHandler vcs (handleAll vcs s (calls.take i))
        calls[i].buildId calls[i].ctx calls[i].env)) (calls.drop (i + 1)) := by
  have hsplit := handleAll_append vcs s (calls.take i) (calls.drop i)
  rw [List.take_append_drop] at hsplit
  rw [hsplit, List.drop_eq_getElem_cons hlt, handleAll]

end Calls

theorem checkedBuild_congr {s s' : GreenStore} (h : s'.builds = s.builds) (buildId : BuildId)
    (ctx : BuildContext) : checkedBuild s' buildId ctx = checkedBuild s buildId ctx := by
  unfold checkedBuild
  rw [h]

/-! ### A row moves only along checked ancestry -/

/-- A move of a row from build `old` to build `new` that the VCS checked: it answered the revision
of `old` as an ancestor of that of `new`, or does not know the revision of `old`. -/
def CheckedMove (le : String → String → Prop) (known : String → Prop)
    (revisionOf : BuildId → String) (old new : BuildId) : Prop :=
  le (revisionOf old) (revisionOf new) ∨ ¬ known (revisionOf old)

section Advance

variable (vcs : String → String → IsChildParent) {le : String → String → Prop}
  {known : String → Prop}

theorem movesRow_of_some (revisionOf : BuildId → String) (projectId : ProjectId)
    (revisionSha : String) {table : GreenTable} {branch : String} {current : BuildId}
    (hrow : table projectId branch = some current) :
    movesRow vcs revisionOf projectId revisionSha table branch =
      (vcs revisionSha (revisionOf current)).moves := by
  simp only [movesRow, hrow]
  cases vcs revisionSha (revisionOf current) <;> rfl

/-- The loop moves a row it finds only to its own build, and only on a checked answer. -/
theorem setLatestGreenBuildForEachBranch_advance (hvcs : AnswersAncestry vcs le known)
    (revisionOf : BuildId → String) (buildId : BuildId) (projectId : ProjectId) (p : ProjectId)
    (b : String) :
    ∀ (branches : List String) (table : GreenTable) (old : BuildId), table p b = some old →
      ∃ new, setLatestGreenBuildForEachBranch vcs revisionOf buildId projectId (revisionOf buildId)
          branches table p b = some new ∧
        Relation.ReflTransGen (CheckedMove le known revisionOf) old new
  | [], _, old, hold => ⟨old, hold, .refl⟩
  | branch :: branches, table, old, hold => by
    rw [setLatestGreenBuildForEachBranch_cons]
    by_cases hm : movesRow vcs revisionOf projectId (revisionOf buildId) table branch
    · rw [if_pos hm]
      by_cases hrow : p = projectId ∧ b = branch
      · -- the row of this branch moves to the build, on an answer the VCS checked
        obtain ⟨hp, hb⟩ := hrow
        rw [hp, hb] at hold
        have hmove : CheckedMove le known revisionOf old buildId :=
          AnswersAncestry.of_moves vcs hvcs (movesRow_of_some vcs revisionOf projectId _ hold ▸ hm)
        obtain ⟨new, hnew, hchain⟩ := setLatestGreenBuildForEachBranch_advance hvcs revisionOf
          buildId projectId p b branches (setRow table projectId branch buildId) buildId
          (by simp [setRow, hp, hb])
        exact ⟨new, hnew, .head hmove hchain⟩
      · exact setLatestGreenBuildForEachBranch_advance hvcs revisionOf buildId projectId p b
          branches _ old (by simp [setRow, hrow, hold])
    · rw [if_neg hm]
      exact ⟨old, hold, .refl⟩

theorem buildFinishedHandler_advance (hvcs : AnswersAncestry vcs le known) (s : GreenStore)
    (buildId : BuildId) (ctx : BuildContext) (env : HandlerEnv) {p : ProjectId} {b : String}
    {old : BuildId} (hold : s.table p b = some old) :
    ∃ new, (handlerStore (buildFinishedHandler vcs s buildId ctx env)).table p b = some new ∧
      Relation.ReflTransGen (CheckedMove le known s.revisionOf) old new := by
  rcases (buildFinishedHandler_step vcs s buildId ctx env).table with h | ⟨build, -, h⟩
  · exact ⟨old, h ▸ hold, .refl⟩
  · rw [h]
    exact setLatestGreenBuildForEachBranch_advance vcs hvcs s.revisionOf buildId build.projectId p b
      _ _ old hold

/-- **Serial handler runs never move a row backwards.**  When the handler runs for one build after
another, each on the store the one before left (returned or raised), a row of the
`latest_green_build` table that points to build `old` points at the end to a build `new` reached
from `old` by a chain of moves, each to a build whose revision the VCS answered as a descendant of
the one before, or past a revision the VCS does not know. -/
theorem serial_handlers_rows_advance (hvcs : AnswersAncestry vcs le known) :
    ∀ (s : GreenStore) (calls : List HandlerCall) {p : ProjectId} {b : String} {old : BuildId},
      s.table p b = some old →
        ∃ new, (handleAll vcs s calls).table p b = some new ∧
          Relation.ReflTransGen (CheckedMove le known s.revisionOf) old new
  | _, [], _, _, old, hold => ⟨old, hold, .refl⟩
  | s, call :: calls, _, _, _, hold => by
    obtain ⟨mid, hmid, hfirst⟩ :=
      buildFinishedHandler_advance vcs hvcs s call.buildId call.ctx call.env hold
    obtain ⟨new, hnew, hrest⟩ := serial_handlers_rows_advance hvcs _ calls hmid
    rw [revisionOf_congr (buildFinishedHandler_step vcs s call.buildId call.ctx call.env).builds]
      at hrest
    exact ⟨new, hnew, hfirst.trans hrest⟩

end Advance

/-- Build `buildId` of project 0, passed, on `master` at the revision `revisionOfBuild` gives it. -/
def historyBuild (buildId : BuildId) : Build :=
  ⟨.finished, .passed, 0, none, none, ⟨revisionOfBuild buildId, ["master"]⟩⟩

/-- The builds of the history, with project 0's `master` row at build 0, no event and no post. -/
def historyStore : GreenStore := ⟨fun buildId => some (historyBuild buildId), [], masterAtZero,
  fun _ => none, []⟩

/-- A commit build of a git repository with a VCS, whose revision is on every branch asked. -/
def commitContext : BuildContext := ⟨true, true, .git, "server", "", "", "", 0, "", fun _ => true⟩

/-- An up-to-date checkout and no `GREEN_BUILD_URL`. -/
def quietEnv : HandlerEnv := ⟨⟨true, .ok, .ok, .ok⟩, none, none, ⟨none, none, 0⟩, id, .ok, false, 0⟩

/-- Build 2 (at `r1`) and then build 1 (at `r2`) run from `master` at build 0. -/
theorem serial_handlers_rows_advance_history :
    historyStore.table 0 "master" = some 0 ∧
      ∃ new, (handleAll historyVcs historyStore
          [⟨2, commitContext, quietEnv⟩, ⟨1, commitContext, quietEnv⟩]).table 0 "master" = some new ∧
        Relation.ReflTransGen (CheckedMove (fun p c => historyLe p c = true)
          (fun sha => (historyIndex sha).isSome = true) historyStore.revisionOf) 0 new :=
  ⟨by decide, serial_handlers_rows_advance historyVcs historyVcs_answersAncestry historyStore _
    (by decide)⟩

/-! ### On a linear history, a reached row is at least as new as the run's build -/

/-- `vcs` answers on a linear history: `le` is a preorder, `True` and `UnknownParentRevision` are
answered as `AnswersAncestry` says, `False` only when the child in question is an ancestor of the
parent in question, and `UnknownChildRevision` only for a child the VCS does not know. -/
structure AnswersLinear (vcs : String → String → IsChildParent) (le : String → String → Prop)
    (known : String → Prop) extends AnswersAncestry vcs le known : Prop where
  notChild : ∀ c p, vcs c p = .notChild → le c p
  unknownChild : ∀ c p, vcs c p = .unknownChildRevision → ¬ known c
  refl : ∀ x, le x x
  trans : ∀ x y z, le x y → le y z → le x z

/-- The branches the loop of lines 172-217 reaches: those whose row it moves, and the one whose
answer makes it return. -/
def reachedBranches (vcs : String → String → IsChildParent) (revisionOf : BuildId → String)
    (buildId : BuildId) (projectId : ProjectId) : GreenTable → List String → List String
  | _, [] => []
  | table, branch :: branches =>
    if movesRow vcs revisionOf projectId (revisionOf buildId) table branch then
      branch :: reachedBranches vcs revisionOf buildId projectId
        (setRow table projectId branch buildId) branches
    else [branch]

/-- The row of `(p, b)` points to a build at least as new as `buildId`. -/
def AtLeastAsNew (le : String → String → Prop) (revisionOf : BuildId → String) (table : GreenTable)
    (p : ProjectId) (b : String) (buildId : BuildId) : Prop :=
  ∃ new, table p b = some new ∧ le (revisionOf buildId) (revisionOf new)

section Newest

variable {vcs : String → String → IsChildParent} {le : String → String → Prop}
  {known : String → Prop} {revisionOf : BuildId → String}

/-- With every build's revision known, a chain of checked moves goes to a build at least as new. -/
theorem AnswersLinear.le_of_chain (hlin : AnswersLinear vcs le known)
    (hknown : ∀ buildId, known (revisionOf buildId)) {a b : BuildId}
    (h : Relation.ReflTransGen (CheckedMove le known revisionOf) a b) :
    le (revisionOf a) (revisionOf b) := by
  induction h with
  | refl => exact hlin.refl _
  | tail _ hmove ih => exact hlin.trans _ _ _ ih (hmove.resolve_right fun h => h (hknown _))

/-- A row at least as new as a build stays so along checked moves. -/
theorem AtLeastAsNew.of_chain (hlin : AnswersLinear vcs le known)
    (hknown : ∀ buildId, known (revisionOf buildId)) {table table' : GreenTable} {p : ProjectId}
    {b : String} {buildId : BuildId} (h : AtLeastAsNew le revisionOf table p b buildId)
    (hmoves : ∀ old, table p b = some old → ∃ new, table' p b = some new ∧
      Relation.ReflTransGen (CheckedMove le known revisionOf) old new) :
    AtLeastAsNew le revisionOf table' p b buildId :=
  let ⟨old, hold, hle⟩ := h
  let ⟨new, hnew, hchain⟩ := hmoves old hold
  ⟨new, hnew, hlin.trans _ _ _ hle (hlin.le_of_chain hknown hchain)⟩

/-- Every row the loop reaches ends at least as new as the loop's build. -/
theorem reachedBranches_atLeastAsNew (hlin : AnswersLinear vcs le known)
    (hknown : ∀ buildId, known (revisionOf buildId)) (buildId : BuildId) (projectId : ProjectId) :
    ∀ (branches : List String) (table : GreenTable) {b : String},
      b ∈ reachedBranches vcs revisionOf buildId projectId table branches →
        AtLeastAsNew le revisionOf (setLatestGreenBuildForEachBranch vcs revisionOf buildId
          projectId (revisionOf buildId) branches table) projectId b buildId
  | [], _, _, hb => absurd hb (List.not_mem_nil _)
  | branch :: branches, table, b, hb => by
    rw [setLatestGreenBuildForEachBranch_cons]
    rw [reachedBranches] at hb
    by_cases hm : movesRow vcs revisionOf projectId (revisionOf buildId) table branch
    · rw [if_pos hm] at hb ⊢
      rcases List.mem_cons.mp hb with rfl | hb
      · -- the row now points to the build, and the rest of the loop keeps it at least as new
        exact AtLeastAsNew.of_chain hlin hknown ⟨buildId, by simp [setRow], hlin.refl _⟩
          (setLatestGreenBuildForEachBranch_advance vcs hlin.toAnswersAncestry revisionOf buildId
            projectId projectId b branches _)
      · exact reachedBranches_atLeastAsNew hlin hknown buildId projectId branches _ hb
    · rw [if_neg hm] at hb ⊢
      obtain rfl := List.mem_singleton.mp hb
      -- the loop returns at this branch: its row holds a build the VCS answered as no older
      rcases hrow : table projectId b with _ | current
      · simp [movesRow, hrow] at hm
      · rw [movesRow_of_some vcs revisionOf projectId _ hrow] at hm
        refine ⟨current, hrow, ?_⟩
        cases ha : vcs (revisionOf buildId) (revisionOf current) with
        | notChild => exact hlin.notChild _ _ ha
        | unknownChildRevision => exact absurd (hknown buildId) (hlin.unknownChild _ _ ha)
        | child | unknownParentRevision => simp [ha, IsChildParent.moves] at hm

/-- A run of a build that passes the checks, with its checkout up to date, leaves every row its
loop reached at least as new as the build. -/
theorem buildFinishedHandler_reached (hlin : AnswersLinear vcs le known)
    (hknown : ∀ buildId, known (revisionOf buildId)) {s : GreenStore}
    (hrev : s.revisionOf = revisionOf) {buildId : BuildId} {ctx : BuildContext} {env : HandlerEnv}
    {build : Build} (hb : checkedBuild s buildId ctx = some build)
    (hok : ensureLatest env.checkout = true) {branch : String}
    (hr : branch ∈ reachedBranches vcs revisionOf buildId build.projectId s.table
      build.source.branches) :
    AtLeastAsNew le revisionOf (handlerStore (buildFinishedHandler vcs s buildId ctx env)).table
      build.projectId branch buildId := by
  subst hrev
  rw [buildFinishedHandler_table_of_checked vcs s buildId ctx env hb hok]
  exact reachedBranches_atLeastAsNew hlin hknown buildId build.projectId build.source.branches _ hr

/-- Serial runs keep a row at least as new as a build. -/
theorem handleAll_atLeastAsNew (hlin : AnswersLinear vcs le known)
    (hknown : ∀ buildId, known (revisionOf buildId)) {p : ProjectId} {b : String}
    {buildId : BuildId} :
    ∀ (s : GreenStore) (calls : List HandlerCall), s.revisionOf = revisionOf →
      AtLeastAsNew le revisionOf s.table p b buildId →
        AtLeastAsNew le revisionOf (handleAll vcs s calls).table p b buildId
  | _, [], _, h => h
  | s, call :: calls, hrev, h =>
    handleAll_atLeastAsNew hlin hknown _ calls
      ((revisionOf_congr (buildFinishedHandler_step vcs s call.buildId call.ctx call.env).builds).trans
        hrev)
      (AtLeastAsNew.of_chain hlin hknown h fun _ hold => hrev ▸
        buildFinishedHandler_advance vcs hlin.toAnswersAncestry s call.buildId call.ctx call.env hold)

end Newest

/-- **Serial runs keep each reached row at the newest build.**  On a linear history whose
revisions the VCS knows, when the handler runs for one build after another (returned or raised):
for the run of call `i`, of a build that passes the checks and whose checkout comes up to date,
every branch its loop reached has, at the end of all the calls, its row at a build whose revision
is at least as new as that build's. -/
theorem serial_handlers_row_newest {vcs : String → String → IsChildParent}
    {le : String → String → Prop} {known : String → Prop} (hlin : AnswersLinear vcs le known)
    (s : GreenStore) (hknown : ∀ buildId, known (s.revisionOf buildId)) (calls : List HandlerCall)
    {i : Nat} {call : HandlerCall} (hi : calls[i]? = some call) {build : Build}
    (hb : checkedBuild s call.buildId call.ctx = some build)
    (hok : ensureLatest call.env.checkout = true) {branch : String}
    (hr : branch ∈ reachedBranches vcs s.revisionOf call.buildId build.projectId
      (handleAll vcs s (calls.take i)).table build.source.branches) :
    ∃ new, (handleAll vcs s calls).table build.projectId branch = some new ∧
      le (s.revisionOf call.buildId) (s.revisionOf new) := by
  obtain ⟨hlt, rfl⟩ := List.getElem?_eq_some_iff.mp hi
  -- call `i` runs on a store with the builds of `s`
  have hbuilds := handleAll_builds vcs s (calls.take i)
  rw [handleAll_split vcs s hlt]
  exact handleAll_atLeastAsNew hlin hknown _ _
    ((revisionOf_congr (buildFinishedHandler_step vcs _ _ _ _).builds).trans
      (revisionOf_congr hbuilds))
    (buildFinishedHandler_reached hlin hknown (revisionOf_congr hbuilds)
      (by rwa [checkedBuild_congr hbuilds]) hok hr)

/-- The position of a revision in the history `r0 → r1 → r2`, and `0` for one outside it. -/
def historyRank (sha : String) : Nat := (historyIndex sha).getD 0

/-- On the history, `is_child_parent` answers along the order of the positions. -/
theorem historyVcs_answersLinear :
    AnswersLinear historyVcs (fun p c => historyRank p ≤ historyRank c)
      (fun sha => (historyIndex sha).isSome = true) where
  child c p h := by
    rcases hc : historyIndex c with _ | j <;> rcases hp : historyIndex p with _ | i <;>
      simp_all [historyVcs, historyRank]
  unknownParent c p h := by
    rcases hc : historyIndex c with _ | j <;> rcases hp : historyIndex p with _ | i <;>
      simp_all [historyVcs]
    split at h <;> cases h
  notChild c p h := by
    rcases hc : historyIndex c with _ | j <;> rcases hp : historyIndex p with _ | i <;>
      simp_all [historyVcs, historyRank]
    omega
  unknownChild c p h := by
    rcases hc : historyIndex c with _ | j <;> rcases hp : historyIndex p with _ | i <;>
      simp_all [historyVcs]
    split at h <;> cases h
  refl _ := Nat.le_refl _
  trans _ _ _ := Nat.le_trans

/-- The VCS knows the revision of every build of the history. -/
theorem historyStore_known : ∀ buildId, (historyIndex (historyStore.revisionOf buildId)).isSome := by
  intro buildId
  simp only [GreenStore.revisionOf, historyStore, historyBuild, Option.map_some', Option.getD_some,
    revisionOfBuild]
  split_ifs <;> rfl

/-- Build 2 (at `r1`) runs first and reaches `master`; build 1 (at `r2`) runs after it. -/
theorem serial_handlers_row_newest_history :
    checkedBuild historyStore 2 commitContext = some (historyBuild 2) ∧
      ensureLatest quietEnv.checkout = true ∧
      "master" ∈ reachedBranches historyVcs historyStore.revisionOf 2 0 historyStore.table
        ["master"] ∧
      ∃ new, (handleAll historyVcs historyStore
          [⟨2, commitContext, quietEnv⟩, ⟨1, commitContext, quietEnv⟩]).table 0 "master" = some new ∧
        historyRank (historyStore.revisionOf 2) ≤ historyRank (historyStore.revisionOf new) :=
  ⟨rfl, rfl, by decide,
    serial_handlers_row_newest historyVcs_answersLinear historyStore historyStore_known
      [⟨2, commitContext, quietEnv⟩, ⟨1, commitContext, quietEnv⟩] (i := 0) rfl
      (show checkedBuild historyStore 2 commitContext = some (historyBuild 2) from rfl) rfl
      (by decide)⟩

end ChangesCI.Listeners.GreenBuild
