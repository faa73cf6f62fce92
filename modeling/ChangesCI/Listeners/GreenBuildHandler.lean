import Mathlib.Logic.Relation
import ChangesCI.Listeners.GreenBuildRuns

/-!
# `build_finished_handler`: the checks, the table, and the green-build notification

`build_finished_handler(build_id)` (`changes/listeners/green_build.py`, lines 60-167) returns early
for a build that is missing, did not pass, is not a commit build, or whose repository has no VCS;
brings the checkout up to date; runs the loop of `_set_latest_green_build_for_each_branch`; and then,
when the application and the project are configured for it, posts a green-build notification and
records its outcome as the build's `green_build` event, in a `create_or_update` after the post that
can itself raise.  Logging is outside the model, and so is the post's `timeout=10`; an exception
that leaves the handler keeps the rows written before it, as `create_or_update` writes them at
once, and the posts already made.

* `getOptions` — `get_options` (lines 30-40), a `dict` of the project's option rows;
* `branchNames` — `filter(bool, options.get('build.branch-names', '*').split(' '))` (line 114), over
  `splitSpace`, Python's `str.split(' ')`;
* `getReleaseId` — `get_release_id` (lines 43-57);
* `buildFinishedHandler` — the handler over `GreenStore`; `handleAll` runs calls one after another;
* `buildFinishedHandler_step` — what one run can do to the store (`HandlerStep`);
* `buildFinishedHandler_runs` — **PROVED**: for a build that passes the checks, the handler leaves
  the table its run of `GreenRuns`, stepping alone, ends with;
* `branch_names_round_trip` — **PROVED**: every branch name read from the option is non-empty and
  has no space, and names joined by single spaces are read back as they were.
-/

namespace ChangesCI.Listeners.GreenBuild

open ChangesCI.Models

/-! ### `get_options` -/

/-- A `project_option` row. -/
structure ProjectOption where
  projectId : ProjectId
  name : String
  value : String
  deriving DecidableEq, Repr

/-- The names `get_options` asks for (lines 36-38). -/
def optionNames : List String := ["green-build.notify", "green-build.project", "build.branch-names"]

/-- `get_options(project_id)`: the project's rows of the three names, as a `dict`; of two rows of one
name the later overrides the earlier, as `dict()` does. -/
def getOptions (rows : List ProjectOption) (projectId : ProjectId) (name : String) : Option String :=
  ((rows.filter fun row => row.projectId = projectId ∧ row.name ∈ optionNames).reverse.find?
    fun row => row.name = name).map ProjectOption.value

/-! ### The branch names of the option -/

/-- `str.split(' ')` on the characters of a string: the pieces between single spaces, with an empty
piece between two spaces in a row and at a leading or trailing space. -/
def splitSpace (cs : List Char) : List (List Char) := go cs []
where
  /-- The loop, with the current piece reversed in `acc`. -/
  go : List Char → List Char → List (List Char)
    | [], acc => [acc.reverse]
    | c :: cs, acc => if c = ' ' then acc.reverse :: go cs [] else go cs (c :: acc)

/-- `filter(bool, value.split(' '))`: the non-empty pieces. -/
def branchNames (value : String) : List String :=
  ((splitSpace value.toList).filter fun piece => !piece.isEmpty).map String.mk

/-- A run of characters without a space goes to the current piece. -/
theorem splitSpace_go_append :
    ∀ (p : List Char), (∀ c ∈ p, c ≠ ' ') →
      ∀ (rest acc : List Char), splitSpace.go (p ++ rest) acc = splitSpace.go rest (p.reverse ++ acc)
  | [], _, rest, acc => rfl
  | c :: p, h, rest, acc => by
    rw [List.cons_append, splitSpace.go, if_neg (h c (List.mem_cons_self c p)),
      splitSpace_go_append p (fun x hx => h x (List.mem_cons_of_mem c hx)) rest (c :: acc)]
    simp

/-- Splitting on single spaces undoes joining pieces without spaces by single spaces. -/
theorem splitSpace_join :
    ∀ (p : List Char) (ps : List (List Char)), (∀ c ∈ p, c ≠ ' ') → (∀ q ∈ ps, ∀ c ∈ q, c ≠ ' ') →
      splitSpace (p ++ ps.flatMap (' ' :: ·)) = p :: ps
  | p, [], hp, _ => by
    simp only [splitSpace, List.flatMap_nil]
    rw [splitSpace_go_append p hp [] []]
    simp [splitSpace.go]
  | p, q :: qs, hp, hq => by
    have hrest := splitSpace_join q qs (hq q (List.mem_cons_self q qs))
      (fun x hx => hq x (List.mem_cons_of_mem q hx))
    simp only [splitSpace] at hrest ⊢
    rw [List.flatMap_cons, List.cons_append, splitSpace_go_append p hp, splitSpace.go, if_pos rfl,
      hrest]
    simp

/-- Every piece of a split has no space. -/
theorem splitSpace_go_no_space :
    ∀ (cs acc : List Char), (∀ c ∈ acc, c ≠ ' ') → ∀ piece ∈ splitSpace.go cs acc, ∀ c ∈ piece, c ≠ ' '
  | [], acc, hacc, piece, hp => by
    simp only [splitSpace.go, List.mem_singleton] at hp
    subst hp
    simpa using hacc
  | c :: cs, acc, hacc, piece, hp => by
    simp only [splitSpace.go] at hp
    split at hp
    · rcases List.mem_cons.mp hp with rfl | hp
      · simpa using hacc
      · exact splitSpace_go_no_space cs [] (by simp) piece hp
    · exact splitSpace_go_no_space cs (c :: acc)
        (fun x hx => (List.mem_cons.mp hx).elim (· ▸ ‹_›) (hacc x)) piece hp

/-- `String.intercalate` as a list of characters. -/
theorem intercalate_go_toList (s : String) :
    ∀ (acc : String) (names : List String),
      (String.intercalate.go acc s names).toList =
        acc.toList ++ names.flatMap (s.toList ++ ·.toList)
  | acc, [] => by simp [String.intercalate.go]
  | acc, name :: names => by
    rw [String.intercalate.go, intercalate_go_toList s _ names]
    simp [String.toList, String.append]

/-- Every name `filter(bool, value.split(' '))` reads is non-empty and has no space. -/
theorem mem_branchNames {value name : String} (h : name ∈ branchNames value) :
    name ≠ "" ∧ ' ' ∉ name.toList := by
  simp only [branchNames, List.mem_map, List.mem_filter] at h
  obtain ⟨piece, ⟨hp, hne⟩, rfl⟩ := h
  refine ⟨fun he => by simp [show piece = [] from congrArg String.data he] at hne, fun hs => ?_⟩
  exact splitSpace_go_no_space value.toList [] (by simp) piece hp ' ' hs rfl

/-- Names that are non-empty and have no space, joined by single spaces, are read back in order. -/
theorem branchNames_intercalate :
    ∀ {names : List String}, (∀ name ∈ names, name ≠ "" ∧ ' ' ∉ name.toList) →
      branchNames (" ".intercalate names) = names
  | [], _ => rfl
  | name :: names, h => by
    have hpieces : (" ".intercalate (name :: names)).toList =
        name.toList ++ (names.map String.toList).flatMap (' ' :: ·) := by
      rw [String.intercalate, intercalate_go_toList]
      simp [List.flatMap_map]
    have hsp : ∀ n ∈ name :: names, ∀ c ∈ n.toList, c ≠ ' ' :=
      fun n hn c hc hsp => (h n hn).2 (hsp ▸ hc)
    -- every piece is a name, and none is empty
    have hne : ∀ n ∈ name :: names, !n.toList.isEmpty := by
      rintro ⟨cs⟩ hn
      simpa [String.toList] using fun hd => (h _ hn).1 (by rw [hd])
    have hid : (String.mk ∘ String.toList) = id := funext fun _ => rfl
    rw [branchNames, hpieces, splitSpace_join _ _ (hsp name (List.mem_cons_self _ _))
      (by simpa using fun n hn => hsp n (List.mem_cons_of_mem _ hn)),
      List.filter_eq_self.mpr (by simpa using hne)]
    simp only [List.map_cons, List.map_map, hid, List.map_id]
    rfl

/-- **The branch names of the option round-trip.**  Every name `filter(bool, value.split(' '))` reads
is non-empty and has no space; and names of that kind joined by single spaces are read back as they
were, in order. -/
theorem branch_names_round_trip :
    (∀ value name, name ∈ branchNames value → name ≠ "" ∧ ' ' ∉ name.toList) ∧
      ∀ names : List String, (∀ name ∈ names, name ≠ "" ∧ ' ' ∉ name.toList) →
        branchNames (" ".intercalate names) = names :=
  ⟨fun _ _ => mem_branchNames, fun _ => branchNames_intercalate⟩

/-! ### `get_release_id` -/

/-- `RepositoryBackend`: the two backends `get_release_id` tells apart, and any other. -/
inductive RepositoryBackend where
  | unknown
  | git
  | hg
  deriving DecidableEq, Repr

/-- What `get_release_id` reads from outside the store: what `vcs.run` prints for `hg log` and for
`git rev-list --count` (`none` when the command raises), and `time()`. -/
structure ReleaseEnv where
  hgLog : Option String
  revListCount : Option String
  time : Nat
  deriving DecidableEq, Repr

/-- `get_release_id(source, vcs)` (lines 43-57); `none` when `vcs.run` raises. -/
def getReleaseId (backend : RepositoryBackend) (revisionSha : String) (env : ReleaseEnv) :
    Option String :=
  match backend with
  | .hg => env.hgLog
  | .git => env.revListCount.map fun counter => counter.trim ++ ":" ++ revisionSha
  | .unknown => some (toString env.time ++ ":" ++ revisionSha)

/-! ### The store and the outside world of a run -/

/-- What one VCS call of lines 85-92 does. -/
inductive VcsCall where
  | ok
  | concurrentUpdateError
  | raised
  deriving DecidableEq, Repr

/-- The checkout of the build's repository: whether `vcs.exists()`, and what the first and second
`vcs.update()` and `vcs.clone()` do. -/
structure Checkout where
  present : Bool
  firstUpdate : VcsCall
  secondUpdate : VcsCall
  clone : VcsCall
  deriving DecidableEq, Repr

/-- Lines 85-92: update an existing checkout, a second time on `ConcurrentUpdateError`, or clone a
missing one; `false` when an exception leaves the handler. -/
def ensureLatest (checkout : Checkout) : Bool :=
  if checkout.present then
    match checkout.firstUpdate with
    | .ok => true
    | .concurrentUpdateError => checkout.secondUpdate == .ok
    | .raised => false
  else checkout.clone == .ok

/-- What `requests.post(...).raise_for_status()` does (lines 124-157). -/
inductive PostOutcome where
  | ok
  | httpError
  | raised
  deriving DecidableEq, Repr

/-- The `status` the handler records for a post (lines 152-157). -/
def PostOutcome.status : PostOutcome → String
  | .ok => "success"
  | .httpError | .raised => "fail"

/-- The form of the green-build request (lines 125-135). -/
structure GreenBuildRequest where
  project : String
  id : String
  buildUrl : String
  buildServer : String
  authorName : String
  authorEmail : String
  commitTimestamp : Nat
  revisionMessage : String
  deriving DecidableEq, Repr

/-- A post the handler made for a build: the URL, the auth, the form and what the post did. -/
structure GreenBuildPost where
  buildId : BuildId
  url : String
  auth : String
  data : GreenBuildRequest
  outcome : PostOutcome
  deriving DecidableEq, Repr

/-- The `event` row of type `green_build` of a build: `data['status']` and `date_modified`. -/
structure GreenBuildEvent where
  status : String
  dateModified : Nat
  deriving DecidableEq, Repr

/-- What the handler reads and writes: the `build` rows, the `project_option` rows, the
`latest_green_build` table, the `green_build` events, and the posts made so far, oldest first. -/
structure GreenStore where
  builds : BuildId → Option Build
  options : List ProjectOption
  table : GreenTable
  events : BuildId → Option GreenBuildEvent
  posts : List GreenBuildPost

/-- `build.source.revision_sha` of a build of the store. -/
def GreenStore.revisionOf (s : GreenStore) (buildId : BuildId) : String :=
  ((s.builds buildId).map fun build => build.source.revisionSha).getD ""

/-- `create_or_update(Event, where={'type': EventType.green_build, 'item_id': build.id}, ...)`
(lines 159-167). -/
def setEvent (events : BuildId → Option GreenBuildEvent) (buildId : BuildId)
    (event : GreenBuildEvent) : BuildId → Option GreenBuildEvent :=
  fun id => if id = buildId then some event else events id

/-- What the handler reads of a build beyond its row: `build_type.is_any_commit_build(build)`,
whether `source.repository.get_vcs()` is not `None`, the repository's backend,
`build.project.slug`, `build.id.hex`, and of the revision its author, message, commit time and
`should_build_branch`. -/
structure BuildContext where
  isAnyCommitBuild : Bool
  hasVcs : Bool
  backend : RepositoryBackend
  projectSlug : String
  idHex : String
  authorName : String
  authorEmail : String
  committedTimestamp : Nat
  message : String
  shouldBuildBranch : List String → Bool

/-- What a run of the handler meets outside the store: the checkout; the config values
`GREEN_BUILD_URL` (`none` when unset) and `GREEN_BUILD_AUTH` (`none` when the key is missing);
`vcs.run` and `time()` for the release id; `build_web_uri`; what the post does;
whether the event's `create_or_update` raises; and `datetime.utcnow()`. -/
structure HandlerEnv where
  checkout : Checkout
  greenBuildUrl : Option String
  greenBuildAuth : Option String
  release : ReleaseEnv
  buildWebUri : String → String
  post : PostOutcome
  eventRaises : Bool
  now : Nat

/-! ### `build_finished_handler` -/

/-- Lines 66-82: the build's row, when the build exists, passed, is a commit build, and its
repository has a VCS. -/
def checkedBuild (s : GreenStore) (buildId : BuildId) (ctx : BuildContext) : Option Build :=
  match s.builds buildId with
  | none => none
  | some build =>
    if build.result ≠ .passed then none
    else if !ctx.isAnyCommitBuild then none
    else if !ctx.hasVcs then none
    else some build

/-- Lines 97-167, after the table: the notification, when the application and the project are set
up for it, and the build's `green_build` event.  `.error` when `GREEN_BUILD_AUTH` is missing, when
`vcs.run` raises, or when the event's `create_or_update` raises after the post was made. -/
def notifyGreenBuild (s : GreenStore) (buildId : BuildId) (build : Build) (ctx : BuildContext)
    (env : HandlerEnv) : Except GreenStore GreenStore :=
  match env.greenBuildUrl with
  | none => .ok s
  | some url =>
    if url = "" then .ok s else
    match env.greenBuildAuth with
    | none => .error s
    | some auth =>
      if auth = "" then .ok s else
      let options := getOptions s.options build.projectId
      if (options "green-build.notify").getD "1" ≠ "1" then .ok s
      else if !ctx.shouldBuildBranch (branchNames ((options "build.branch-names").getD "*")) then
        .ok s
      else
        match getReleaseId ctx.backend build.source.revisionSha env.release with
        | none => .error s
        | some releaseId =>
          let project :=
            match options "green-build.project" with
            | some name => if name = "" then ctx.projectSlug else name
            | none => ctx.projectSlug
          let data : GreenBuildRequest :=
            ⟨project, releaseId,
              env.buildWebUri ("/projects/" ++ ctx.projectSlug ++ "/builds/" ++ ctx.idHex ++ "/"),
              "changes", ctx.authorName, ctx.authorEmail, ctx.committedTimestamp, ctx.message⟩
          let posted := { s with posts := s.posts ++ [⟨buildId, url, auth, data, env.post⟩] }
          if env.eventRaises then .error posted
          else .ok { posted with events := setEvent s.events buildId ⟨env.post.status, env.now⟩ }

section Handler

variable (vcs : String → String → IsChildParent)

/-- `build_finished_handler(build_id)` (lines 60-167); `vcs` answers `is_child_parent` for the
build's repository.  `.error` carries the store as the raise leaves it: `create_or_update` has
already written the rows before it. -/
def buildFinishedHandler (s : GreenStore) (buildId : BuildId) (ctx : BuildContext)
    (env : HandlerEnv) : Except GreenStore GreenStore :=
  match checkedBuild s buildId ctx with
  | none => .ok s
  | some build =>
    if !ensureLatest env.checkout then .error s
    else
      notifyGreenBuild
        { s with
          table := setLatestGreenBuildForEachBranch vcs s.revisionOf buildId build.projectId
            build.source.revisionSha build.source.branches s.table }
        buildId build ctx env

/-- The store a run leaves, whether it returned or raised. -/
def handlerStore : Except GreenStore GreenStore → GreenStore
  | .ok s => s
  | .error s => s

/-- A call of the handler: the build, and what the run meets. -/
structure HandlerCall where
  buildId : BuildId
  ctx : BuildContext
  env : HandlerEnv

/-- Handler calls run one after another, each on the store the one before left. -/
def handleAll : GreenStore → List HandlerCall → GreenStore
  | s, [] => s
  | s, call :: calls =>
    handleAll (handlerStore (buildFinishedHandler vcs s call.buildId call.ctx call.env)) calls

end Handler

/-! ### What one run does to the store -/

/-- The posts and events a run leaves: as they were, or with one more post for the build, whose
status becomes the build's event unless writing the event raised. -/
def Notified (s s' : GreenStore) (buildId : BuildId) (env : HandlerEnv) : Prop :=
  s'.posts = s.posts ∧ s'.events = s.events ∨
    ∃ url auth data, s'.posts = s.posts ++ [⟨buildId, url, auth, data, env.post⟩] ∧
      (s'.events = setEvent s.events buildId ⟨env.post.status, env.now⟩ ∨
        env.eventRaises = true ∧ s'.events = s.events)

/-- The notification half leaves the build rows, the options and the table alone. -/
theorem notifyGreenBuild_store (s : GreenStore) (buildId : BuildId) (build : Build)
    (ctx : BuildContext) (env : HandlerEnv) :
    (handlerStore (notifyGreenBuild s buildId build ctx env)).builds = s.builds ∧
      (handlerStore (notifyGreenBuild s buildId build ctx env)).options = s.options ∧
      (handlerStore (notifyGreenBuild s buildId build ctx env)).table = s.table ∧
      Notified s (handlerStore (notifyGreenBuild s buildId build ctx env)) buildId env := by
  unfold notifyGreenBuild
  dsimp only
  repeat' split
  all_goals first
    | exact ⟨rfl, rfl, rfl, .inl ⟨rfl, rfl⟩⟩
    | exact ⟨rfl, rfl, rfl, .inr ⟨_, _, _, rfl, .inl rfl⟩⟩
    | exact ⟨rfl, rfl, rfl, .inr ⟨_, _, _, rfl, .inr ⟨‹_›, rfl⟩⟩⟩

theorem checkedBuild_builds {s : GreenStore} {buildId : BuildId} {ctx : BuildContext}
    {build : Build} (h : checkedBuild s buildId ctx = some build) : s.builds buildId = some build := by
  rcases hb : s.builds buildId with _ | b <;> simp only [checkedBuild, hb] at h
  · cases h
  · split_ifs at h
    cases h
    rfl

theorem revisionOf_of_builds {s : GreenStore} {buildId : BuildId} {build : Build}
    (h : s.builds buildId = some build) : s.revisionOf buildId = build.source.revisionSha := by
  simp [GreenStore.revisionOf, h]

theorem revisionOf_congr {s s' : GreenStore} (h : s'.builds = s.builds) :
    s'.revisionOf = s.revisionOf := by
  unfold GreenStore.revisionOf
  rw [h]

section Handler

variable (vcs : String → String → IsChildParent)

/-- What one run of the handler can do to the store, returned or raised. -/
structure HandlerStep (s s' : GreenStore) (buildId : BuildId) (ctx : BuildContext)
    (env : HandlerEnv) : Prop where
  builds : s'.builds = s.builds
  options : s'.options = s.options
  /-- The table stays, or becomes what the loop computes for a build that passed the checks. -/
  table : s'.table = s.table ∨ ∃ build, checkedBuild s buildId ctx = some build ∧
    s'.table = setLatestGreenBuildForEachBranch vcs s.revisionOf buildId build.projectId
      (s.revisionOf buildId) build.source.branches s.table
  notified : Notified s s' buildId env

theorem buildFinishedHandler_step (s : GreenStore) (buildId : BuildId) (ctx : BuildContext)
    (env : HandlerEnv) :
    HandlerStep vcs s (handlerStore (buildFinishedHandler vcs s buildId ctx env)) buildId ctx env := by
  unfold buildFinishedHandler
  rcases hb : checkedBuild s buildId ctx with _ | build
  · exact ⟨rfl, rfl, .inl rfl, .inl ⟨rfl, rfl⟩⟩
  · by_cases hok : ensureLatest env.checkout
    · simp only [hok, Bool.not_true, Bool.false_eq_true, ite_false]
      obtain ⟨hbuilds, hoptions, htable, hnotified⟩ := notifyGreenBuild_store
        { s with
          table := setLatestGreenBuildForEachBranch vcs s.revisionOf buildId build.projectId
            build.source.revisionSha build.source.branches s.table } buildId build ctx env
      exact ⟨hbuilds, hoptions, .inr ⟨build, hb, by
        rw [htable, revisionOf_of_builds (checkedBuild_builds hb)]⟩, hnotified⟩
    · simp only [hok, Bool.not_false, ite_true]
      exact ⟨rfl, rfl, .inl rfl, .inl ⟨rfl, rfl⟩⟩

/-- For a build that passes the checks and whose checkout comes up to date, the handler leaves the
table the loop computes. -/
theorem buildFinishedHandler_table_of_checked (s : GreenStore) (buildId : BuildId)
    (ctx : BuildContext) (env : HandlerEnv) {build : Build}
    (hb : checkedBuild s buildId ctx = some build) (hok : ensureLatest env.checkout = true) :
    (handlerStore (buildFinishedHandler vcs s buildId ctx env)).table =
      setLatestGreenBuildForEachBranch vcs s.revisionOf buildId build.projectId
        (s.revisionOf buildId) build.source.branches s.table := by
  have htable := (notifyGreenBuild_store
    { s with
      table := setLatestGreenBuildForEachBranch vcs s.revisionOf buildId build.projectId
        build.source.revisionSha build.source.branches s.table } buildId build ctx env).2.2.1
  simp only [buildFinishedHandler, hb, hok, Bool.not_true, Bool.false_eq_true, ite_false, htable,
    revisionOf_of_builds (checkedBuild_builds hb)]

/-- **The handler refines the runs of `GreenRuns`.**  For a build that passes the checks and whose
checkout comes up to date, the handler leaves the table that the build's run of `GreenRuns`,
stepping alone from the start, ends its loop with. -/
theorem buildFinishedHandler_runs (s : GreenStore) (buildId : BuildId) (ctx : BuildContext)
    (env : HandlerEnv) {build : Build} (hb : checkedBuild s buildId ctx = some build)
    (hok : ensureLatest env.checkout = true) : ∃ n,
      (GreenRuns.start s.table [⟨buildId, build.projectId, build.source.branches⟩]).exec vcs
          s.revisionOf (List.replicate n 0) =
        some ⟨(handlerStore (buildFinishedHandler vcs s buildId ctx env)).table,
          [⟨buildId, build.projectId, .done⟩]⟩ := by
  rw [buildFinishedHandler_table_of_checked vcs s buildId ctx env hb hok]
  exact exec_alone vcs s.revisionOf s.table ⟨buildId, build.projectId, build.source.branches⟩

end Handler

end ChangesCI.Listeners.GreenBuild
