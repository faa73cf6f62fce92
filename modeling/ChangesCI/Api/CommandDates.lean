import ChangesCI.Api.CommandDetails
import Mathlib.Data.Option.Defs
import Mathlib.Data.List.Chain

/-!
# A command's dates over a sequence of reports

Reports on one command that arrive one at a time: each request reads the command, and commits or
not, before the next one reads it (`postAll`).  Lines 70-82 set `date_finished` and `date_started`
from the status each time a report carries one, with the report's effective date
(`args.date or datetime.utcnow()`, line 47).  One report processed alone leaves the commands as
they were, or stores the report applied to a command that was not finished (`post_commands`).

* `report_dates_consistent` — **PROVED**: once a report that carried a status has been committed,
  at every later point `date_finished` is set exactly when the command is finished and
  `date_started` exactly when it is not queued.  And when the command's own dates came no later
  than the first report (with a finish recorded only on a finished command, not before its start),
  and the reports' effective dates do not decrease, `date_started` is never after `date_finished`;
* `finish_recorded_before_start` — without the condition on the command's own dates the order
  fails: a command in progress since time 100 that a report dated 50 finishes keeps its start and
  takes 50 as its finish.
-/

namespace ChangesCI.Api.CommandDetails

open ChangesCI.Models

/-- Reports on `commandId` processed one at a time: each request runs to its end before the next
one reads the command. -/
def postAll (expanders : Expanders) (buildStep : BuildStep) (commandId : CommandId) :
    CommandStore → List (Report × PostEnv) → CommandStore
  | s, [] => s
  | s, (args, env) :: reports =>
    postAll expanders buildStep commandId (post expanders buildStep s commandId args env).2 reports

/-- The report is committed: the request answers with the command it stored, at line 114 or through
the dispatcher after line 91. -/
def Commits (expanders : Expanders) (buildStep : BuildStep) (s : CommandStore)
    (commandId : CommandId) (args : Report) (env : PostEnv) : Prop :=
  ∃ c, (post expanders buildStep s commandId args env).1 = .command c ∧
    (post expanders buildStep s commandId args env).2.commands commandId = some c

/-- The dates agree with the status: `date_finished` is set exactly when the command is finished,
`date_started` exactly when it is not queued. -/
def DatesAgree (c : Command) : Prop :=
  (c.dateFinished.isSome ↔ c.status = .finished) ∧ (c.dateStarted.isSome ↔ c.status ≠ .queued)

instance (c : Command) : Decidable (DatesAgree c) :=
  inferInstanceAs (Decidable ((_ ↔ _) ∧ (_ ↔ _)))

/-- `date_started` is not after `date_finished` when both are set. -/
def StartedBeforeFinished (c : Command) : Prop :=
  ∀ a ∈ c.dateStarted, ∀ b ∈ c.dateFinished, a ≤ b

instance (c : Command) : Decidable (StartedBeforeFinished c) :=
  inferInstanceAs (Decidable (∀ a ∈ c.dateStarted, ∀ b ∈ c.dateFinished, a ≤ b))

/-- The command's dates are no later than `t`, and a finish is recorded only on a finished command,
not before its start. -/
def DatesInOrder (c : Command) (t : Nat) : Prop :=
  (∀ a ∈ c.dateStarted, a ≤ t) ∧ (∀ b ∈ c.dateFinished, b ≤ t) ∧
    (c.dateFinished.isSome → c.status = .finished ∧ StartedBeforeFinished c)

instance (c : Command) (t : Nat) : Decidable (DatesInOrder c t) :=
  inferInstanceAs (Decidable (_ ∧ _ ∧ (_ → _ ∧ _)))

theorem DatesInOrder.startedBeforeFinished {c : Command} {t : Nat} (h : DatesInOrder c t) :
    StartedBeforeFinished c := by
  intro a ha b hb
  exact (h.2.2 (Option.isSome_iff_exists.mpr ⟨b, hb⟩)).2 a ha b hb

theorem DatesInOrder.mono {c : Command} {t d : Nat} (h : DatesInOrder c t) (ht : t ≤ d) :
    DatesInOrder c d :=
  ⟨fun a ha => Nat.le_trans (h.1 a ha) ht, fun b hb => Nat.le_trans (h.2.1 b hb) ht, h.2.2⟩

/-! ### One report on the dates -/

/-- A report with a status sets the dates from it; a report without one keeps the dates and the
status, so dates that agreed still agree. -/
theorem applyReport_datesAgree {c : Command} {args : Report} {t : Nat}
    (h : args.status ≠ none ∨ DatesAgree c) : DatesAgree (applyReport c args t) := by
  obtain ⟨status, returnCode, date, output⟩ := args
  obtain ⟨_, _, started, finished, _, _⟩ := c
  cases status with
  | none =>
    have hc := h.resolve_left (by simp)
    cases returnCode <;> exact hc
  | some reported =>
    cases started <;> cases finished <;> cases returnCode <;> simp [applyReport, DatesAgree]

/-- A report dated `d` on a command that records no finish keeps its dates by `d`, and records a
finish only when it finishes the command, not before the start. -/
theorem applyReport_datesInOrder {c : Command} {args : Report} {t d : Nat}
    (h : DatesInOrder c t) (ht : t ≤ d) (hf : c.dateFinished = none) :
    DatesInOrder (applyReport c args d) d := by
  obtain ⟨status, returnCode, date, output⟩ := args
  obtain ⟨_, _, started, finished, _, _⟩ := c
  simp only at hf
  subst hf
  have hs : ∀ a ∈ started, a ≤ d := fun a ha => Nat.le_trans (h.1 a ha) ht
  clear h
  cases status with
  | none => cases returnCode <;> simpa [applyReport, DatesInOrder] using hs
  | some reported =>
    cases returnCode <;> cases started <;>
      simp_all [applyReport, DatesInOrder, StartedBeforeFinished]

/-! ### One report, processed alone -/

/-- A committed report that carried a status leaves the command's dates agreeing with it. -/
theorem commits_datesAgree {expanders : Expanders} {buildStep : BuildStep} {s : CommandStore}
    {commandId : CommandId} {args : Report} {env : PostEnv} (hstatus : args.status ≠ none)
    (hc : Commits expanders buildStep s commandId args env) {c : Command}
    (hs : (post expanders buildStep s commandId args env).2.commands commandId = some c) :
    DatesAgree c := by
  obtain ⟨c', hreply, hstored⟩ := hc
  rcases hp : post expanders buildStep s commandId args env with ⟨reply, s'⟩
  rw [hp] at hreply hstored hs
  obtain rfl : c' = c := Option.some.inj (hstored.symm.trans hs)
  subst hreply
  -- whether it returned at line 91 or committed at line 114, the command is the report applied
  rcases post_commands hp with ⟨-, hcmd⟩ | ⟨command, -, -, -, hcmd⟩
  · exact absurd rfl (hcmd c')
  · rw [Reply.command.inj hcmd]
    exact applyReport_datesAgree (.inl hstatus)

/-- A report keeps the dates agreeing with the status. -/
theorem post_datesAgree {expanders : Expanders} {buildStep : BuildStep} {s : CommandStore}
    {commandId : CommandId} {args : Report} {env : PostEnv}
    (h : ∀ c, s.commands commandId = some c → DatesAgree c) :
    ∀ c, (post expanders buildStep s commandId args env).2.commands commandId = some c →
      DatesAgree c := by
  rcases hp : post expanders buildStep s commandId args env with ⟨reply, s'⟩
  rcases post_commands hp with ⟨hcmds, -⟩ | ⟨command, hs, -, hcmds, -⟩
  · rw [hcmds]
    exact h
  · intro c hc
    rw [hcmds, Function.update_same, Option.some.injEq] at hc
    exact hc ▸ applyReport_datesAgree (.inr (h command hs))

/-- A report dated no earlier than `t` keeps the command's dates in order, by its own date. -/
theorem post_datesInOrder {expanders : Expanders} {buildStep : BuildStep} {s : CommandStore}
    {commandId : CommandId} {args : Report} {env : PostEnv} {t : Nat}
    (h : ∀ c, s.commands commandId = some c → DatesInOrder c t)
    (ht : t ≤ args.date.getD env.now) :
    ∀ c, (post expanders buildStep s commandId args env).2.commands commandId = some c →
      DatesInOrder c (args.date.getD env.now) := by
  rcases hp : post expanders buildStep s commandId args env with ⟨reply, s'⟩
  rcases post_commands hp with ⟨hcmds, -⟩ | ⟨command, hs, hnf, hcmds, -⟩
  · rw [hcmds]
    exact fun c hc => (h c hc).mono ht
  · intro c hc
    rw [hcmds, Function.update_same, Option.some.injEq] at hc
    subst hc
    -- the command was not finished, so it recorded no finish
    have hf : command.dateFinished = none :=
      Option.not_isSome_iff_eq_none.mp fun hsome => hnf ((h command hs).2.2 hsome).1
    exact applyReport_datesInOrder (h command hs) ht hf

/-! ### Sequences of reports -/

theorem postAll_append (expanders : Expanders) (buildStep : BuildStep) (commandId : CommandId) :
    ∀ (s : CommandStore) (before after : List (Report × PostEnv)),
      postAll expanders buildStep commandId s (before ++ after) =
        postAll expanders buildStep commandId (postAll expanders buildStep commandId s before) after
  | _, [], _ => rfl
  | _, (_, _) :: before, after => postAll_append expanders buildStep commandId _ before after

theorem postAll_datesAgree (expanders : Expanders) (buildStep : BuildStep) (commandId : CommandId) :
    ∀ (reports : List (Report × PostEnv)) (s : CommandStore),
      (∀ c, s.commands commandId = some c → DatesAgree c) →
      ∀ c, (postAll expanders buildStep commandId s reports).commands commandId = some c →
        DatesAgree c
  | [], _, h => h
  | (_, _) :: reports, _, h => postAll_datesAgree expanders buildStep commandId reports _
      (post_datesAgree h)

theorem postAll_datesInOrder (expanders : Expanders) (buildStep : BuildStep)
    (commandId : CommandId) :
    ∀ (reports : List (Report × PostEnv)) (s : CommandStore) (t : Nat),
      (∀ c, s.commands commandId = some c → DatesInOrder c t) →
      List.Chain (· ≤ ·) t (reports.map fun report => report.1.date.getD report.2.now) →
      ∀ c, (postAll expanders buildStep commandId s reports).commands commandId = some c →
        StartedBeforeFinished c
  | [], _, _, h, _ => fun c hc => (h c hc).startedBeforeFinished
  | (_, _) :: reports, _, _, h, hchain => by
    rw [List.map_cons, List.chain_cons] at hchain
    exact postAll_datesInOrder expanders buildStep commandId reports _ _
      (post_datesInOrder h hchain.1) hchain.2

/-- **A command's dates over reports processed one at a time.**  Once a report that carried a
status has been committed, at every later point the stored command's `date_finished` is set exactly
when it is finished and its `date_started` exactly when it is not queued.  And at every point,
`date_started` is not after `date_finished`, provided the command's own dates were no later than
some `t₀` (a finish recorded only on a finished command, not before its start) and the reports'
effective dates, after `t₀`, do not decrease. -/
theorem report_dates_consistent (expanders : Expanders) (buildStep : BuildStep)
    (commandId : CommandId) (s₀ : CommandStore) :
    (∀ before args env after, args.status ≠ none →
      Commits expanders buildStep (postAll expanders buildStep commandId s₀ before) commandId
        args env →
      ∀ c, (postAll expanders buildStep commandId s₀ (before ++ (args, env) :: after)).commands
          commandId = some c →
        DatesAgree c) ∧
    (∀ t₀ reports, (∀ c₀, s₀.commands commandId = some c₀ → DatesInOrder c₀ t₀) →
      List.Chain (· ≤ ·) t₀ (reports.map fun report => report.1.date.getD report.2.now) →
      ∀ c, (postAll expanders buildStep commandId s₀ reports).commands commandId = some c →
        StartedBeforeFinished c) := by
  refine ⟨fun before args env after hstatus hc => ?_,
    fun t₀ reports h₀ => postAll_datesInOrder expanders buildStep commandId reports s₀ t₀ h₀⟩
  rw [postAll_append]
  exact postAll_datesAgree expanders buildStep commandId after _
    fun _ => commits_datesAgree hstatus hc

/-! ### A start, then a finish; and a finish dated before the start -/

/-- Command 0, a plain queued command with no dates, on jobstep 0. -/
def plainCommandStore : CommandStore where
  commands := fun id => if id = 0 then some ⟨.queued, none, none, none, .default, 0⟩ else none
  jobsteps := fun id => if id = 0 then some ⟨0, 0, 0, .unknown, some 2⟩ else none
  jobphases := []
  tasks := []
  nextId := 1

/-- The command starts at time 5 and finishes at time 7. -/
def startThenFinish : List (Report × PostEnv) :=
  [(⟨some .inProgress, none, none, none⟩, ⟨5, none⟩), (⟨some .finished, some 0, none, none⟩, ⟨7, none⟩)]

theorem report_dates_consistent_start_then_finish :
    (⟨some .inProgress, none, none, none⟩ : Report).status ≠ none ∧
      Commits listExpanders phaseBuildStep plainCommandStore 0 ⟨some .inProgress, none, none, none⟩
        ⟨5, none⟩ ∧
      (postAll listExpanders phaseBuildStep 0 plainCommandStore startThenFinish).commands 0 =
        some ⟨.finished, some 0, some 5, some 7, .default, 0⟩ ∧
      DatesAgree ⟨.finished, some 0, some 5, some 7, .default, 0⟩ ∧
      (∀ c₀, plainCommandStore.commands 0 = some c₀ → DatesInOrder c₀ 0) ∧
      List.Chain (· ≤ ·) 0 (startThenFinish.map fun report => report.1.date.getD report.2.now) ∧
      StartedBeforeFinished ⟨.finished, some 0, some 5, some 7, .default, 0⟩ := by
  have hinit : ∀ c₀, plainCommandStore.commands 0 = some c₀ → DatesInOrder c₀ 0 := by
    intro c₀ h
    cases h
    decide
  have hchain : List.Chain (· ≤ ·) 0
      (startThenFinish.map fun report => report.1.date.getD report.2.now) := by
    simp [startThenFinish]
  refine ⟨by decide, ⟨_, rfl, rfl⟩, rfl, ?_, hinit, hchain, ?_⟩
  · exact (report_dates_consistent listExpanders phaseBuildStep 0 plainCommandStore).1 []
      ⟨some .inProgress, none, none, none⟩ ⟨5, none⟩ [(⟨some .finished, some 0, none, none⟩, ⟨7, none⟩)]
      (by decide) ⟨_, rfl, rfl⟩ _ rfl
  · exact (report_dates_consistent listExpanders phaseBuildStep 0 plainCommandStore).2 0
      startThenFinish hinit hchain _ rfl

/-- Command 0, a plain command in progress since time 100, on jobstep 0: its dates agree with its
status. -/
def startedAt100Store : CommandStore where
  commands := fun id =>
    if id = 0 then some ⟨.inProgress, none, some 100, none, .default, 0⟩ else none
  jobsteps := fun id => if id = 0 then some ⟨0, 0, 0, .unknown, some 2⟩ else none
  jobphases := []
  tasks := []
  nextId := 1

/-- A final report dated 50. -/
def finishedAt50 : Report := ⟨some .finished, some 0, some 50, none⟩

/-- The first report finishes the command, dated 50; it is committed, and the command keeps the
start 100 it had, with 50 as its finish. -/
theorem finish_recorded_before_start :
    DatesAgree ⟨.inProgress, none, some 100, none, .default, 0⟩ ∧
      Commits listExpanders phaseBuildStep startedAt100Store 0 finishedAt50 ⟨60, none⟩ ∧
      (postAll listExpanders phaseBuildStep 0 startedAt100Store [(finishedAt50, ⟨60, none⟩)]).commands
          0 = some ⟨.finished, some 0, some 100, some 50, .default, 0⟩ ∧
      ¬ StartedBeforeFinished ⟨.finished, some 0, some 100, some 50, .default, 0⟩ :=
  ⟨by decide, ⟨_, rfl, rfl⟩, rfl, by decide⟩

end ChangesCI.Api.CommandDetails
