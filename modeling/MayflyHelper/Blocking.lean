import MayflyHelper.Processes

/-! Whom the runner waits for. Its way through the program is cut into stages,
one for each call it can be in, and a stage says what is known of the child
there. Only the reading of the output waits for a process that is neither the
child nor the kernel. -/
namespace MayflyHelper.SystemSshdControl

open OracleProgram Clock Moves

inductive Stage where
  | spawning (config : SshdControlConfig) (command : Command) (fuel : Nat)
  | starting (config : SshdControlConfig) (fuel : Nat)
  | polling (deadline : Instant) (fuel : Nat)
  | reading (status : ExitStatus)
  | checking (deadline : Instant) (fuel : Nat)
  | sleeping (deadline : Instant) (fuel : Nat)
  | killing (outcome : RunOutcome)
  | waiting (outcome : RunOutcome)
  | ended (result : Except Stopped RunOutcome)

namespace Stage

def program : Stage → ProcessProgram (Except Stopped RunOutcome)
  | .spawning config command fuel => run config command fuel
  | .starting config fuel => do
      let start ← now
      match start.checkedAdd config.commandTimeout with
      | none => pure (.error .panicked)
      | some deadline => awaitChild deadline fuel
  | .polling deadline fuel => awaitChild deadline (fuel + 1)
  | .reading status => do
      let _ ← readChildStderr
      if status.success then pure (.ok .success) else pure (.ok .failed)
  | .checking deadline fuel => do
      let reading ← now
      if deadline ≤ reading then do
        let _ ← kill
        let _ ← wait
        pure (.ok .timedOut)
      else do
        sleep pollInterval
        awaitChild deadline fuel
  | .sleeping deadline fuel => do
      sleep pollInterval
      awaitChild deadline fuel
  | .killing outcome => do
      let _ ← kill
      let _ ← wait
      pure (.ok outcome)
  | .waiting outcome => do
      let _ ← wait
      pure (.ok outcome)
  | .ended result => pure result

/-- The loop from its head. -/
def awaiting (deadline : Instant) : Nat → Stage
  | 0 => .ended (.error .outOfFuel)
  | fuel + 1 => .polling deadline fuel

theorem program_awaiting (deadline : Instant) (fuel : Nat) :
    (awaiting deadline fuel).program = awaitChild deadline fuel := by
  cases fuel <;> rfl

/-- What is known of the child at a stage. -/
def Suits : Stage → Child → Prop
  | .spawning _ _ _, _ => True
  | .reading _, child => ∃ status, child = .exited status
  | .ended _, _ => True
  | _, child => child ≠ .absent

/-- The loop suits any child that has been spawned. -/
theorem suits_awaiting (deadline : Instant) (fuel : Nat) {child : Child} (h : child ≠ .absent) :
    (awaiting deadline fuel).Suits child := by
  cases fuel with
  | zero => trivial
  | succ fuel => exact h

def IsReading : Stage → Prop
  | .reading _ => True
  | _ => False

/-- The pipe is read only after the exit. -/
theorem exited_of_reading {stage : Stage} {child : Child} (h : stage.IsReading)
    (hSuits : stage.Suits child) :
    ∃ status, child = .exited status := by
  cases stage with
  | reading status => exact hSuits
  | _ => exact h.elim

/-- The loop itself does not read the pipe. -/
theorem not_isReading_awaiting (deadline : Instant) (fuel : Nat) :
    ¬(awaiting deadline fuel).IsReading := by
  cases fuel <;> exact id

/-- Where the runner goes from a stage with the reply to its call. -/
inductive Next : Stage → (call : ProcessCall) → ProcessCall.Reply call → Stage → Prop where
  | spawned {config : SshdControlConfig} {command : Command} {fuel : Nat} :
      Next (.spawning config command fuel) (.spawn command) (.ok ()) (.starting config fuel)
  | notSpawned {config : SshdControlConfig} {command : Command} {fuel : Nat} {kind : IoErrorKind} :
      Next (.spawning config command fuel) (.spawn command) (.error kind) (.ended (.ok .failed))
  | panicked {config : SshdControlConfig} {fuel : Nat} {start : Instant}
      (h : start.checkedAdd config.commandTimeout = none) :
      Next (.starting config fuel) .now start (.ended (.error .panicked))
  | started {config : SshdControlConfig} {fuel : Nat} {start deadline : Instant}
      (h : start.checkedAdd config.commandTimeout = some deadline) :
      Next (.starting config fuel) .now start (awaiting deadline fuel)
  | gone {deadline : Instant} {fuel : Nat} {status : ExitStatus} :
      Next (.polling deadline fuel) .tryWait (.ok (some status)) (.reading status)
  | there {deadline : Instant} {fuel : Nat} :
      Next (.polling deadline fuel) .tryWait (.ok none) (.checking deadline fuel)
  | lost {deadline : Instant} {fuel : Nat} {kind : IoErrorKind} :
      Next (.polling deadline fuel) .tryWait (.error kind) (.killing .failed)
  | read {status : ExitStatus} {bytes : Bytes} :
      Next (.reading status) .readStderr bytes
        (.ended (.ok (if status.success then .success else .failed)))
  | late {deadline reading : Instant} {fuel : Nat} (h : deadline ≤ reading) :
      Next (.checking deadline fuel) .now reading (.killing .timedOut)
  | early {deadline reading : Instant} {fuel : Nat} (h : ¬deadline ≤ reading) :
      Next (.checking deadline fuel) .now reading (.sleeping deadline fuel)
  | slept {deadline : Instant} {fuel : Nat} :
      Next (.sleeping deadline fuel) (.sleep pollInterval) () (awaiting deadline fuel)
  | killed {outcome : RunOutcome} {reply : Except IoErrorKind Unit} :
      Next (.killing outcome) .kill reply (.waiting outcome)
  | reaped {outcome : RunOutcome} {reply : Except IoErrorKind ExitStatus} :
      Next (.waiting outcome) .wait reply (.ended (.ok outcome))

/-- The program of a stage follows the moves between the stages. -/
theorem exists_next {stage : Stage} {call : ProcessCall}
    {next : ProcessCall.Reply call → ProcessProgram (Except Stopped RunOutcome)}
    (h : stage.program = .query call next) (reply : ProcessCall.Reply call) :
    ∃ after, Next stage call reply after ∧ next reply = after.program := by
  cases stage with
  | spawning config command fuel =>
      cases h
      cases reply with
      | error kind => exact ⟨_, .notSpawned, rfl⟩
      | ok _ => exact ⟨_, .spawned, rfl⟩
  | starting config fuel =>
      cases h
      cases hSum : Instant.checkedAdd reply config.commandTimeout with
      | none =>
          refine ⟨_, .panicked hSum, ?_⟩
          show (match Instant.checkedAdd reply config.commandTimeout with
            | none => _
            | some deadline => _) = _
          rw [hSum]
          rfl
      | some deadline =>
          refine ⟨_, .started hSum, ?_⟩
          show (match Instant.checkedAdd reply config.commandTimeout with
            | none => _
            | some deadline => _) = _
          rw [hSum, program_awaiting]
  | polling deadline fuel =>
      cases h
      rcases reply with _ | _ | status
      · exact ⟨_, .lost, rfl⟩
      · exact ⟨_, .there, rfl⟩
      · exact ⟨_, .gone, rfl⟩
  | reading status =>
      cases h
      refine ⟨_, .read, ?_⟩
      show (if status.success = true then _ else _) = _
      split <;> rfl
  | checking deadline fuel =>
      cases h
      by_cases hLate : deadline ≤ reply
      · exact ⟨_, .late hLate, if_pos hLate⟩
      · exact ⟨_, .early hLate, if_neg hLate⟩
  | sleeping deadline fuel =>
      cases h
      exact ⟨_, .slept, (program_awaiting deadline fuel).symm⟩
  | killing outcome =>
      cases h
      exact ⟨_, .killed, rfl⟩
  | waiting outcome =>
      cases h
      exact ⟨_, .reaped, rfl⟩
  | ended result => cases h

/-- A call that returns leaves the child as the next stage takes it to be, and
the output is read just after a poll that found the child gone. -/
theorem Next.suits_of_complete {stage after : Stage} {call : ProcessCall}
    {reply : ProcessCall.Reply call}
    {w next : World} (hNext : Next stage call reply after) (hSuits : stage.Suits w.child)
    (h : w.complete call = some (reply, next)) :
    after.Suits next.child ∧
      (after.IsReading ↔ call = .tryWait ∧ ∃ status, w.child = .exited status) := by
  cases hNext with
  | spawned =>
      cases h
      exact ⟨Child.noConfusion, by simp [IsReading]⟩
  | notSpawned => cases h
  | panicked => exact ⟨trivial, by simp [IsReading]⟩
  | started =>
      cases h
      exact ⟨suits_awaiting _ _ hSuits, by simp [not_isReading_awaiting]⟩
  | @gone _ _ status =>
      simp only [World.complete, Option.some.injEq, Prod.mk.injEq, Except.ok.injEq] at h
      obtain ⟨hStatus, rfl⟩ := h
      have hExited : w.child = .exited status := by
        cases hChild : w.child <;> simp_all [Child.status]
      exact ⟨⟨status, hExited⟩, by simp [IsReading, hExited]⟩
  | there =>
      simp only [World.complete, Option.some.injEq, Prod.mk.injEq, Except.ok.injEq] at h
      obtain ⟨hStatus, rfl⟩ := h
      refine ⟨hSuits, iff_of_false id ?_⟩
      rintro ⟨-, status, hExited⟩
      rw [hExited] at hStatus
      cases hStatus
  | lost =>
      simp only [World.complete, Option.some.injEq, Prod.mk.injEq, reduceCtorEq, false_and] at h
  | read => exact ⟨trivial, by simp [IsReading]⟩
  | late =>
      cases h
      exact ⟨hSuits, by simp [IsReading]⟩
  | early =>
      cases h
      exact ⟨hSuits, by simp [IsReading]⟩
  | slept =>
      simp only [World.complete, Option.ite_none_right_eq_some, Option.some.injEq,
        Prod.mk.injEq] at h
      obtain ⟨-, -, rfl⟩ := h
      exact ⟨suits_awaiting _ _ hSuits, by simp [not_isReading_awaiting]⟩
  | killed =>
      cases h
      exact ⟨Child.kill_ne_absent hSuits, by simp [IsReading]⟩
  | reaped => exact ⟨trivial, by simp [IsReading]⟩

/-- A call that fails leaves the child alone. -/
theorem Next.suits_of_fail {stage after : Stage} {call : ProcessCall}
    {reply : ProcessCall.Reply call}
    {w : World} {kind : IoErrorKind} (hNext : Next stage call reply after)
    (hSuits : stage.Suits w.child)
    (h : w.fail kind call = some reply) : after.Suits w.child ∧ ¬after.IsReading := by
  cases hNext with
  | spawned => cases h
  | notSpawned => exact ⟨trivial, id⟩
  | panicked => cases h
  | started => cases h
  | gone => cases h
  | there => cases h
  | lost => exact ⟨hSuits, id⟩
  | read => exact ⟨trivial, id⟩
  | late => cases h
  | early => cases h
  | slept => cases h
  | killed => exact ⟨hSuits, id⟩
  | reaped => exact ⟨trivial, id⟩

/-- The others never take the child away, nor back from its end. -/
theorem suits_of_act {stage : Stage} {w next : World} {action : Action}
    (hSuits : stage.Suits w.child)
    (h : w.act action = some next) : stage.Suits next.child := by
  have hPresent : w.child ≠ .absent → next.child ≠ .absent := by
    intro hChild
    rcases World.act_cases h with ⟨hSame, -⟩ | ⟨-, hSame⟩ | ⟨-, hNext⟩ | ⟨-, -, -, hSame⟩
    · rwa [hSame]
    · rwa [hSame]
    · exact hNext
    · rwa [hSame]
  cases stage with
  | spawning config command fuel => trivial
  | reading status =>
      obtain ⟨other, hExited⟩ := hSuits
      exact ⟨other, (World.act_of_exited hExited h).1⟩
  | ended result => trivial
  | _ => exact hPresent hSuits

end Stage

namespace Scene
variable {s t : Scene}

/-- Everything a step can be. -/
theorem step_cases {action : Action} (h : s.step action = some t) :
    (action = .complete ∧ ∃ call next reply w, s.runner = .query call next ∧
      s.world.complete call = some (reply, w) ∧ t = proceed next reply w) ∨
    (∃ kind, action = .fail kind ∧ ∃ call next reply, s.runner = .query call next ∧
      s.world.fail kind call = some reply ∧ t = proceed next reply s.world) ∨
    t = ⟨s.runner, { s.world with taken := s.world.taken ++ s.world.pipe, pipe := [] }⟩ ∨
    ∃ w, s.world.act action = some w ∧ t = ⟨s.runner, w⟩ := by
  obtain ⟨program, w⟩ := s
  cases action with
  | complete =>
      cases program with
      | done result => cases h
      | query call next =>
          obtain ⟨⟨reply, after⟩, hComplete, rfl⟩ := Option.map_eq_some_iff.mp h
          exact Or.inl ⟨rfl, call, next, reply, after, rfl, hComplete, rfl⟩
  | fail kind =>
      cases program with
      | done result => cases h
      | query call next =>
          obtain ⟨reply, hFail, rfl⟩ := Option.map_eq_some_iff.mp h
          exact Or.inr (Or.inl ⟨kind, rfl, call, next, reply, rfl, hFail, rfl⟩)
  | drain =>
      refine Or.inr (Or.inr (Or.inl ?_))
      cases program with
      | done result => cases h
      | query call next =>
          cases call with
          | readStderr =>
              cases h
              rfl
          | _ => cases h
  | _ =>
      simp only [step, Option.map_eq_some_iff] at h
      obtain ⟨after, hAct, rfl⟩ := h
      exact Or.inr (Or.inr (Or.inr ⟨after, hAct, rfl⟩))

/-- The runner is at a stage that suits the child. -/
def At (stage : Stage) (s : Scene) : Prop := s.runner = stage.program ∧ stage.Suits s.world.child

/-- A report of the exit is the answer to a poll. -/
theorem polled_iff {call : ProcessCall}
    {next : ProcessCall.Reply call → ProcessProgram (Except Stopped RunOutcome)}
    (h : s.runner = .query call next) :
    s.Polled ↔ call = .tryWait ∧ ∃ status, s.world.child = .exited status := by
  constructor
  · rintro ⟨other, status, hOther, hExited⟩
    rw [h] at hOther
    cases hOther
    exact ⟨rfl, status, hExited⟩
  · rintro ⟨rfl, status, hExited⟩
    exact ⟨next, status, h, hExited⟩

/-- The runner begins to read with the poll that finds the child gone, and no
call of its own changes who holds the pipe. -/
theorem at_of_complete {stage : Stage} (hAt : s.At stage) (h : s.step .complete = some t) :
    ∃ after : Stage, t.At after ∧ t.world.holders = s.world.holders ∧
      (after.IsReading ↔ s.Polled) := by
  obtain ⟨hStage, hSuits⟩ := hAt
  cases hRunner : s.runner with
  | done result => simp [step, hRunner] at h
  | query call next =>
      simp only [step, hRunner, Option.map_eq_some_iff] at h
      obtain ⟨⟨reply, w⟩, hComplete, rfl⟩ := h
      obtain ⟨after, hNext, hAfter⟩ := Stage.exists_next (hStage.symm.trans hRunner) reply
      obtain ⟨hFits, hReading⟩ := hNext.suits_of_complete hSuits hComplete
      refine ⟨after, ⟨hAfter, hFits⟩, ?_, hReading.trans (polled_iff hRunner).symm⟩
      show w.holders = s.world.holders
      exact World.holders_of_complete hComplete

/-- A step leads from a stage to a stage. The runner begins to read with the
poll that finds the child gone, and while it reads no holders come to none. -/
theorem at_of_step {stage : Stage} {action : Action} (hAt : s.At stage)
    (h : s.step action = some t) :
    ∃ after : Stage, t.At after ∧ (after.IsReading →
      (action = .complete ∧ s.Polled) ∧ t.world.holders = s.world.holders ∨
        stage.IsReading ∧ (s.world.holders = ∅ → t.world.holders = ∅)) := by
  rcases step_cases h with ⟨rfl, -⟩ | ⟨kind, rfl, call, next, reply, hRunner, hFail, rfl⟩ | rfl |
    ⟨w, hAct, rfl⟩
  · obtain ⟨after, hAfter, hHolders, hReading⟩ := at_of_complete hAt h
    exact ⟨after, hAfter, fun hRead => Or.inl ⟨⟨rfl, hReading.mp hRead⟩, hHolders⟩⟩
  · obtain ⟨after, hNext, hAfter⟩ := Stage.exists_next (hAt.1.symm.trans hRunner) reply
    obtain ⟨hFits, hNot⟩ := hNext.suits_of_fail hAt.2 hFail
    exact ⟨after, ⟨hAfter, hFits⟩, fun hRead => absurd hRead hNot⟩
  · exact ⟨stage, hAt, fun hRead => Or.inr ⟨hRead, id⟩⟩
  · refine ⟨stage, ⟨hAt.1, Stage.suits_of_act hAt.2 hAct⟩, fun hRead => Or.inr ⟨hRead, ?_⟩⟩
    obtain ⟨status, hExited⟩ := Stage.exited_of_reading hRead hAt.2
    exact (World.act_of_exited hExited hAct).2.1

/-- The runner is at a stage, and reads only where no descendant holds the
pipe. -/
def Quiet (s : Scene) : Prop := ∃ stage, s.At stage ∧ (stage.IsReading → s.world.holders = ∅)

/-- The runner starts at its spawn. -/
theorem at_initial (config : SshdControlConfig) (command : Command) (fuel capacity time : Nat) :
    (initial config command fuel capacity time).At (.spawning config command fuel) := ⟨rfl, trivial⟩

/-- It is always at some stage. -/
theorem exists_at_of_step {action : Action} (hAt : ∃ stage, s.At stage)
    (h : s.step action = some t) :
    ∃ stage, t.At stage := by
  obtain ⟨stage, hAt⟩ := hAt
  obtain ⟨after, hAfter, -⟩ := at_of_step hAt h
  exact ⟨after, hAfter⟩

/-- As long as each exit is found with the pipe let go, no read finds a
writer. -/
theorem quiet_of_step {action : Action} (hQuiet : s.Quiet) (h : s.step action = some t)
    (hPolled : action = .complete ∧ s.Polled → s.world.holders = ∅) : t.Quiet := by
  obtain ⟨stage, hAt, hNone⟩ := hQuiet
  obtain ⟨after, hAfter, hReading⟩ := at_of_step hAt h
  refine ⟨after, hAfter, fun hRead => ?_⟩
  rcases hReading hRead with ⟨hReports, hSame⟩ | ⟨hWas, hStays⟩
  · exact hSame.trans (hPolled hReports)
  · exact hStays (hNone hWas)

theorem canComplete_of_step (h : s.step .complete = some t) : s.CanComplete :=
  ⟨s, t, CanReach.refl s, h⟩

/-- One more step of the child or the kernel, and the call returns. -/
theorem canComplete_of_two {u : Scene} (action : Action) (hUnaided : action.Unaided)
    (hOther : action ≠ .complete)
    (hFirst : s.step action = some t) (hSecond : t.step .complete = some u) : s.CanComplete :=
  ⟨t, u, (CanReach.refl s).tail action ⟨hUnaided, hOther⟩ hFirst, hSecond⟩

/-- A killed child is gone when the kernel has ended it, and one that was not
killed when it exits by itself. -/
theorem canComplete_of_waiting {outcome : RunOutcome} (h : s.At (.waiting outcome)) :
    s.CanComplete := by
  obtain ⟨program, w⟩ := s
  obtain ⟨rfl, hPresent⟩ := h
  obtain ⟨capacity, time, entered, child, holders, pipe, taken⟩ := w
  cases child with
  | absent => exact absurd rfl hPresent
  | running holds =>
      exact canComplete_of_two (.childExits ⟨some 0⟩) trivial Action.noConfusion rfl rfl
  | dying holds => exact canComplete_of_two .dies trivial Action.noConfusion rfl rfl
  | exited status => exact canComplete_of_step rfl

/-- What is in the pipe is read, then its end, and the runner returns. -/
theorem steps_of_reading {status : ExitStatus} (h : s.At (.reading status))
    (hNone : s.world.holders = ∅) :
    ∃ t u, s.step .drain = some t ∧ t.step .complete = some u ∧ u.Returned := by
  obtain ⟨program, w⟩ := s
  obtain ⟨rfl, other, hExited⟩ := h
  have hEnd : World.complete { w with taken := w.taken ++ w.pipe, pipe := [] } .readStderr =
      some (w.taken ++ w.pipe, { w with taken := w.taken ++ w.pipe, pipe := [] }) :=
    if_pos ⟨rfl, congrArg Child.holds hExited, hNone⟩
  refine ⟨_, _, rfl, congrArg (Option.map _) hEnd,
    .ok (if status.success then .success else .failed), ?_⟩
  show (if status.success then _ else _) = _
  split <;> rfl

/-- Without a writer no call blocks for good. -/
theorem unblocked_of_quiet (h : s.Quiet) : s.Unblocked := by
  obtain ⟨stage, hAt, hNone⟩ := h
  cases stage with
  | ended result => exact Or.inl ⟨result, hAt.1⟩
  | sleeping deadline fuel => exact Or.inr (Or.inl ⟨_, hAt.1⟩)
  | reading status =>
      obtain ⟨t, u, hDrain, hComplete, -⟩ := steps_of_reading hAt (hNone trivial)
      exact Or.inr (Or.inr (canComplete_of_two .drain trivial Action.noConfusion hDrain hComplete))
  | waiting outcome => exact Or.inr (Or.inr (canComplete_of_waiting hAt))
  | _ =>
      -- The other calls do not wait for anything.
      obtain ⟨program, w⟩ := s
      obtain ⟨rfl, -⟩ := hAt
      exact Or.inr (Or.inr (canComplete_of_step rfl))

/-- While a descendant holds the pipe, a runner that reads goes on reading for
as long as no descendant acts. -/
theorem reading_of_unaided {status : ExitStatus} (hAt : s.At (.reading status))
    (hHeld : s.world.holders ≠ ∅)
    (h : CanReach step Action.Unaided s t) :
    t.At (.reading status) ∧ t.world.holders = s.world.holders := by
  refine h.invariant (fun x => x.At (.reading status) ∧ x.world.holders = s.world.holders) ?_
    ⟨hAt, rfl⟩
  rintro ⟨before, action, after, hTaken⟩ hUnaided ⟨⟨hRunner, other, hExited⟩, hHolders⟩
  rcases step_cases hTaken with ⟨-, call, next, reply, w, hCall, hComplete, -⟩ | ⟨kind, rfl, -⟩ |
    rfl | ⟨w, hAct, rfl⟩
  · cases hRunner.symm.trans hCall
    exact absurd (hHolders.symm.trans (World.holders_of_readStderr hComplete)) hHeld
  · exact hUnaided.elim
  · exact ⟨⟨hRunner, other, hExited⟩, hHolders⟩
  · obtain ⟨hStill, -, hLeft⟩ := World.act_of_exited hExited hAct
    exact ⟨⟨hRunner, other, hStill⟩, (hLeft hUnaided).trans hHolders⟩

/-- While somebody holds the pipe, the read does not return. -/
theorem not_unblocked_of_held {status : ExitStatus} (hAt : s.At (.reading status))
    (hHeld : s.world.holders ≠ ∅) :
    ¬s.Unblocked := by
  rintro (⟨result, hReturned⟩ | ⟨next, hSleeping⟩ | ⟨t, u, hReach, hComplete⟩)
  · cases hAt.1.symm.trans hReturned
  · cases hAt.1.symm.trans hSleeping
  · obtain ⟨⟨hRunner, -⟩, hHolders⟩ := reading_of_unaided hAt hHeld (hReach.mono fun _ => And.left)
    have hReads : t.runner = .query .readStderr _ := hRunner
    simp only [step, hReads, Option.map_eq_some_iff] at hComplete
    obtain ⟨entry, hEnd, -⟩ := hComplete
    exact hHeld (hHolders.symm.trans (World.holders_of_readStderr hEnd))

/-- And without a step of theirs the runner never does. -/
theorem not_canReturn_of_held {status : ExitStatus} (hAt : s.At (.reading status))
    (hHeld : s.world.holders ≠ ∅) :
    ¬s.CanReturn := by
  rintro ⟨t, hReach, result, hReturned⟩
  obtain ⟨⟨hRunner, -⟩, -⟩ := reading_of_unaided hAt hHeld hReach
  cases hRunner.symm.trans hReturned

/-- Once the pipe has been let go, the read returns. -/
theorem canReturn_of_reading {status : ExitStatus} (h : s.At (.reading status))
    (hNone : s.world.holders = ∅) :
    s.CanReturn := by
  obtain ⟨t, u, hDrain, hComplete, hReturned⟩ := steps_of_reading h hNone
  have hReach : CanReach step Action.Unaided s t := (CanReach.refl s).tail .drain trivial hDrain
  exact ⟨u, hReach.tail .complete trivial hComplete, hReturned⟩

/-- The runner reads next, and the same descendants hold the pipe. -/
theorem reading_of_reports {m : Move step} (hAt : ∃ stage, m.before.At stage) (h : Reports m) :
    ∃ status, m.after.At (.reading status) ∧ m.after.world.holders = m.before.world.holders := by
  obtain ⟨stage, hAt⟩ := hAt
  obtain ⟨hComplete, hPolled⟩ := h
  have hTaken := m.taken
  rw [hComplete] at hTaken
  obtain ⟨after, hAfter, hHolders, hReading⟩ := at_of_complete hAt hTaken
  cases after with
  | reading status => exact ⟨status, hAfter, hHolders⟩
  | _ => exact (hReading.mpr hPolled).elim

/-- In every run the runner is never blocked by a descendant, and can return
once the exit of the child has been reported, just when every poll that
reports the exit is made while no descendant holds the pipe. -/
theorem never_blocked_iff (config : SshdControlConfig) (command : Command)
    (fuel capacity time : Nat) {finish : Scene}
    (run : Run step (initial config command fuel capacity time) finish) :
    ((initial config command fuel capacity time).Unblocked ∧
        ∀ m ∈ run.moves, m.after.Unblocked ∧ (Reports m → m.after.CanReturn)) ↔
      ∀ m ∈ run.moves, Reports m → m.before.world.holders = ∅ := by
  have hStart := at_initial config command fuel capacity time
  constructor
  · rintro ⟨-, hAll⟩ m hMem hReports
    have hStages := run.invariant (fun s => ∃ stage, s.At stage) (fun _ => True)
      (fun m _ hAt => exists_at_of_step hAt m.taken) (fun _ _ => trivial) ⟨_, hStart⟩
    obtain ⟨status, hAfter, hHolders⟩ := reading_of_reports (hStages.2 m hMem).1 hReports
    by_contra hHeld
    rw [← hHolders] at hHeld
    exact not_unblocked_of_held hAfter hHeld (hAll m hMem).1
  · intro hNone
    have hQuiet := run.invariant Quiet (fun m => Reports m → m.before.world.holders = ∅)
      (fun m hReports hQuiet => quiet_of_step hQuiet m.taken hReports) hNone ⟨_, hStart, False.elim⟩
    refine ⟨unblocked_of_quiet ⟨_, hStart, False.elim⟩, fun m hMem => ?_⟩
    obtain ⟨⟨stage, hBefore, -⟩, hAfter⟩ := hQuiet.2 m hMem
    refine ⟨unblocked_of_quiet hAfter, fun hReports => ?_⟩
    obtain ⟨status, hAt, hHolders⟩ := reading_of_reports ⟨stage, hBefore⟩ hReports
    exact canReturn_of_reading hAt (hHolders.trans (hNone m hMem hReports))

/-- A run of `sshd -t`: the child forks a process that keeps its standard
error, succeeds, and is polled. -/
def forking : Run step
    (initial SshdControlConfig.default ⟨SshdControlConfig.default.sshdBinary,
      ["-t".toList]⟩ 1 65536 0)
    ⟨Stage.program (.reading ⟨some 0⟩), ⟨65536, 0, 0, .exited ⟨some 0⟩, {1}, [], []⟩⟩ :=
  .succ (.succ (.succ (.succ (.succ .zero .complete rfl) .complete rfl) (.childForks 1) rfl)
    (.childExits ⟨some 0⟩) rfl) .complete rfl

/-- The command is over, and the runner waits for the process that it left
behind. -/
theorem blocked_by_descendant : ∃ m ∈ forking.moves, Reports m ∧ ¬m.after.Unblocked ∧
    ¬m.after.CanReturn := by
  have hHeld : ({1} : Finset Nat) ≠ ∅ := Finset.singleton_ne_empty 1
  refine ⟨_, List.mem_append_right _ (List.mem_singleton_self _), ⟨rfl, _, _, rfl, rfl⟩, ?_, ?_⟩
  · exact not_unblocked_of_held ⟨rfl, _, rfl⟩ hHeld
  · exact not_canReturn_of_held ⟨rfl, _, rfl⟩ hHeld

end Scene

end MayflyHelper.SystemSshdControl
