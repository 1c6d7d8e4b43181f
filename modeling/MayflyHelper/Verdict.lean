import MayflyHelper.Runner
import MayflyHelper.Semantics.Child
import Mathlib.Data.Nat.Find

/-! The verdict on a command against its exit status. The output of the child
is read only after the child has exited, so a child that prints more than the
pipe holds never exits and is taken for one that hangs. -/
namespace MayflyHelper.SystemSshdControl

open OracleProgram Clock ChildProcess

/-- A command as it is met: what the pipe holds, the time on the clock, how
long the runner's calls take, and what the child does. -/
structure Scenario where
  capacity : Nat
  start : Nat
  lag : Nat → Nat
  ops : List (Op UInt8)
  code : UInt8

/-- The machine the runner and the child share. -/
structure Machine where
  time : Nat
  calls : Nat
  child : Option (Progress UInt8)
  status : ExitStatus

/-- While time passes the child goes on. -/
def Machine.pass (capacity span : Nat) (m : Machine) : Machine :=
  { m with
    time := m.time + span
    child := m.child.map (Progress.advance (.bounded capacity) span) }

/-- The time a call asks for. -/
def asked : ProcessCall → Nat
  | .sleep span => span.nanoseconds
  | _ => 0

namespace Scenario
variable (s : Scenario)

def status : ExitStatus := ⟨some s.code.toNat⟩

/-- What a call is answered once its time has passed. A kill ends a child that
is still there; `wait` is made only after it, and the output is read only
after the exit, so neither blocks. -/
def answer : (call : ProcessCall) → Machine → ProcessCall.Reply call × Machine
  | .spawn _, m => (.ok (), { m with child := some ⟨s.ops, []⟩, status := s.status })
  | .now, m => (Instant.reading m.time, m)
  | .tryWait, m =>
      match m.child with
      | none => (.error .other, m)
      | some child => (.ok (if child.Exited then some m.status else none), m)
  | .sleep _, m => ((), m)
  | .readStderr, m => ((m.child.map Progress.pipe).getD [], m)
  | .kill, m =>
      match m.child with
      | none => (.error .other, m)
      | some child =>
          (.ok (),
            if child.Exited then m
            else { m with child := some ⟨[], child.pipe⟩, status := ⟨none⟩ })
  | .wait, m => (.ok m.status, m)

/-- The machine as the runner's oracle: first time passes, then the call is
answered. -/
def oracle : Oracle ProcessCall ProcessCall.Reply Machine := fun call m =>
  s.answer call { m.pass s.capacity (s.lag m.calls + asked call) with calls := m.calls + 1 }

def initial : Machine := ⟨s.start, 0, none, ⟨none⟩⟩

/-- The time of the spawn. The times of a run are counted from it. -/
def spawned : Nat := s.start + s.lag 0

/-- The head of the loop before the `n`-th poll. -/
def head : Nat → Nat
  | 0 => s.lag 1
  | n + 1 =>
      head n + s.lag (2 + 3 * n) + s.lag (3 + 3 * n) +
        (s.lag (4 + 3 * n) + pollInterval.nanoseconds)

/-- The `n`-th poll. -/
def poll (n : Nat) : Nat := s.head n + s.lag (2 + 3 * n)

/-- The reading of the clock after the `n`-th poll. -/
def check (n : Nat) : Nat := s.poll n + s.lag (3 + 3 * n)

/-- The child after `time`. -/
def childAt (time : Nat) : Progress UInt8 := advance (.bounded s.capacity) time s.ops []

/-- The machine at a time after the spawn, with the child still there. -/
def machineAt (time calls : Nat) : Machine :=
  ⟨s.spawned + time, calls, some (s.childAt time), s.status⟩

/-- A call of the runner finds the child as far as it has come by the time of
the answer. -/
theorem oracle_at (call : ProcessCall) (time calls : Nat) :
    s.oracle call (s.machineAt time calls) =
      s.answer call (s.machineAt (time + (s.lag calls + asked call)) (calls + 1)) := by
  have hChild : (s.childAt time).advance (.bounded s.capacity) (s.lag calls + asked call) =
      s.childAt (time + (s.lag calls + asked call)) := (advance_add _ _ _ _ _).symm
  simp only [oracle, Machine.pass, machineAt, Option.map_some, hChild, Nat.add_assoc]

/-- The poll of a round. -/
theorem oracle_tryWait (n : Nat) :
    s.oracle .tryWait (s.machineAt (s.head n) (2 + 3 * n)) =
      (.ok (if (s.childAt (s.poll n)).Exited then some s.status else none),
        s.machineAt (s.poll n) (3 + 3 * n)) := by
  rw [oracle_at]
  simp only [asked, Nat.add_zero]
  rw [show 2 + 3 * n + 1 = 3 + 3 * n by omega]
  rfl

/-- The reading of the clock of a round. -/
theorem oracle_now (n : Nat) :
    s.oracle .now (s.machineAt (s.poll n) (3 + 3 * n)) =
      (Instant.reading (s.spawned + s.check n), s.machineAt (s.check n) (4 + 3 * n)) := by
  rw [oracle_at]
  simp only [asked, Nat.add_zero]
  rw [show 3 + 3 * n + 1 = 4 + 3 * n by omega]
  rfl

/-- The pause that ends a round. -/
theorem oracle_sleep (n : Nat) :
    s.oracle (.sleep pollInterval) (s.machineAt (s.check n) (4 + 3 * n)) =
      ((), s.machineAt (s.head (n + 1)) (2 + 3 * (n + 1))) := by
  rw [oracle_at, show 4 + 3 * n + 1 = 2 + 3 * (n + 1) by omega]
  rfl

/-- The verdict by the status alone. -/
def judged : RunOutcome := if s.status.success then .success else .failed

/-- The round in which the loop ends. -/
def Stops (deadline : Instant) (n : Nat) : Prop :=
  (s.childAt (s.poll n)).Exited ∨ deadline.nanoseconds ≤ (s.spawned + s.check n : Nat)

/-- A round that does not end the loop. -/
theorem run_awaitChild_of_goes {deadline : Instant} {n : Nat} (h : ¬s.Stops deadline n)
    (fuel : Nat) :
    Program.run s.oracle (awaitChild deadline (fuel + 1)) (s.machineAt (s.head n) (2 + 3 * n)) =
      Program.run s.oracle (awaitChild deadline fuel)
        (s.machineAt (s.head (n + 1)) (2 + 3 * (n + 1))) := by
  obtain ⟨hRunning, hEarly⟩ := not_or.mp h
  rw [run_awaitChild_succ, oracle_tryWait, if_neg hRunning]
  simp only [oracle_now, Instant.le_reading_iff, if_neg hEarly, oracle_sleep]

/-- The round that ends it. -/
theorem run_awaitChild_of_stop {deadline : Instant} {n : Nat} (h : s.Stops deadline n)
    (fuel : Nat) :
    (Program.run s.oracle (awaitChild deadline (fuel + 1)) (s.machineAt (s.head n) (2 + 3 * n))).1 =
      .ok (if (s.childAt (s.poll n)).Exited then s.judged else .timedOut) := by
  rw [run_awaitChild_succ, oracle_tryWait]
  by_cases hExited : (s.childAt (s.poll n)).Exited
  · rw [if_pos hExited, if_pos hExited]
    rfl
  · rw [if_neg hExited, if_neg hExited]
    simp only [oracle_now, Instant.le_reading_iff, if_pos (h.resolve_left hExited)]

/-- The loop goes on until the first round that ends it, given fuel for that. -/
theorem run_awaitChild_of_first {deadline : Instant} {first fuel : Nat}
    (hGoes : ∀ k < first, ¬s.Stops deadline k) (hStops : s.Stops deadline first)
    (hFuel : first + 1 ≤ fuel) :
    (Program.run s.oracle (awaitChild deadline fuel) (s.machineAt (s.head 0) 2)).1 =
      .ok (if (s.childAt (s.poll first)).Exited then s.judged else .timedOut) := by
  obtain ⟨left, rfl⟩ := Nat.exists_eq_add_of_le' hFuel
  have hRounds := run_awaitChild_add (fun n => s.machineAt (s.head n) (2 + 3 * n))
    (fun k hk => s.run_awaitChild_of_goes (hGoes k hk)) (left + 1)
  rw [show left + (first + 1) = left + 1 + first by omega]
  exact (congrArg Prod.fst hRounds).trans (s.run_awaitChild_of_stop hStops left)

/-- Every round takes time, so the loop ends. -/
theorem exists_stops (deadline : Instant) : ∃ n, s.Stops deadline n := by
  have hGrows : ∀ n, n ≤ s.head n := by
    intro n
    induction n with
    | zero => exact Nat.zero_le _
    | succ n ih =>
        have hInterval : 1 ≤ pollInterval.nanoseconds := by decide
        rw [head]
        omega
  refine ⟨deadline.nanoseconds.toNat, Or.inr ?_⟩
  have hHead := hGrows deadline.nanoseconds.toNat
  unfold check poll
  omega

theorem poll_mono {m n : Nat} (h : m ≤ n) : s.poll m ≤ s.poll n := by
  induction h with
  | refl => exact Nat.le_refl _
  | step _ ih =>
      refine ih.trans ?_
      rw [poll, poll, head]
      omega

/-- The child is gone when its work is done, if all it prints fits into the
pipe. -/
theorem childAt_exited_iff (time : Nat) :
    (s.childAt time).Exited ↔ printed s.ops ≤ s.capacity ∧ work s.ops ≤ time := by
  rw [childAt, exited_bounded_iff _ _ _ _ (Nat.zero_le _), List.length_nil, Nat.zero_add]

/-- All the child prints fits into the pipe, and no clock read after a poll
that found the child at work shows the deadline. -/
def Unhindered (deadline : Instant) : Prop :=
  printed s.ops ≤ s.capacity ∧
    ∀ n, s.poll n < work s.ops → ((s.spawned + s.check n : Nat) : Int) < deadline.nanoseconds

/-- Some round is the first to end the loop. -/
theorem exists_first_stop (deadline : Instant) :
    ∃ first, s.Stops deadline first ∧ ∀ k < first, ¬s.Stops deadline k := by
  classical
  have hExists := s.exists_stops deadline
  exact ⟨Nat.find hExists, Nat.find_spec hExists, fun k hk => Nat.find_min hExists hk⟩

/-- With enough fuel the loop returns, and it judges by the status just when
nothing hinders the child. -/
theorem awaitChild_returns (deadline : Instant) : ∃ outcome enough,
    (∀ fuel, enough ≤ fuel →
      (Program.run s.oracle (awaitChild deadline fuel) (s.machineAt (s.head 0) 2)).1 =
        .ok outcome) ∧
      (s.Unhindered deadline ∧ outcome = s.judged ∨ ¬s.Unhindered deadline ∧
        outcome = .timedOut) := by
  obtain ⟨first, hStops, hGoes⟩ := s.exists_first_stop deadline
  have hRun : ∀ fuel, first + 1 ≤ fuel →
      (Program.run s.oracle (awaitChild deadline fuel) (s.machineAt (s.head 0) 2)).1 =
        .ok (if (s.childAt (s.poll first)).Exited then s.judged else .timedOut) := by
    intro fuel hFuel
    exact s.run_awaitChild_of_first hGoes hStops hFuel
  refine ⟨_, first + 1, hRun, ?_⟩
  by_cases hExited : (s.childAt (s.poll first)).Exited
  · obtain ⟨hFits, hDone⟩ := (s.childAt_exited_iff _).mp hExited
    refine Or.inl ⟨⟨hFits, fun n hn => ?_⟩, if_pos hExited⟩
    by_contra hLate
    have hFirst : first ≤ n := by
      by_contra hEarlier
      exact hGoes n (Nat.lt_of_not_le hEarlier) (Or.inr (Int.not_lt.mp hLate))
    have hLater := s.poll_mono hFirst
    omega
  · refine Or.inr ⟨fun hUnhindered => ?_, if_neg hExited⟩
    have hBusy : s.poll first < work s.ops := by
      by_contra hDone
      exact hExited ((s.childAt_exited_iff _).mpr ⟨hUnhindered.1, Nat.le_of_not_lt hDone⟩)
    exact absurd (hUnhindered.2 first hBusy) (Int.not_lt.mpr (hStops.resolve_left hExited))

/-- The run is the spawn, the reading that gives the deadline, and the loop. -/
theorem run_returns {config : SshdControlConfig} {deadline : Instant}
    (hDeadline :
      (Instant.reading (s.spawned + s.lag 1)).checkedAdd config.commandTimeout = some deadline)
    (command : Command) (fuel : Nat) :
    (Program.run s.oracle (run config command fuel) s.initial).1 =
      (Program.run s.oracle (awaitChild deadline fuel) (s.machineAt (s.head 0) 2)).1 := by
  have hSpawned : s.oracle (.spawn command) s.initial =
    (.ok (), ⟨s.spawned, 1, some ⟨s.ops, []⟩, s.status⟩) := rfl
  have hStart : s.oracle .now ⟨s.spawned, 1, some ⟨s.ops, []⟩, s.status⟩ =
      (Instant.reading (s.spawned + s.lag 1), s.machineAt (s.head 0) 2) := rfl
  rw [run_of_spawned (by rw [hSpawned]) (by rw [hSpawned, hStart]), hSpawned, hStart, hDeadline]

/-- By the status a success is the exit code zero. -/
theorem judged_eq_success_iff : s.judged = .success ↔ s.code = 0 := by
  have hCode : s.status.success = true ↔ s.code = 0 := by
    rw [ExitStatus.success, status, beq_iff_eq, Option.some.injEq]
    exact UInt8.toNat_inj (b := 0)
  rw [← hCode, judged]
  split <;> simp_all

theorem judged_ne_timedOut : s.judged ≠ .timedOut := by
  rw [judged]
  split <;> simp

/-- The failure each control reports. -/
def failure : SshdCall → Error
  | .validateConfig => .sshdValidationFailed
  | .reload => .sshdReloadFailed
  | .isActive => .sshdInactive

/-- Each control reports the verdict on its command, with the failure of its
own. -/
theorem control_returns {config : SshdControlConfig} {fuel : Nat} {outcome : RunOutcome}
    (hRun : ∀ command, (Program.run s.oracle (run config command fuel) s.initial).1 = .ok outcome)
    (call : SshdCall) :
    (Program.run s.oracle (control config fuel call) s.initial).1 =
      .ok (verdict (failure call) outcome) := by
  cases call with
  | validateConfig =>
      rw [control, validateConfig, Program.run_bind, hRun]
      rfl
  | reload =>
      rw [control, reload, Program.run_bind, hRun]
      rfl
  | isActive =>
      rw [control, isActive, Program.run_bind, hRun]
      rfl

/-- Only a success is reported as ok. -/
theorem verdict_eq_ok_iff (err : Error) (outcome : RunOutcome) :
    verdict err outcome = .ok () ↔ outcome = .success := by
  cases outcome <;> simp [verdict]

/-- Given enough fuel, the runner returns a success just for the exit code
zero and never a timeout, and the three controls return ok just for the exit
code zero. -/
def VerdictIsStatus (config : SshdControlConfig) : Prop :=
  ∃ enough, ∀ fuel, enough ≤ fuel →
    (∀ command, ∃ outcome,
      (Program.run s.oracle (run config command fuel) s.initial).1 = .ok outcome ∧
      (outcome = .success ↔ s.code = 0) ∧ outcome ≠ .timedOut) ∧
    ∀ call, ∃ result, (Program.run s.oracle (control config fuel call) s.initial).1 = .ok result ∧
      (result = .ok () ↔ s.code = 0)

/-- With a reader that drains its output, the child would exit before the
deadline. -/
def InTime (deadline : Instant) : Prop :=
  ∃ time, ((s.spawned + time : Nat) : Int) < deadline.nanoseconds ∧
    (advance .drained time s.ops []).Exited

/-- The verdict is the status just where nothing hinders the child. -/
theorem verdictIsStatus_iff {config : SshdControlConfig} {deadline : Instant}
    (hDeadline :
      (Instant.reading (s.spawned + s.lag 1)).checkedAdd config.commandTimeout = some deadline) :
    s.VerdictIsStatus config ↔ s.Unhindered deadline := by
  obtain ⟨outcome, enough, hReturns, hOutcome⟩ := s.awaitChild_returns deadline
  have hRun : ∀ fuel, enough ≤ fuel → ∀ command,
      (Program.run s.oracle (run config command fuel) s.initial).1 = .ok outcome := by
    intro fuel hFuel command
    rw [s.run_returns hDeadline, hReturns fuel hFuel]
  rcases hOutcome with ⟨hUnhindered, rfl⟩ | ⟨hHindered, rfl⟩
  · refine iff_of_true ⟨enough, fun fuel hFuel => ⟨fun command => ?_, fun call => ?_⟩⟩ hUnhindered
    · exact ⟨_, hRun fuel hFuel command, s.judged_eq_success_iff, s.judged_ne_timedOut⟩
    · exact ⟨_,
        s.control_returns (hRun fuel hFuel) call, by rw [verdict_eq_ok_iff, judged_eq_success_iff]⟩
  · refine iff_of_false ?_ hHindered
    rintro ⟨other, hVerdict⟩
    obtain ⟨result, hResult, -, hNot⟩ :=
      (hVerdict (max enough other) (le_max_right _ _)).1 ⟨config.sshdBinary, []⟩
    rw [hRun _ (le_max_left _ _)] at hResult
    cases hResult
    exact hNot rfl

/-- For a child that would exit in time, the verdict is the exit status just
when all it prints fits into the pipe and no reading of the clock shows the
deadline after a poll that found the child at work. -/
theorem verdict_is_status_iff (config : SshdControlConfig) (deadline : Instant)
    (hDeadline :
      (Instant.reading (s.spawned + s.lag 1)).checkedAdd config.commandTimeout = some deadline) :
    (s.InTime deadline → s.VerdictIsStatus config) ↔
      (s.InTime deadline → printed s.ops ≤ s.capacity ∧
        ∀ n, s.poll n < work s.ops →
          ((s.spawned + s.check n : Nat) : Int) < deadline.nanoseconds) :=
  imp_congr_right fun _ => s.verdictIsStatus_iff hDeadline

/-- A child that prints once at the start and succeeds, on a pipe of the usual
size. -/
def printing (bytes : List UInt8) : Scenario := ⟨65536, 0, fun _ => 0, [.write bytes], 0⟩

/-- The deadline of the default timeout. -/
def defaultDeadline : Instant := ⟨15, 0, by decide, by decide, nanosPerSec_pos⟩

theorem printing_deadline (bytes : List UInt8) :
    (Instant.reading ((printing bytes).spawned + (printing bytes).lag 1)).checkedAdd
      SshdControlConfig.default.commandTimeout = some defaultDeadline := by
  have hSpan : SshdControlConfig.default.commandTimeout = .fromSecs 15 := rfl
  have hStart : (printing bytes).spawned + (printing bytes).lag 1 = 0 := rfl
  rw [hSpan, hStart]
  decide

/-- With a reader at the pipe it would exit at once. -/
theorem printing_inTime (bytes : List UInt8) : (printing bytes).InTime defaultDeadline := by
  refine ⟨0, ?_, ?_⟩
  · show ((0 : Nat) : Int) < defaultDeadline.nanoseconds
    decide
  · rw [exited_drained_iff]
    exact Nat.le_refl 0

theorem printed_printing (bytes : List UInt8) : printed (printing bytes).ops = bytes.length := rfl

/-- A child that works, prints a line, works on and succeeds, beside a runner
each of whose calls takes a millisecond. -/
def working : Scenario where
  capacity := 65536
  start := 5000000000
  lag := fun _ => 1000000
  ops := [.work 12000000, .write (Text.asBytes "bad line\n".toList), .work 30000000]
  code := 0

/-- The deadline is counted from the start of the loop. -/
def workingDeadline : Instant := ⟨20, 2000000, by decide, by decide, by decide⟩

/-- It is still at work at the second poll, and it is given time to finish. -/
theorem verdict_is_status_of_line :
    ¬(working.childAt (working.poll 1)).Exited ∧
      working.VerdictIsStatus SshdControlConfig.default := by
  have hWork : work working.ops = 42000000 := rfl
  have hDeadline : (Instant.reading (working.spawned + working.lag 1)).checkedAdd
      SshdControlConfig.default.commandTimeout = some workingDeadline := by decide
  refine ⟨fun hExited => ?_, ?_⟩
  · have hDone := ((working.childAt_exited_iff _).mp hExited).2
    rw [hWork] at hDone
    exact absurd hDone (by decide)
  · refine (working.verdict_is_status_iff _ workingDeadline hDeadline).mpr (fun _ =>
      ⟨by decide, fun n hn => ?_⟩) ?_
    · have hCheck : working.check n = working.poll n + 1000000 := rfl
      have hSpawned : working.spawned = 5001000000 := rfl
      have hLimit : workingDeadline.nanoseconds = 20002000000 := by decide
      rw [hWork] at hn
      omega
    · refine ⟨42000000, by decide, ?_⟩
      rw [exited_drained_iff, hWork]

/-- A child that succeeds after it has printed one byte more than the pipe
holds is timed out. -/
theorem verdict_of_long_output :
    ¬((printing (List.replicate 65537 0)).InTime defaultDeadline →
      (printing (List.replicate 65537 0)).VerdictIsStatus SshdControlConfig.default) := by
  intro hVerdict
  have hFits :=
    ((printing _).verdictIsStatus_iff (printing_deadline _)).mp (hVerdict (printing_inTime _))
  have hLength := hFits.1
  rw [printed_printing, List.length_replicate] at hLength
  exact absurd hLength (by decide)

end Scenario

end MayflyHelper.SystemSshdControl
