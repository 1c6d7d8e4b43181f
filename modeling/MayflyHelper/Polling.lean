import MayflyHelper.Verdict

/-! The polling loop against every trace of replies. Whatever the polls and
the clock say, the loop ends once the clock has shown the deadline; it takes
for a success only an exit it has seen, and a child it has not seen exit is
killed and reaped. -/
namespace MayflyHelper.SystemSshdControl

open OracleProgram Clock

deriving instance DecidableEq for ProcessCall

/-- What the runner is told of a child it has spawned: the clock at the spawn,
the polls and the readings of the clock in the loop, in their order, and the
replies it ignores. -/
structure Replies where
  start : Instant
  polls : Nat → Except IoErrorKind (Option ExitStatus)
  clock : Nat → Instant
  stderr : Bytes
  killed : Except IoErrorKind Unit
  reaped : Except IoErrorKind ExitStatus

/-- The calls end in one `kill` and one `wait`. -/
def KilledAndReaped (calls : List ProcessCall) : Prop :=
  ∃ front, calls = front ++ [.kill, .wait] ∧ .kill ∉ front ∧ .wait ∉ front

namespace Replies
variable (r : Replies)

/-- The first reading is the one the deadline is counted from. -/
def reading : Nat → Instant
  | 0 => r.start
  | n + 1 => r.clock n

/-- The reply to a call after the calls made so far. -/
def answer : (call : ProcessCall) → List ProcessCall → ProcessCall.Reply call
  | .spawn _, _ => .ok ()
  | .now, calls => r.reading (calls.count .now)
  | .tryWait, calls => r.polls (calls.count .tryWait)
  | .sleep _, _ => ()
  | .readStderr, _ => r.stderr
  | .kill, _ => r.killed
  | .wait, _ => r.reaped

/-- The trace as the runner's oracle; its state is the record of the calls. -/
def oracle : Oracle ProcessCall ProcessCall.Reply (List ProcessCall) := fun call calls =>
  (r.answer call calls, calls ++ [call])

/-- One of the polls made reported an exit. -/
def ExitObserved (calls : List ProcessCall) : Prop :=
  ∃ k < calls.count .tryWait, ∃ status, r.polls k = .ok (some status)

/-- The calls before the `n`-th poll. -/
def head (command : Command) : Nat → List ProcessCall
  | 0 => [.spawn command, .now]
  | n + 1 => head command n ++ [.tryWait, .now, .sleep pollInterval]

/-- A round after which the loop goes on. -/
def Goes (deadline : Instant) (n : Nat) : Prop := r.polls n = .ok none ∧ ¬deadline ≤ r.clock n

/-- How the loop ends in its `n`-th round, and all calls made by then. -/
def ended (command : Command) (n : Nat) : RunOutcome × List ProcessCall :=
  match r.polls n with
  | .ok (some status) =>
      (if status.success then .success else .failed, head command n ++ [.tryWait, .readStderr])
  | .ok none => (.timedOut, head command n ++ [.tryWait, .now, .kill, .wait])
  | .error _ => (.failed, head command n ++ [.tryWait, .kill, .wait])

section Head
variable (command : Command) (n : Nat)

theorem count_tryWait_head : (head command n).count .tryWait = n := by
  induction n with
  | zero => simp [head]
  | succ n ih => simp [head, ih]

theorem count_now_head : (head command n).count .now = n + 1 := by
  induction n with
  | zero => simp [head]
  | succ n ih => simp [head, ih]

theorem not_mem_head : .kill ∉ head command n ∧ .wait ∉ head command n := by
  induction n with
  | zero => simp [head]
  | succ n ih => simp [head, ih]

/-- The poll of a round finds the reply of its number. -/
theorem oracle_tryWait :
    r.oracle .tryWait (head command n) = (r.polls n, head command n ++ [.tryWait]) := by
  simp only [oracle, answer, count_tryWait_head]

/-- So does the reading of the clock. -/
theorem oracle_now : r.oracle .now (head command n ++ [.tryWait]) =
    (r.clock n, head command n ++ [.tryWait, .now]) := by
  have hCount : (head command n ++ [ProcessCall.tryWait]).count ProcessCall.now = n + 1 := by
    rw [List.count_append, count_now_head]
    rfl
  simp only [oracle, answer, hCount, reading, List.append_assoc, List.cons_append, List.nil_append]

end Head

variable {r} {deadline : Instant} {command : Command} {n : Nat}

/-- A round that goes on leads to the head of the next. -/
theorem run_awaitChild_of_goes (h : r.Goes deadline n) (fuel : Nat) :
    Program.run r.oracle (awaitChild deadline (fuel + 1)) (head command n) =
      Program.run r.oracle (awaitChild deadline fuel) (head command (n + 1)) := by
  rw [run_awaitChild_succ, oracle_tryWait, h.1]
  simp only [oracle_now, if_neg h.2]
  simp only [oracle, head, List.append_assoc, List.cons_append, List.nil_append]

/-- A round that does not go on ends the loop. -/
theorem run_awaitChild_of_not_goes (h : ¬r.Goes deadline n) (fuel : Nat) :
    Program.run r.oracle (awaitChild deadline (fuel + 1)) (head command n) =
      (.ok (r.ended command n).1, (r.ended command n).2) := by
  rw [run_awaitChild_succ, oracle_tryWait, ended]
  rcases hPoll : r.polls n with _ | _ | status
  · simp only [oracle, List.append_assoc, List.cons_append, List.nil_append]
  · have hLate : deadline ≤ r.clock n := by
      by_contra hEarly
      exact h ⟨hPoll, hEarly⟩
    simp only [oracle_now, if_pos hLate]
    simp only [oracle, List.append_assoc, List.cons_append, List.nil_append]
  · simp only [oracle, List.append_assoc, List.cons_append, List.nil_append]

/-- The loop ends in the first round after which it does not go on. -/
theorem run_awaitChild_of_first {first fuel : Nat} (hGoes : ∀ k < first, r.Goes deadline k)
    (hEnds : ¬r.Goes deadline first) (hFuel : first + 1 ≤ fuel) :
    Program.run r.oracle (awaitChild deadline fuel) (head command 0) =
      (.ok (r.ended command first).1, (r.ended command first).2) := by
  obtain ⟨left, rfl⟩ := Nat.exists_eq_add_of_le' hFuel
  rw [show left + (first + 1) = left + 1 + first by omega,
    run_awaitChild_add (head command) (fun k hk => run_awaitChild_of_goes (hGoes k hk)),
    run_awaitChild_of_not_goes hEnds]

section First
variable {first : Nat} (hGoes : ∀ k < first, r.Goes deadline k) (hEnds : ¬r.Goes deadline first)
include hGoes hEnds

/-- A success, told from the replies up to the last round. -/
theorem ended_eq_success_iff : (r.ended command first).1 = .success ↔
    ∃ n status, (∀ k < n, r.polls k = .ok none) ∧
      r.polls n = .ok (some status) ∧ status.success = true ∧
      ∀ k < n, ¬deadline ≤ r.clock k := by
  constructor
  · intro hSuccess
    rcases hPoll : r.polls first with _ | _ | status
    · simp [ended, hPoll] at hSuccess
    · simp [ended, hPoll] at hSuccess
    · refine ⟨first, status, fun k hk => (hGoes k hk).1, hPoll, ?_, fun k hk => (hGoes k hk).2⟩
      simpa [ended, hPoll] using hSuccess
  · rintro ⟨n, status, hRunning, hPoll, hStatus, hEarly⟩
    have hFirst : first = n := by
      rcases Nat.lt_trichotomy first n with hLess | hEqual | hMore
      · exact absurd ⟨hRunning first hLess, hEarly first hLess⟩ hEnds
      · exact hEqual
      · have hNone := (hGoes n hMore).1
        rw [hPoll] at hNone
        cases hNone
    rw [hFirst, ended, hPoll]
    exact if_pos hStatus

/-- A timeout, told from the replies up to the last round. -/
theorem ended_eq_timedOut_iff : (r.ended command first).1 = .timedOut ↔
    ∃ n, (∀ k ≤ n, r.polls k = .ok none) ∧ deadline ≤ r.clock n := by
  constructor
  · intro hTimedOut
    rcases hPoll : r.polls first with _ | _ | status
    · simp [ended, hPoll] at hTimedOut
    · refine ⟨first, fun k hk => ?_, ?_⟩
      · rcases Nat.lt_or_eq_of_le hk with hLess | rfl
        · exact (hGoes k hLess).1
        · exact hPoll
      · by_contra hEarly
        exact hEnds ⟨hPoll, hEarly⟩
    · rw [ended, hPoll] at hTimedOut
      dsimp only at hTimedOut
      split at hTimedOut <;> cases hTimedOut
  · rintro ⟨n, hRunning, hLate⟩
    have hFirst : first ≤ n := by
      by_contra hMore
      exact (hGoes n (Nat.lt_of_not_le hMore)).2 hLate
    rw [ended, hRunning first hFirst]

omit hGoes hEnds in
/-- Without an exit seen, the last calls are the `kill` and the `wait`. -/
theorem killedAndReaped_of_ended (h : ¬r.ExitObserved (r.ended command first).2) :
    KilledAndReaped (r.ended command first).2 := by
  obtain ⟨hKill, hWait⟩ := not_mem_head command first
  rcases hPoll : r.polls first with _ | _ | status
  · refine ⟨head command first ++ [.tryWait], by simp [ended, hPoll], ?_, ?_⟩
    · simp [hKill]
    · simp [hWait]
  · refine ⟨head command first ++ [.tryWait, .now], by simp [ended, hPoll], ?_, ?_⟩
    · simp [hKill]
    · simp [hWait]
  · refine absurd ⟨first, ?_, status, hPoll⟩ h
    simp [ended, hPoll, count_tryWait_head]

end First

/-- Once the clock shows the deadline some round is the last. -/
theorem exists_first (hReached : ∃ n, deadline ≤ r.clock n) :
    ∃ first, (∀ k < first, r.Goes deadline k) ∧ ¬r.Goes deadline first := by
  classical
  obtain ⟨n, hLate⟩ := hReached
  have hExists : ∃ n, ¬r.Goes deadline n := ⟨n, fun hGoes => hGoes.2 hLate⟩
  exact ⟨Nat.find hExists, fun k hk => not_not.mp (Nat.find_min hExists hk), Nat.find_spec hExists⟩

/-- With enough fuel the runner returns. It reports a success just where the
first poll that does not find the child running finds a success, with every
reading before it below the deadline, and a timeout just where a reading
reaches the deadline first. Where it has seen no exit, its last calls are the
one `kill` and the one `wait`. The replies of these two and of the read of the
pipe may be anything, but they are taken to come: that a read may wait for good
is not part of this trace. -/
theorem run_classifies (r : Replies) (config : SshdControlConfig) (command : Command)
    (deadline : Instant)
    (hDeadline : r.start.checkedAdd config.commandTimeout = some deadline)
    (hReached : ∃ n, deadline ≤ r.clock n) :
    ∃ enough outcome calls,
      (∀ fuel, enough ≤ fuel →
        Program.run r.oracle (run config command fuel) [] = (.ok outcome, calls)) ∧
      (outcome = .success ↔
        ∃ n status, (∀ k < n, r.polls k = .ok none) ∧
          r.polls n = .ok (some status) ∧ status.success = true ∧
          ∀ k < n, ¬deadline ≤ r.clock k) ∧
      (outcome = .timedOut ↔ ∃ n, (∀ k ≤ n, r.polls k = .ok none) ∧ deadline ≤ r.clock n) ∧
      (¬r.ExitObserved calls → KilledAndReaped calls) := by
  obtain ⟨first, hGoes, hEnds⟩ := exists_first hReached
  refine ⟨first + 1, (r.ended command first).1, (r.ended command first).2, fun fuel hFuel => ?_,
    ended_eq_success_iff hGoes hEnds, ended_eq_timedOut_iff hGoes hEnds, killedAndReaped_of_ended⟩
  rw [run_of_spawned rfl rfl]
  have hStart : (r.oracle .now (r.oracle (.spawn command) []).2).1 = r.start := rfl
  rw [hStart, hDeadline]
  exact run_awaitChild_of_first hGoes hEnds hFuel

/-- A child that never exits, under a clock that shows a second more at every
reading. -/
def hung : Replies where
  start := Instant.reading 0
  polls _ := .ok none
  clock n := Instant.reading (n * nanosPerSec)
  stderr := []
  killed := .ok ()
  reaped := .ok ⟨none⟩

/-- A child that never exits is killed and reaped at the deadline. -/
theorem hung_killed_and_reaped : ∃ enough calls, KilledAndReaped calls ∧ ∀ fuel, enough ≤ fuel →
    Program.run hung.oracle
      (run SshdControlConfig.default ⟨⟨"/usr/sbin/sshd".toList⟩, ["-t".toList]⟩ fuel) [] =
      (.ok .timedOut, calls) := by
  have hLate : Scenario.defaultDeadline ≤ hung.clock 15 := by
    show _ ≤ Instant.reading (15 * nanosPerSec)
    rw [Instant.le_reading_iff]
    decide
  have hDeadline : hung.start.checkedAdd SshdControlConfig.default.commandTimeout =
    some Scenario.defaultDeadline :=
    Scenario.printing_deadline []
  obtain ⟨enough, outcome, calls, hRun, -, hTimedOut, hReaped⟩ :=
    run_classifies hung SshdControlConfig.default ⟨⟨"/usr/sbin/sshd".toList⟩, ["-t".toList]⟩ _
      hDeadline ⟨15, hLate⟩
  have hOutcome := hTimedOut.mpr ⟨15, fun _ _ => rfl, hLate⟩
  refine ⟨enough, calls, hReaped ?_, fun fuel hFuel => ?_⟩
  · rintro ⟨k, -, status, hPoll⟩
    cases hPoll
  · rw [hRun fuel hFuel, hOutcome]

end Replies

end MayflyHelper.SystemSshdControl
