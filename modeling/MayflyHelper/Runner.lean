import MayflyHelper.SshdControl
import MayflyHelper.Text.Numeral

/-! Running a command under a deadline. The deadline is an unchecked sum, so
a timeout that is accepted can be too large to add. -/
namespace MayflyHelper

open OracleProgram Clock

namespace SshdControlConfig

/-- The environment asks for a timeout of `secs` seconds. -/
def Requested (getEnv : Text → Option Text) (secs : Nat) : Prop :=
  ∃ value, getEnv timeoutVariable = some value ∧ Text.IsNumeralOf (Text.trim value) secs ∧
    0 < secs ∧ secs < 2 ^ 64

theorem requested_iff (getEnv : Text → Option Text) (secs : Nat) :
    ((getEnv timeoutVariable).bind
        (fun value => Text.parseUnsigned (2 ^ 64) (Text.trim value))).filter (fun secs =>
          0 < secs) = some secs ↔
      Requested getEnv secs := by
  rw [Option.filter_eq_some_iff, Option.bind_eq_some_iff]
  have hBound : 0 < 2 ^ 64 := by decide
  simp only [Text.parseUnsigned_eq_some hBound, decide_eq_true_eq, Requested]
  constructor
  · rintro ⟨⟨value, hSet, hNumeral, hBound⟩, hPositive⟩
    exact ⟨value, hSet, hNumeral, hPositive, hBound⟩
  · rintro ⟨value, hSet, hNumeral, hPositive, hBound⟩
    exact ⟨⟨value, hSet, hNumeral, hBound⟩, hPositive⟩

theorem commandTimeout_of_requested {getEnv : Text → Option Text} {secs : Nat}
    (h : Requested getEnv secs) :
    (fromEnv getEnv).commandTimeout = .fromSecs (UInt64.ofNat secs) := by
  simp only [fromEnv, (requested_iff getEnv secs).mpr h]

theorem commandTimeout_of_not_requested {getEnv : Text → Option Text}
    (h : ¬∃ secs, Requested getEnv secs) :
    (fromEnv getEnv).commandTimeout = defaultCommandTimeout := by
  rw [fromEnv]
  split
  · rename_i secs hSecs
    exact absurd ⟨secs, (requested_iff getEnv secs).mp hSecs⟩ h
  · rfl

end SshdControlConfig

namespace SystemSshdControl

theorem run_call {State : Type} (oracle : Oracle ProcessCall ProcessCall.Reply State)
    (call : ProcessCall)
    (state : State) : Program.run oracle (Program.call call) state = oracle call state := rfl

/-- One round of the loop, whatever answers its calls. -/
theorem run_awaitChild_succ {State : Type} (oracle : Oracle ProcessCall ProcessCall.Reply State)
    (deadline : Instant) (fuel : Nat) (state : State) :
    Program.run oracle (awaitChild deadline (fuel + 1)) state =
      match oracle .tryWait state with
      | (.ok (some status), polled) =>
          (.ok (if status.success then .success else .failed), (oracle .readStderr polled).2)
      | (.ok none, polled) =>
          if deadline ≤ (oracle .now polled).1 then
            (.ok .timedOut, (oracle .wait (oracle .kill (oracle .now polled).2).2).2)
          else Program.run oracle (awaitChild deadline fuel)
            (oracle (.sleep pollInterval) (oracle .now polled).2).2
      | (.error _, polled) => (.ok .failed, (oracle .wait (oracle .kill polled).2).2) := by
  rw [awaitChild, Program.run_bind, tryWait, run_call]
  rcases oracle .tryWait state with ⟨_ | _ | status, polled⟩
  · rfl
  · show Program.run oracle (now >>= _) polled = _
    rw [Program.run_bind, now, run_call]
    by_cases hLate : deadline ≤ (oracle .now polled).1
    · simp only [if_pos hLate]
      rfl
    · simp only [if_neg hLate]
      rfl
  · show Program.run oracle (readChildStderr >>= _) polled = _
    rw [Program.run_bind]
    dsimp only
    cases status.success <;> rfl

/-- The rounds that find the child running before its deadline, in a row. -/
theorem run_awaitChild_add {State : Type} {oracle : Oracle ProcessCall ProcessCall.Reply State}
    {deadline : Instant}
    (head : Nat → State) {rounds : Nat}
    (hGoes : ∀ k < rounds, ∀ fuel, Program.run oracle (awaitChild deadline (fuel + 1)) (head k) =
      Program.run oracle (awaitChild deadline fuel) (head (k + 1))) (fuel : Nat) :
    Program.run oracle (awaitChild deadline (fuel + rounds)) (head 0) =
      Program.run oracle (awaitChild deadline fuel) (head rounds) := by
  induction rounds generalizing fuel with
  | zero => rfl
  | succ rounds ih =>
      have hPrior := ih (fun k hk => hGoes k (Nat.lt_succ_of_lt hk)) (fuel + 1)
      rw [← Nat.add_assoc, Nat.add_right_comm, hPrior]
      exact hGoes rounds (Nat.lt_succ_self rounds) fuel

/-- The loop has nothing to panic. -/
theorem awaitChild_ne_panicked {State : Type} (oracle : Oracle ProcessCall ProcessCall.Reply State)
    (deadline : Instant) (fuel : Nat) (state : State) :
    (Program.run oracle (awaitChild deadline fuel) state).1 ≠ .error .panicked := by
  induction fuel generalizing state with
  | zero => simp [awaitChild]
  | succ fuel ih =>
      rw [run_awaitChild_succ]
      rcases oracle .tryWait state with ⟨_ | _ | status, polled⟩
      · simp
      · by_cases hLate : deadline ≤ (oracle .now polled).1
        · simp [hLate]
        · simp only [if_neg hLate]
          exact ih _
      · simp

/-- Whatever the world, a command spawned when the clock shows `start` does
not end in a panic. -/
def NeverPanics (config : SshdControlConfig) (start : Instant) : Prop :=
  ∀ (State : Type) (oracle : Oracle ProcessCall ProcessCall.Reply State) (state : State)
    (command : Command)
    (fuel : Nat), (oracle (.spawn command) state).1 = .ok () →
      (oracle .now (oracle (.spawn command) state).2).1 = start →
        (Program.run oracle (run config command fuel) state).1 ≠ .error .panicked

/-- A world where the clock stands still and every command succeeds. -/
def still (start : Instant) : Oracle ProcessCall ProcessCall.Reply Unit
  | .spawn _, _ => (.ok (), ())
  | .now, _ => (start, ())
  | .tryWait, _ => (.ok (some ⟨some 0⟩), ())
  | .sleep _, _ => ((), ())
  | .readStderr, _ => ([], ())
  | .kill, _ => (.ok (), ())
  | .wait, _ => (.ok ⟨some 0⟩, ())

theorem run_of_spawned {State : Type} {oracle : Oracle ProcessCall ProcessCall.Reply State}
    {state : State}
    {config : SshdControlConfig} {command : Command} {start : Instant}
    (hSpawn : (oracle (.spawn command) state).1 = .ok ())
    (hStart : (oracle .now (oracle (.spawn command) state).2).1 = start) (fuel : Nat) :
    Program.run oracle (run config command fuel) state =
      Program.run oracle (match start.checkedAdd config.commandTimeout with
        | none => pure (.error .panicked)
        | some deadline =>
            awaitChild deadline fuel) (oracle .now (oracle (.spawn command) state).2).2 := by
  rw [run, Program.run_bind, spawn, run_call, hSpawn]
  show Program.run oracle (now >>= _) _ = _
  rewrite [Program.run_bind, now, run_call, hStart]
  rfl

theorem neverPanics_iff (config : SshdControlConfig) (start : Instant) :
    NeverPanics config start ↔ (start.checkedAdd config.commandTimeout).isSome = true := by
  constructor
  · intro hNever
    have hStill := hNever Unit (still start) () ⟨config.sshdBinary, []⟩ 0 rfl rfl
    have hNow : (still start .now ()).1 = start := rfl
    rw [run_of_spawned rfl hNow] at hStill
    cases hSum : start.checkedAdd config.commandTimeout with
    | none =>
        rw [hSum] at hStill
        exact absurd rfl hStill
    | some deadline => rfl
  · intro hSome State oracle state command fuel hSpawn hStart
    obtain ⟨deadline, hSum⟩ := Option.isSome_iff_exists.mp hSome
    rw [run_of_spawned hSpawn hStart, hSum]
    exact awaitChild_ne_panicked oracle deadline fuel _

/-- No command panics just when the clock, in whole seconds, is further from
the end of its range than the timeout that was asked for, or than the default
where none was. -/
theorem accepted_timeout_neverPanics_iff (getEnv : Text → Option Text) (start : Instant) :
    NeverPanics (SshdControlConfig.fromEnv getEnv) start ↔
      (∀ secs, SshdControlConfig.Requested getEnv secs → start.secs + secs < 2 ^ 63) ∧
        ((¬∃ secs, SshdControlConfig.Requested getEnv secs) → start.secs + 15 < 2 ^ 63) := by
  rw [neverPanics_iff]
  by_cases hRequested : ∃ secs, SshdControlConfig.Requested getEnv secs
  · obtain ⟨secs, hSecs⟩ := hRequested
    have hOnly : ∀ other, SshdControlConfig.Requested getEnv other → other = secs := by
      intro other hOther
      rw [← SshdControlConfig.requested_iff] at hOther hSecs
      exact Option.some.inj (hOther.symm.trans hSecs)
    have hValue : (UInt64.ofNat secs).toNat = secs := by
      obtain ⟨-, -, -, -, hBound⟩ := hSecs
      exact UInt64.toNat_ofNat_of_lt hBound
    rw [SshdControlConfig.commandTimeout_of_requested hSecs,
      Instant.isSome_checkedAdd_fromSecs, hValue]
    constructor
    · intro hSum
      refine ⟨fun other hOther => ?_, fun hNone => absurd ⟨secs, hSecs⟩ hNone⟩
      rw [hOnly other hOther]
      exact hSum
    · rintro ⟨hAll, -⟩
      exact hAll secs hSecs
  · have hDefault : (15 : UInt64).toNat = 15 := rfl
    rw [SshdControlConfig.commandTimeout_of_not_requested hRequested, defaultCommandTimeout,
      Instant.isSome_checkedAdd_fromSecs, hDefault]
    constructor
    · intro hSum
      exact ⟨fun secs hSecs => absurd ⟨secs, hSecs⟩ hRequested, fun _ => hSum⟩
    · rintro ⟨-, hSum⟩
      exact hSum hRequested

/-- The largest value that is accepted, one second after the clock started. -/
theorem largest_timeout_panics :
    ¬NeverPanics (SshdControlConfig.fromEnv fun name =>
        if name = SshdControlConfig.timeoutVariable then some "18446744073709551615".toList
        else none)
      ⟨1, 0, by decide, by decide, by decide⟩ := by
  rw [neverPanics_iff]
  decide

end SystemSshdControl

end MayflyHelper
