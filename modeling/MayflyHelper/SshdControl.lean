import MayflyHelper.Host
import MayflyHelper.Semantics.Clock

/-! The `sshd` control seam, the one place that executes programs. A command
is spawned with nothing on its standard input and output, polled until it
exits or its time is up, and judged by its exit status. -/
namespace MayflyHelper

open OracleProgram Clock

/-- The default bound for one command. -/
def defaultCommandTimeout : Duration := .fromSecs 15

/-- How often a spawned child is polled. -/
def pollInterval : Duration := .fromMillis 10

inductive RunOutcome where
  | success
  | failed
  | timedOut
  deriving DecidableEq, Repr

structure SshdControlConfig where
  sshdBinary : PathBuf
  systemctlBinary : PathBuf
  serviceName : Text
  commandTimeout : Duration

namespace SshdControlConfig

def default : SshdControlConfig :=
  { sshdBinary := ⟨"/usr/sbin/sshd".toList⟩
    systemctlBinary := ⟨"/usr/bin/systemctl".toList⟩
    serviceName := "ssh".toList
    commandTimeout := defaultCommandTimeout }

def timeoutVariable : Text := "MAYFLY_HELPER_SSHD_TIMEOUT_SECS".toList

/-- Zero and whatever does not parse count as unset. -/
def fromEnv (getEnv : Text → Option Text) : SshdControlConfig :=
  { sshdBinary :=
      ((getEnv "MAYFLY_HELPER_SSHD_BINARY".toList).map PathBuf.mk).getD default.sshdBinary
    systemctlBinary :=
      ((getEnv "MAYFLY_HELPER_SYSTEMCTL_BINARY".toList).map PathBuf.mk).getD default.systemctlBinary
    serviceName := (getEnv "MAYFLY_HELPER_SERVICE_NAME".toList).getD default.serviceName
    commandTimeout :=
      match ((getEnv timeoutVariable).bind (fun value =>
          Text.parseUnsigned (2 ^ 64) (Text.trim value))).filter (fun secs => 0 < secs) with
      | some secs => .fromSecs (UInt64.ofNat secs)
      | none => default.commandTimeout }

end SshdControlConfig

/-- A program with its arguments. No shell is involved. -/
structure Command where
  program : PathBuf
  args : List Text
  deriving DecidableEq, Repr

/-- How a child ended; a child that a signal ended has no code. -/
structure ExitStatus where
  code : Option Nat
  deriving DecidableEq, Repr

def ExitStatus.success (status : ExitStatus) : Bool := status.code == some 0

inductive ProcessCall where
  | spawn (command : Command)
  | now
  | tryWait
  | sleep (span : Duration)
  | readStderr
  | kill
  | wait

abbrev ProcessCall.Reply : ProcessCall → Type
  | .spawn _ => Except IoErrorKind Unit
  | .now => Instant
  | .tryWait => Except IoErrorKind (Option ExitStatus)
  | .sleep _ => Unit
  | .readStderr => Bytes
  | .kill => Except IoErrorKind Unit
  | .wait => Except IoErrorKind ExitStatus

abbrev ProcessProgram (Result : Type) : Type := Program ProcessCall ProcessCall.Reply Result

/-- How a run of the runner ends that does not return: an addition panics, or
the fuel of the model is used up. -/
inductive Stopped where
  | panicked
  | outOfFuel
  deriving DecidableEq, Repr

namespace SystemSshdControl

def spawn (command : Command) : ProcessProgram (Except IoErrorKind Unit) :=
  Program.call (ProcessCall.spawn command)

def now : ProcessProgram Instant := Program.call ProcessCall.now

def tryWait : ProcessProgram (Except IoErrorKind (Option ExitStatus)) :=
  Program.call ProcessCall.tryWait

def sleep (span : Duration) : ProcessProgram Unit := Program.call (ProcessCall.sleep span)

def readStderr : ProcessProgram Bytes := Program.call ProcessCall.readStderr

def kill : ProcessProgram (Except IoErrorKind Unit) := Program.call ProcessCall.kill

def wait : ProcessProgram (Except IoErrorKind ExitStatus) := Program.call ProcessCall.wait

/-- Drain the captured output of a child, for the log only. What is not UTF-8
is lost. -/
def readChildStderr : ProcessProgram Text := do
  let bytes ← readStderr
  pure ((Text.fromUtf8 bytes).getD [])

/-- The polling loop. -/
def awaitChild (deadline : Instant) : Nat → ProcessProgram (Except Stopped RunOutcome)
  | 0 => pure (.error .outOfFuel)
  | fuel + 1 => do
      match ← tryWait with
      | .ok (some status) => do
          let _ ← readChildStderr
          if status.success then pure (.ok .success) else pure (.ok .failed)
      | .ok none => do
          let reading ← now
          if deadline ≤ reading then do
            let _ ← kill
            let _ ← wait
            pure (.ok .timedOut)
          else do
            sleep pollInterval
            awaitChild deadline fuel
      | .error _ => do
          let _ ← kill
          let _ ← wait
          pure (.ok .failed)

/-- Run a command to its end or to the end of its time. -/
def run (config : SshdControlConfig) (command : Command) (fuel : Nat) :
    ProcessProgram (Except Stopped RunOutcome) := do
  match ← spawn command with
  | .error _ => pure (.ok .failed)
  | .ok () => do
      let start ← now
      match start.checkedAdd config.commandTimeout with
      | none => pure (.error .panicked)
      | some deadline => awaitChild deadline fuel

/-- Everything but a success is the failure of the control. -/
def verdict (failure : Error) : RunOutcome → Except Error Unit
  | .success => .ok ()
  | .failed => .error failure
  | .timedOut => .error failure

def validateConfig (config : SshdControlConfig) (fuel : Nat) :
    ProcessProgram (Except Stopped (Except Error Unit)) := do
  let ended ← run config ⟨config.sshdBinary, ["-t".toList]⟩ fuel
  pure (ended.map (verdict .sshdValidationFailed))

def reload (config : SshdControlConfig) (fuel : Nat) :
    ProcessProgram (Except Stopped (Except Error Unit)) := do
  let ended ← run config ⟨config.systemctlBinary, ["reload".toList, config.serviceName]⟩ fuel
  pure (ended.map (verdict .sshdReloadFailed))

def isActive (config : SshdControlConfig) (fuel : Nat) :
    ProcessProgram (Except Stopped (Except Error Unit)) := do
  let ended ← run config ⟨config.systemctlBinary, ["is-active".toList, config.serviceName]⟩ fuel
  pure (ended.map (verdict .sshdInactive))

/-- The three controls by name. -/
def control (config : SshdControlConfig) (fuel : Nat) :
    SshdCall → ProcessProgram (Except Stopped (Except Error Unit))
  | .validateConfig => validateConfig config fuel
  | .reload => reload config fuel
  | .isActive => isActive config fuel

end SystemSshdControl

end MayflyHelper
