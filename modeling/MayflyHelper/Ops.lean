import MayflyHelper.PeerCred
import MayflyHelper.Protocol
import MayflyHelper.Security
import MayflyHelper.Ssh.SshdConfig
import MayflyHelper.Ssh.TrustedCa

/-! The privileged operations. Each is a program over the host's calls, so
every failure leaves the world as the calls before it left it. -/
namespace MayflyHelper

open OracleProgram

/-- Mode for the managed directories. -/
def dirMode : Nat := 0o755

/-- Filesystem locations the helper manages. -/
structure OpsConfig where
  trustedCaPath : PathBuf
  dropinPath : PathBuf
  mainSshdConfig : PathBuf
  deriving DecidableEq, Repr

namespace OpsConfig

def default : OpsConfig :=
  { trustedCaPath := ⟨"/etc/ssh/mayfly/trusted_user_ca_keys".toList⟩
    dropinPath := ⟨"/etc/ssh/sshd_config.d/90-mayfly.conf".toList⟩
    mainSshdConfig := ⟨"/etc/ssh/sshd_config".toList⟩ }

end OpsConfig

namespace Ops

def pathExists (path : Path) : HostProgram Bool := fsCall (.pathExists path)

/-- A directory that could not be created is fine if it is there. -/
def orIsDir (path : Path) (kind : IoErrorKind) : HostProgram (Except IoErrorKind Unit) := do
  let present : Bool ← fsCall (.isDir path)
  pure (if present then .ok () else .error kind)

/-- `DirBuilder::create` in recursive mode: try the directory itself, on a
missing parent create that first and try again. The components are listed
innermost first. -/
def createDirAllFrom (absolute : Bool) : List Name → HostProgram (Except IoErrorKind Unit)
  | [] =>
      let path : Path := { absolute, components := [], trailing := false }
      if path.isEmpty then pure (.ok ())
      else do
        match ← fsCall (.mkdir path) with
        | .ok () => pure (.ok ())
        | .error .notFound => pure (.error .other)
        | .error kind => orIsDir path kind
  | name :: above => do
      let path : Path := { absolute, components := (name :: above).reverse, trailing := false }
      match ← fsCall (.mkdir path) with
      | .ok () => pure (.ok ())
      | .error .notFound =>
          match ← createDirAllFrom absolute above with
          | .error kind => pure (.error kind)
          | .ok () =>
              match ← fsCall (.mkdir path) with
              | .ok () => pure (.ok ())
              | .error kind => orIsDir path kind
      | .error kind => orIsDir path kind

/-- `std::fs::create_dir_all`. -/
def createDirAll (dir : Path) : HostProgram (Except IoErrorKind Unit) :=
  createDirAllFrom dir.absolute dir.components.reverse

/-- Create `dir` if absent, reject a link, and set safe permissions. -/
def ensureDirectory (dir : Path) : Action Unit := do
  if !(← ExceptT.lift (pathExists dir)) then FsCall.io (createDirAll dir)
  Security.ensureNotSymlink dir
  FsCall.io (fsCall (.chmod dir dirMode))

def ensureParent (path : Path) : Action Unit :=
  match path.parent with
  | some dir => ensureDirectory dir
  | none => pure ()

/-- Read a file's bytes, mapping a missing file to `none`. -/
def readOptional (path : Path) : Action (Option Bytes) :=
  ExceptT.mk (do
    match ← fsCall (.read path) with
    | .ok bytes => pure (.ok (some bytes))
    | .error .notFound => pure (.ok none)
    | .error kind => pure (.error (.io kind)))

/-- Read a file as UTF-8 text without its trailing whitespace. -/
def readOptionalString (path : Path) : Action (Option Text) := do
  match ← readOptional path with
  | none => pure none
  | some bytes =>
      match Text.fromUtf8 bytes with
      | some text => pure (some (Text.trimEnd text))
      | none => throw .helperProtocol

/-- Remove a file, treating a missing file as success. -/
def removeOptional (path : Path) : Action Unit :=
  ExceptT.mk (do
    match ← fsCall (.unlink path) with
    | .ok () => pure (.ok ())
    | .error .notFound => pure (.ok ())
    | .error kind => pure (.error (.io kind)))

def validateReloadVerify : Action Unit := do
  sshdCall .validateConfig
  sshdCall .reload
  sshdCall .isActive

variable (config : OpsConfig)

/-- Ensure that the managed directories exist with safe permissions. -/
def ensureDirectories : Action Unit := do
  ensureParent config.trustedCaPath.path
  ensureParent config.dropinPath.path

def ensureIncludePresent : Action Unit := do
  match ← readOptionalString config.mainSshdConfig.path with
  | some text =>
      if SshdConfig.includesDropinDir text SshdConfig.dropinDir then pure ()
      else throw .sshdValidationFailed
  | none => throw .sshdValidationFailed

/-- The restoring half of a rollback. -/
def restore (path : Path) (previous : Option Bytes) : Action Unit :=
  match previous with
  | some bytes => Security.secureWrite path bytes Security.modePublic
  | none => removeOptional path

/-- Restore a managed file and best-effort reload `sshd`. Failures are only
logged: the caller has already decided that the operation failed. -/
def rollbackPath (path : Path) (previous : Option Bytes) : HostProgram Unit := do
  match ← attempt (restore path previous) with
  | .error _ => pure ()
  | .ok () => do
      let _ ← attempt validateReloadVerify
      pure ()

/-- Validate and reload after a write; a failure rolls the file back and is
then reported. Shared by the two writing operations. -/
def commit (path : Path) (previous : Option Bytes) (outcome : Outcome) : Action Outcome :=
  ExceptT.mk (do
    match ← attempt validateReloadVerify with
    | .ok () => pure (.ok outcome)
    | .error err => do
        rollbackPath path previous
        pure (.error err))

/-- Install or refresh the drop-in, then validate and reload `sshd`. -/
def installSshdDropin : Action Outcome := do
  ensureDirectories config
  ensureIncludePresent config
  let path := config.dropinPath.path
  let desired := SshdConfig.renderDropin config.trustedCaPath
  if (← readOptionalString path) = some (Text.trimEnd desired) then
    return .notModified
  Security.ensureNotSymlink path
  let previous ← readOptional path
  Security.secureWrite path (Text.asBytes desired) Security.modePublic
  commit path previous .ok

/-- Atomically replace `TrustedUserCAKeys` and reload `sshd`. -/
def applyTrustedCaKeys (content : Text) : Action Outcome := do
  let _ ← liftExcept (TrustedCaKeys.parse content)
  ensureDirectories config
  let path := config.trustedCaPath.path
  Security.ensureNotSymlink path
  let previous ← readOptional path
  if previous = some (Text.asBytes content) then
    return .notModified
  Security.secureWrite path (Text.asBytes content) Security.modePublic
  commit path previous .applied

/-- `verify_state` on the trusted-CA file: it must be no link, not be
group/other-writable, and parse. -/
def checkTrustedCa : Action Unit := do
  match ← readOptional config.trustedCaPath.path with
  | none => pure ()
  | some bytes =>
      Security.ensureNotSymlink config.trustedCaPath.path
      Security.ensureNotGroupOrWorldWritable config.trustedCaPath.path
      match Text.fromUtf8 bytes with
      | none => throw .helperProtocol
      | some text =>
          let _ ← liftExcept (TrustedCaKeys.parse text)
          pure ()

/-- `verify_state` on the drop-in: it must match the rendered directive up to
trailing whitespace. -/
def checkDropin : Action Unit := do
  match ← readOptionalString config.dropinPath.path with
  | none => pure ()
  | some onDisk =>
      Security.ensureNotSymlink config.dropinPath.path
      Security.ensureNotGroupOrWorldWritable config.dropinPath.path
      let expected := SshdConfig.renderDropin config.trustedCaPath
      if onDisk ≠ Text.trimEnd expected then throw .sshdValidationFailed
      pure ()

/-- Verify that the managed state is healthy and as expected. -/
def verifyState : Action Unit := do
  checkTrustedCa config
  checkDropin config
  sshdCall .validateConfig
  sshdCall .isActive

def helperVersion : Text := "0.1.0".toList

def toResponse (result : Except Error Unit) (okOutcome : Outcome) : Response :=
  match result with
  | .ok () => Response.success okOutcome
  | .error err => Response.failure .unhealthy err.display

/-- Execute a request. Every failure is mapped to a fixed response. -/
def dispatch (request : Request) : HostProgram Response :=
  match request.op with
  | .ping =>
      pure { ok := true, outcome := .ok, helperVersion := some helperVersion, detail := none }
  | .ensureDirectories => do
      pure (toResponse (← attempt (ensureDirectories config)) .ok)
  | .installSshdDropin => do
      match ← attempt (installSshdDropin config) with
      | .ok outcome => pure (Response.success outcome)
      | .error err => pure (Response.failure .unhealthy err.display)
  | .applyTrustedCaKeys =>
      match request.content with
      | none => pure (Response.failure .rolledBack "missing content".toList)
      | some content => do
          match ← attempt (applyTrustedCaKeys config content) with
          | .ok outcome => pure (Response.success outcome)
          | .error err => pure (Response.failure .rolledBack err.display)
  | .verifyState => do
      pure (toResponse (← attempt (verifyState config)) .ok)

end Ops
end MayflyHelper
