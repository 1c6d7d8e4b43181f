import MayflyHelper.Semantics.History
import MayflyHelper.DispatchRules

/-! The transcript of a request: its calls with the replies it got. What a
request may call next depends on the transcript alone, so the rules hold in
every world, whatever other processes do between two calls. -/
namespace MayflyHelper

open OracleProgram

/-- The calls of a request with their replies, latest first. -/
abbrev Transcript : Type := History Call Call.Reply

/-- The calls made before a managed file is touched: looks, and those that
make a managed directory and set its mode. -/
def Call.Looks : Call → Prop
  | .fs (.pathExists _) => True
  | .fs (.isDir _) => True
  | .fs (.mkdir _) => True
  | .fs (.lstat _) => True
  | .fs (.chmod _ _) => True
  | .fs (.read _) => True
  | _ => False

/-- `lstat` found no link, or nothing at all. -/
def NoLink : Except IoErrorKind Node → Prop
  | .ok node => ∀ target, node.kind ≠ .symlink target
  | .error kind => kind = .notFound

/-- What a read that did not fail tells of the file. -/
inductive ReadAs : Except IoErrorKind Bytes → Option Bytes → Prop where
  | bytes (bytes : Bytes) : ReadAs (.ok bytes) (some bytes)
  | missing : ReadAs (.error .notFound) none

namespace Transcript

def fs (call : FsCall) (reply : call.Reply) : Replied Call Call.Reply := ⟨.fs call, reply⟩

def sshd (call : SshdCall) (reply : Except Error Unit) : Replied Call Call.Reply :=
  ⟨.sshd call, reply⟩

/-- Nothing but looks and the preparing of directories so far. -/
def Looked (past : Transcript) : Prop := ∀ event ∈ past, event.call.Looks

/-- The latest reply to a read of `path`. -/
def lastRead (path : Path) : Transcript → Option (Except IoErrorKind Bytes)
  | [] => none
  | ⟨.fs (.read other), reply⟩ :: past => if other = path then some reply else lastRead path past
  | _ :: past => lastRead path past

/-- A temporary file with its mode and its bytes, on disk. -/
def staged (dir : Path) (tmp : TempFile) (bytes : Bytes) : Transcript :=
  [fs (.fsync tmp) (.ok ()), fs (.write tmp bytes) (.ok ()),
    fs (.fchmod tmp Security.modePublic) (.ok ()),
    fs (.createTemp dir) (.ok tmp)]

/-- A file staged and renamed into place, durably. -/
def published (dir path : Path) (tmp : TempFile) (bytes : Bytes) : Transcript :=
  fs (.fsyncDir dir) (.ok ()) :: fs (.rename tmp path) (.ok ()) :: staged dir tmp bytes

/-- The three controls, all of them successful. -/
def controlled : Transcript :=
  [sshd .isActive (.ok ()), sshd .reload (.ok ()), sshd .validateConfig (.ok ())]

/-- The controls up to the first that fails, whose error is reported. -/
inductive Controls : Except Error Unit → Transcript → Prop where
  | passed : Controls (.ok ()) controlled
  | invalid (err : Error) : Controls (.error err) [sshd .validateConfig (.error err)]
  | unloaded (err : Error) :
      Controls (.error err) [sshd .reload (.error err), sshd .validateConfig (.ok ())]
  | inactive (err : Error) :
      Controls (.error err)
        [sshd .isActive (.error err), sshd .reload (.ok ()), sshd .validateConfig (.ok ())]

/-- The file was put back, or removed where there was none. -/
inductive Restored (path : Path) : Option Bytes → Transcript → Prop where
  | written (dir : Path) (tmp : TempFile) (bytes : Bytes) :
      Restored path (some bytes) (published dir path tmp bytes)
  | removed : Restored path none [fs (.unlink path) (.ok ())]
  | gone : Restored path none [fs (.unlink path) (.error .notFound)]

/-- A call that leaves every name but that of the temporary file alone, and
`sshd` too. -/
def Spares : Replied Call Call.Reply → Prop
  | ⟨.fs (.rename _ _), reply⟩ => reply ≠ .ok ()
  | ⟨.fs (.unlink _), reply⟩ => reply ≠ .ok ()
  | ⟨.fs _, _⟩ => True
  | ⟨.sshd _, _⟩ => False

/-- One of the calls that fill a temporary file failed. -/
inductive FillFailed (tmp : TempFile) : Replied Call Call.Reply → Prop where
  | fchmod (kind : IoErrorKind) :
      FillFailed tmp (fs (.fchmod tmp Security.modePublic) (.error kind))
  | write (bytes : Bytes) (kind : IoErrorKind) :
      FillFailed tmp (fs (.write tmp bytes) (.error kind))
  | fsync (kind : IoErrorKind) : FillFailed tmp (fs (.fsync tmp) (.error kind))

/-- How a write fails: before the file has its name, or when that is to be made
durable. -/
inductive Broken (path : Path) (bytes : Bytes) : Transcript → Prop where
  | spared (new : Transcript) (h : ∀ event ∈ new, Spares event) : Broken path bytes new
  | unsynced (dir : Path) (tmp : TempFile) (kind : IoErrorKind) :
      Broken path bytes
        (fs (.fsyncDir dir) (.error kind) :: fs (.rename tmp path) (.ok ()) :: staged dir tmp bytes)

/-- What is done after a control has failed. How the controls turn out the
second time is not reported. -/
inductive Undone (path : Path) (previous : Option Bytes) : Transcript → Prop where
  | checked (result : Except Error Unit) (controls restored : Transcript)
      (hControls : Controls result controls)
      (h : Restored path previous restored) : Undone path previous (controls ++ restored)
  | broken (bytes : Bytes) (new : Transcript) (hPrevious : previous = some bytes)
      (h : Broken path bytes new) :
      Undone path previous new
  | stuck (kind : IoErrorKind) (hPrevious : previous = none) (hKind : kind ≠ .notFound) :
      Undone path previous [fs (.unlink path) (.error kind)]

/-- How the transcript of a writing request ends, with what it reports. -/
inductive Ending (update : Update) : Except Error Outcome → Transcript → Prop where
  | refused (err : Error) {past : Transcript} (h : Looked past) : Ending update (.error err) past
  | current {past : Transcript} (hLooked : Looked past) (found : Except IoErrorKind Bytes)
      (previous : Option Bytes) (hRead : lastRead update.path past = some found)
      (hFound : ReadAs found previous)
      (hCurrent : update.Current previous) : Ending update (.ok .notModified) past
  | done {past : Transcript} (hLooked : Looked past) (dir : Path) (tmp : TempFile) :
      Ending update (.ok update.done)
        (controlled ++ published dir update.path tmp update.contents ++ past)
  | broken (err : Error) {past : Transcript} (hLooked : Looked past) (new : Transcript)
      (h : Broken update.path update.contents new) : Ending update (.error err) (new ++ past)
  | undone (err : Error) {past : Transcript} (hLooked : Looked past) (dir : Path) (tmp : TempFile)
      (found : Except IoErrorKind Bytes) (previous : Option Bytes)
      (hRead : lastRead update.path past = some found) (hFound : ReadAs found previous)
      (controls undo : Transcript) (hControls : Controls (.error err) controls)
      (hUndone : Undone update.path previous undo) :
      Ending update (.error err)
        (undo ++ controls ++ published dir update.path tmp update.contents ++ past)

end Transcript

open Transcript

/-- What a writing request has to have found before it may write. -/
def Request.Cleared (config : OpsConfig) (request : Request) (past : Transcript) : Prop :=
  match request.op with
  | .installSshdDropin => ∃ bytes text, fs (.read config.mainSshdConfig.path) (.ok bytes) ∈ past ∧
      Text.fromUtf8 bytes = some text ∧
      SshdConfig.includesDropinDir (Text.trimEnd text) SshdConfig.dropinDir = true
  | .applyTrustedCaKeys =>
      ∃ content, request.content = some content ∧ (TrustedCaKeys.parse content).isOk = true
  | _ => False

/-- The bytes a request may write at this point: its own, if it has only looked
so far, found them out of date, and just now seen that the file is no link and
read what it will go back to; or, right after a control has failed, those it
read last before it wrote. -/
inductive Due (config : OpsConfig) (request : Request) (update : Update) :
    Transcript → Bytes → Prop where
  | fresh {past : Transcript} (seen : Except IoErrorKind Node) (hLink : NoLink seen)
      (kept : Except IoErrorKind Bytes) (previous : Option Bytes) (hKept : ReadAs kept previous)
      (hLooked : Looked past) (hCleared : request.Cleared config past)
      (found : Except IoErrorKind Bytes) (shown : Option Bytes)
      (hFound : fs (.read update.path) found ∈ fs (.read update.path) kept :: past)
      (hShown : ReadAs found shown)
      (hStale : ¬ update.Current shown) :
      Due config request update
        (fs (.read update.path) kept :: fs (.lstat update.path) seen :: past) update.contents
  | restore {past : Transcript} (call : SshdCall) (err : Error) (bytes : Bytes)
      (hRead : lastRead update.path past = some (.ok bytes)) :
      Due config request update (sshd call (.error err) :: past) bytes

/-- The paths a request reads. -/
def OpsConfig.consulted (config : OpsConfig) : List Path :=
  [config.trustedCaPath.path, config.dropinPath.path, config.mainSshdConfig.path]

/-- The rules: which call may follow which transcript. Looking comes first. -/
inductive Permitted (config : OpsConfig) (request : Request) : Transcript → Call → Prop where
  | pathExists {past : Transcript} {dir : Path} (hPast : Looked past) (h : dir ∈ config.parents) :
      Permitted config request past (.fs (.pathExists dir))
  | mkdir {past : Transcript} {dir path : Path} (hPast : Looked past) (h : dir ∈ config.parents)
      (hPath : path ∈ dir.ancestors) (hAbsent : fs (.pathExists dir) false ∈ past) :
      Permitted config request past (.fs (.mkdir path))
  | isDir {past : Transcript} {path : Path} {kind : IoErrorKind} (hPast : Looked past) :
      Permitted config request (fs (.mkdir path) (.error kind) :: past) (.fs (.isDir path))
  | lstat {past : Transcript} {path : Path} (hPast : Looked past)
      (h : path ∈ config.parents ∨ path = config.trustedCaPath.path ∨
        path = config.dropinPath.path) :
      Permitted config request past (.fs (.lstat path))
  | chmod {past : Transcript} {dir : Path} {seen : Except IoErrorKind Node} (hPast : Looked past)
      (h : dir ∈ config.parents) (hLink : NoLink seen) :
      Permitted config request (fs (.lstat dir) seen :: past) (.fs (.chmod dir dirMode))
  | read {past : Transcript} {path : Path} (hPast : Looked past) (h : path ∈ config.consulted) :
      Permitted config request past (.fs (.read path))
  | createTemp {past : Transcript} {update : Update} {dir : Path} {bytes : Bytes}
      (hUpdate : request.update config = some update) (hDir : update.path.parent = some dir)
      (hDue : Due config request update past bytes) : Permitted config request past
      (.fs (.createTemp dir))
  | fchmod {past : Transcript} {dir : Path} {tmp : TempFile} :
      Permitted config request (fs (.createTemp dir) (.ok tmp) :: past)
        (.fs (.fchmod tmp Security.modePublic))
  | write {past : Transcript} {update : Update} {dir : Path} {tmp : TempFile} {bytes : Bytes}
      (hUpdate : request.update config = some update)
      (hDue : Due config request update past bytes) :
      Permitted config request
        (fs (.fchmod tmp Security.modePublic) (.ok ()) :: fs (.createTemp dir) (.ok tmp) :: past)
        (.fs (.write tmp bytes))
  | fsync {past : Transcript} {tmp : TempFile} {bytes : Bytes} :
      Permitted config request (fs (.write tmp bytes) (.ok ()) :: past) (.fs (.fsync tmp))
  | dropTemp {past : Transcript} {tmp : TempFile} {event : Replied Call Call.Reply}
      (h : FillFailed tmp event) :
      Permitted config request (event :: past) (.fs (.dropTemp tmp))
  | rename {past : Transcript} {update : Update} {dir : Path} {tmp : TempFile} {bytes : Bytes}
      (hUpdate : request.update config = some update) (hDir : update.path.parent = some dir) :
      Permitted config request (staged dir tmp bytes ++ past) (.fs (.rename tmp update.path))
  | fsyncDir {past : Transcript} {path dir : Path} {tmp : TempFile}
      (hDir : path.parent = some dir) :
      Permitted config request (fs (.rename tmp path) (.ok ()) :: past) (.fs (.fsyncDir dir))
  | unlink {past : Transcript} {update : Update} {call : SshdCall} {err : Error}
      (hUpdate : request.update config = some update)
      (hRead : lastRead update.path past = some (.error .notFound)) :
      Permitted config request (sshd call (.error err) :: past) (.fs (.unlink update.path))
  | validate {past : Transcript} {update : Update} {dir : Path} {tmp : TempFile} {bytes : Bytes}
      (hUpdate : request.update config = some update) :
      Permitted config request (published dir update.path tmp bytes ++ past) (.sshd .validateConfig)
  | revalidate {past : Transcript} {update : Update} {reply : Except IoErrorKind Unit}
      (hUpdate : request.update config = some update)
      (hReply : reply = .ok () ∨ reply = .error .notFound) :
      Permitted config request (fs (.unlink update.path) reply :: past) (.sshd .validateConfig)
  | verify {past : Transcript} (hOp : request.op = .verifyState) (hPast : Looked past) :
      Permitted config request past (.sshd .validateConfig)
  | reload {past : Transcript} {update : Update} (hUpdate : request.update config = some update) :
      Permitted config request (sshd .validateConfig (.ok ()) :: past) (.sshd .reload)
  | reloaded {past : Transcript} : Permitted config request (sshd .reload (.ok ()) :: past)
      (.sshd .isActive)
  | verified {past : Transcript} (hOp : request.op = .verifyState) :
      Permitted config request (sshd .validateConfig (.ok ()) :: past) (.sshd .isActive)

end MayflyHelper
