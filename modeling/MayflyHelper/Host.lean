import MayflyHelper.Semantics.Program
import MayflyHelper.Filesystem.Lookup

/-! The host as the helper meets it: filesystem calls, the three `sshd`
controls, and a world that answers them. Which filesystem calls fail, which
temporary names are picked and what `sshd` reports are left open. -/
namespace MayflyHelper

open OracleProgram

/-- The kinds of filesystem call, for scheduling failures. -/
inductive FsKind where
  | pathExists
  | isDir
  | mkdir
  | lstat
  | chmod
  | read
  | createTemp
  | fchmod
  | write
  | fsync
  | dropTemp
  | rename
  | fsyncDir
  | unlink
  deriving DecidableEq, Repr

/-- A `tempfile::NamedTempFile`: the open file and the entry it was created
as. Nobody else knows the name, so handle and entry stay together. -/
structure TempFile where
  loc : Loc
  deriving DecidableEq, Repr

/-- `write` is the whole of a `write_all`, and `read` that of a `read_to_end`;
a `write_all` of no bytes makes no call at all. -/
inductive FsCall where
  | pathExists (path : Path)
  | isDir (path : Path)
  | mkdir (path : Path)
  | lstat (path : Path)
  | chmod (path : Path) (mode : Nat)
  | read (path : Path)
  | createTemp (dir : Path)
  | fchmod (tmp : TempFile) (mode : Nat)
  | write (tmp : TempFile) (bytes : Bytes)
  | fsync (tmp : TempFile)
  | dropTemp (tmp : TempFile)
  | rename (src : TempFile) (dst : Path)
  | fsyncDir (dir : Path)
  | unlink (path : Path)
  deriving DecidableEq

namespace FsCall

def kind : FsCall → FsKind
  | .pathExists _ => .pathExists
  | .isDir _ => .isDir
  | .mkdir _ => .mkdir
  | .lstat _ => .lstat
  | .chmod _ _ => .chmod
  | .read _ => .read
  | .createTemp _ => .createTemp
  | .fchmod _ _ => .fchmod
  | .write _ _ => .write
  | .fsync _ => .fsync
  | .dropTemp _ => .dropTemp
  | .rename _ _ => .rename
  | .fsyncDir _ => .fsyncDir
  | .unlink _ => .unlink

@[reducible]
def Reply : FsCall → Type
  | .pathExists _ => Bool
  | .isDir _ => Bool
  | .lstat _ => Except IoErrorKind Node
  | .read _ => Except IoErrorKind Bytes
  | .createTemp _ => Except IoErrorKind TempFile
  | .dropTemp _ => Unit
  | _ => Except IoErrorKind Unit

/-- What a failing call reports. A failure never claims that a file is
missing: `notFound` is an answer about the tree. -/
def failed : (call : FsCall) → call.Reply
  | .pathExists _ => false
  | .isDir _ => false
  | .mkdir _ => .error .other
  | .lstat _ => .error .other
  | .chmod _ _ => .error .other
  | .read _ => .error .other
  | .createTemp _ => .error .other
  | .fchmod _ _ => .error .other
  | .write _ _ => .error .other
  | .fsync _ => .error .other
  | .dropTemp _ => ()
  | .rename _ _ => .error .other
  | .fsyncDir _ => .error .other
  | .unlink _ => .error .other

end FsCall

/-- The three controls of the `SshdControl` seam. -/
inductive SshdCall where
  | validateConfig
  | reload
  | isActive
  deriving DecidableEq, Repr

/-- The names `tempfile` makes up begin like this. -/
def tempPrefix : Name := ".tmp".toList

/-- How the host settles what the tree does not: names of temporary files,
modes of new directories, the schedule of failing calls, and `sshd`. The
number is how many calls of that kind came before; a schedule by ordinals can
follow any history, and `sshd` may also look at the files. -/
structure Host where
  umask : Nat
  tempName : Nat → (fs : Fs) → (dir : Loc) →
    {name : Name // tempPrefix.isPrefixOf name ∧ fs.node (name :: dir) = none}
  fails : FsKind → Nat → Bool
  sshd : Nat → Fs → SshdCall → Except Error Unit

/-- The effective user of the helper, who owns what it creates. -/
def rootUid : Nat := 0

namespace FsCall

/-- Act on the entry a lookup ended at, or report the lookup's error. -/
def atEntry (resolved : Fs.Resolved) (fs : Fs)
    (act : Loc → Except IoErrorKind Unit × Fs) : Except IoErrorKind Unit × Fs :=
  match resolved with
  | ⟨_, some kind⟩ => (.error kind, fs)
  | ⟨loc, none⟩ => act loc

/-- The effect of a call that is not made to fail. Calls may still report an
error because of what the tree looks like. -/
def perform (host : Host) (ordinal : Nat) : (call : FsCall) → Fs → call.Reply × Fs
  | .pathExists path, fs => ((fs.lookup true path).isOk, fs)
  | .isDir path, fs => (((fs.lookup true path).toOption.any Node.isDir), fs)
  | .mkdir path, fs =>
      atEntry (fs.resolve false path) fs fun loc =>
        if (fs.node loc).isSome then (.error .other, fs)
        else if fs.CanPut loc then
          (.ok (), fs.put loc ⟨.directory, 0o777 - (0o777 &&& host.umask), rootUid⟩)
        else (.error .notFound, fs)
  | .lstat path, fs => (fs.lookup false path, fs)
  | .chmod path mode, fs =>
      atEntry (fs.resolve true path) fs fun loc =>
        if (fs.node loc).isSome then (.ok (), fs.setMode loc mode) else (.error .notFound, fs)
  | .read path, fs =>
      ((fs.lookup true path).bind fun node =>
        match node.bytes with
        | some bytes => .ok bytes
        -- A directory cannot be read; of a special file no contents are modelled.
        | none => .error .other, fs)
  | .createTemp dir, fs =>
      match fs.resolve true dir with
      | ⟨_, some kind⟩ => (.error kind, fs)
      | ⟨loc, none⟩ =>
          if fs.isDir loc then
            let name := (host.tempName ordinal fs loc).val
            (.ok ⟨name :: loc⟩, fs.put (name :: loc) ⟨.regular [], 0o600, rootUid⟩)
          else (.error (fs.obstacle loc), fs)
  | .fchmod tmp mode, fs => (.ok (), fs.setMode tmp.loc mode)
  | .write tmp bytes, fs =>
      match fs.node tmp.loc with
      | some node =>
          (.ok (), fs.put tmp.loc { node with kind := .regular (node.bytes.getD [] ++ bytes) })
      | none => (.error .other, fs)
  | .fsync _, fs => (.ok (), fs)
  | .dropTemp tmp, fs => ((), fs.remove tmp.loc)
  | .rename src dst, fs =>
      atEntry (fs.resolve false dst) fs fun loc =>
        match fs.node src.loc with
        | none => (.error .notFound, fs)
        | some node =>
            if loc = src.loc then (.ok (), fs)
            else if fs.CanPut loc then (.ok (), (fs.put loc node).remove src.loc)
            else (.error .other, fs)
  | .fsyncDir dir, fs => ((fs.lookup true dir).map (fun _ => ()), fs)
  | .unlink path, fs =>
      atEntry (fs.resolve false path) fs fun loc =>
        match fs.node loc with
        | none => (.error .notFound, fs)
        | some node => if node.isDir then (.error .other, fs) else (.ok (), fs.remove loc)

end FsCall

inductive Call where
  | fs (call : FsCall)
  | sshd (call : SshdCall)
  deriving DecidableEq

@[reducible]
def Call.Reply : Call → Type
  | .fs call => call.Reply
  | .sshd _ => Except Error Unit

/-- One `sshd` command as it was issued: its result and the files at that
moment. -/
structure SshdEvent where
  call : SshdCall
  result : Except Error Unit
  fs : Fs

/-- The host's state: the tree, how many filesystem calls of each kind were
made, and the `sshd` commands so far, latest first. -/
structure World where
  fs : Fs
  count : FsKind → Nat
  events : List SshdEvent

/-- The world after a filesystem call of the given kind. -/
def World.advance (w : World) (kind : FsKind) (fs : Fs) : World :=
  { w with fs, count := fun k => if k = kind then w.count k + 1 else w.count k }

/-- The world after an `sshd` command; the files are as they were. -/
def World.record (w : World) (call : SshdCall) (result : Except Error Unit) : World :=
  { w with events := ⟨call, result, w.fs⟩ :: w.events }

namespace Host

/-- Dropping a temporary file is the one call that cannot be made to fail. -/
def failsAt (host : Host) (call : FsCall) (ordinal : Nat) : Bool :=
  call.kind != .dropTemp && host.fails call.kind ordinal

def oracle (host : Host) : Oracle Call Call.Reply World
  | .fs call, w =>
      if host.failsAt call (w.count call.kind) then (call.failed, w.advance call.kind w.fs)
      else
        let outcome := call.perform host (w.count call.kind) w.fs
        (outcome.1, w.advance call.kind outcome.2)
  | .sshd call, w =>
      let result := host.sshd w.events.length w.fs call
      (result, w.record call result)

end Host

abbrev HostProgram (Result : Type) : Type := Program Call Call.Reply Result

/-- A helper operation: it may stop early with an error. -/
abbrev Action (Result : Type) : Type := Fallible Call Call.Reply Error Result

namespace FsCall

/-- A call whose error is mapped to `Error::Io`. -/
def io {Value : Type} (call : HostProgram (Except IoErrorKind Value)) : Action Value :=
  ExceptT.mk (do
    match ← call with
    | .ok value => pure (.ok value)
    | .error kind => pure (.error (.io kind)))

end FsCall

def fsCall (call : FsCall) : HostProgram call.Reply := Program.call (Call.fs call)

def sshdCall (call : SshdCall) : Action Unit := ExceptT.mk (Program.call (Call.sshd call))

/-- A pure result used as an operation. -/
def liftExcept {Value : Type} (result : Except Error Value) : Action Value :=
  ExceptT.mk (pure result)

/-- Run an operation and hand its result, failures included, to the caller. -/
def attempt {Value : Type} (action : Action Value) : HostProgram (Except Error Value) := action.run

end MayflyHelper
