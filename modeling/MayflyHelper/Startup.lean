import MayflyHelper.Server
import MayflyHelper.Transaction

/-! Start-up: the settings of the socket and the capability token. The token
file is checked before it is read, so that nobody but root can have chosen the
token, and nobody outside its group can have read it. -/
namespace MayflyHelper

open OracleProgram

namespace Security

/-- Validate the owner of `path`, not following a link. -/
def validateOwner (path : Path) (expectedUid : Nat) : Action Unit := do
  let node ← FsCall.io (fsCall (.lstat path))
  if node.uid ≠ expectedUid then throw .insecureOwnership
  pure ()

def ensureOwnedByRoot (path : Path) : Action Unit := validateOwner path rootUid

/-- Validate that no permission bit is set outside `allowedMode`. The
complement is that of a 32-bit word. -/
def validateModeAtMost (path : Path) (allowedMode : Nat) : Action Unit := do
  let node ← FsCall.io (fsCall (.lstat path))
  let mode := node.mode &&& 0o777
  if mode &&& (2 ^ 32 - 1 - (allowedMode &&& 0o777)) ≠ 0 then throw .insecurePermissions
  pure ()

/-- A file of root's that is no link and has no permission bit but the allowed
ones. -/
structure Trusted (allowedMode : Nat) (node : Node) : Prop where
  link : node.link = none
  uid : node.uid = rootUid
  mode : (node.mode &&& 0o777) &&& (2 ^ 32 - 1 - (allowedMode &&& 0o777)) = 0

end Security

namespace Startup

def defaultSocketPath : PathBuf := ⟨"/run/mayfly/helper.sock".toList⟩

def defaultTokenPath : PathBuf := ⟨"/etc/mayfly-agent/helper.token".toList⟩

/-- Minimum acceptable length of the token, in bytes. -/
def minTokenLen : Nat := 32

def socketPath (environment : Environment) : PathBuf :=
  ((environment.var "MAYFLY_HELPER_SOCKET_PATH".toList).map PathBuf.mk).getD defaultSocketPath

def tokenPath (environment : Environment) : PathBuf :=
  ((environment.var "MAYFLY_HELPER_TOKEN_PATH".toList).map PathBuf.mk).getD defaultTokenPath

/-- The group to own the socket. A value that does not parse counts as unset. -/
def socketGid (environment : Environment) : Option UInt32 :=
  ((environment.var "MAYFLY_HELPER_SOCKET_GID".toList).bind
    fun value => Text.parseUnsigned (2 ^ 32) (Text.trim value)).map UInt32.ofNat

/-- `std::fs::read_to_string`. What is no UTF-8 is an i/o error. -/
def readToString (path : Path) : Action Text := do
  let bytes ← FsCall.io (fsCall (.read path))
  match Text.fromUtf8 bytes with
  | some text => pure text
  | none => throw (.io .other)

/-- Load the capability token, once the token file is found trustworthy. -/
def loadToken (environment : Environment) : Action Text := do
  let path := (tokenPath environment).path
  Security.ensureNotSymlink path
  Security.ensureOwnedByRoot path
  Security.validateModeAtMost path 0o640
  let text ← readToString path
  let token := Text.trim text
  if token.isEmpty then throw .helperUnauthenticated
  if (Text.asBytes token).length < minTokenLen then throw .helperUnauthenticated
  pure token

/-- No device, pipe or socket is at the token path. What a read of one gives is
not settled here. -/
def NoSpecial (fs : Fs) (path : Path) : Prop :=
  ∀ node, fs.lookup false path = .ok node → node.kind ≠ .special

/-- A token file as it should be: a regular file of root's that others cannot
touch and its group can at most read, with a token of some length in it. -/
structure TokenFile (fs : Fs) (path : Path) (token : Text) : Prop where
  found : ∃ node bytes text, fs.lookup false path = .ok node ∧ node.kind = .regular bytes ∧
    node.uid = rootUid ∧ node.mode &&& 0o137 = 0 ∧ Text.fromUtf8 bytes = some text ∧
    token = Text.trim text
  long : minTokenLen ≤ (Text.asBytes token).length

end Startup

section Checks

variable {host : Host} {w : World} {path : Path}

namespace Security

/-- A check of the metadata looks once. -/
theorem run_inspect (host : Host) (w : World) (path : Path) (refuse : Node → Prop)
    [DecidablePred refuse]
    (err : Error) :
    Program.run host.oracle (ExceptT.run (do
        let node ← FsCall.io (fsCall (.lstat path))
        if refuse node then throw err
        pure () : Action Unit)) w =
      (if host.fails .lstat (w.count .lstat) then .error (.io .other)
        else match w.fs.lookup false path with
          | .error kind => .error (.io kind)
          | .ok node => if refuse node then .error err else .ok (), w.after [.lstat] w.fs) := by
  rw [Fallible.run_bind, run_io, Ops.run_lstat]
  cases host.fails .lstat (w.count .lstat) with
  | true => rfl
  | false =>
      simp only [Bool.false_eq_true, if_false]
      cases w.fs.lookup false path with
      | error kind => rfl
      | ok node =>
          simp only [Except.mapError]
          split <;> rfl

/-- The check passes just if the call does not fail and finds nothing to
refuse. -/
theorem run_inspect_eq_ok_iff {w' : World} {refuse : Node → Prop} [DecidablePred refuse]
    {err : Error} :
    Program.run host.oracle (ExceptT.run (do
        let node ← FsCall.io (fsCall (.lstat path))
        if refuse node then throw err
        pure () : Action Unit)) w = (.ok (), w') ↔
      host.fails .lstat (w.count .lstat) = false ∧
        (∃ node, w.fs.lookup false path = .ok node ∧ ¬refuse node) ∧
        w' = w.after [.lstat] w.fs := by
  rw [run_inspect, Prod.mk.injEq, eq_comm (a := w')]
  cases host.fails .lstat (w.count .lstat) with
  | true => simp
  | false =>
      cases w.fs.lookup false path with
      | error kind => simp
      | ok node => by_cases hRefuse : refuse node <;> simp [hRefuse]

theorem run_ensureNotSymlink_eq_ok {w' : World}
    (h : Program.run host.oracle (ensureNotSymlink path).run w = (.ok (), w')) :
    host.fails .lstat (w.count .lstat) = false ∧ w.fs.NotLink path ∧
      w' = w.after [.lstat] w.fs := by
  obtain ⟨result, hRun, hLink⟩ := Ops.run_ensureNotSymlink host w path
  have hEq := hRun.symm.trans h
  cases hEq
  refine ⟨?_, hLink rfl, rfl⟩
  cases hFails : host.fails .lstat (w.count .lstat) with
  | false => rfl
  | true =>
      rw [ensureNotSymlink, Fallible.run_bind, Ops.run_isSymlink, hFails] at hRun
      cases hRun

/-- What comes after the three checks runs just if none of the three calls fails
and the file is to be trusted. -/
theorem run_checked_eq_ok_iff {Value : Type} {allowedMode : Nat} {rest : Action Value}
    {value : Value} {w' : World} :
    Program.run host.oracle (ExceptT.run (do
        ensureNotSymlink path
        ensureOwnedByRoot path
        validateModeAtMost path allowedMode
        rest)) w = (.ok value, w') ↔
      (∃ node, w.fs.lookup false path = .ok node ∧ Trusted allowedMode node) ∧
        (∀ n < 3, host.fails .lstat (w.count .lstat + n) = false) ∧
        Program.run host.oracle rest.run (w.after [.lstat, .lstat, .lstat] w.fs) =
          (.ok value, w') := by
  have hThree : ∀ P : Nat → Prop, (∀ n < 3, P n) ↔ P 0 ∧ P 1 ∧ P 2 := by
    intro P
    constructor
    · intro h
      exact ⟨h 0 (by decide), h 1 (by decide), h 2 (by decide)⟩
    · rintro ⟨hZero, hOne, hTwo⟩ n hn
      match n, hn with
      | 0, _ => exact hZero
      | 1, _ => exact hOne
      | 2, _ => exact hTwo
  rw [hThree]
  constructor
  · intro hRun
    obtain ⟨w₁, hNoLink, hRest⟩ := Fallible.run_seq_eq_ok_iff.mp hRun
    obtain ⟨hFirst, hNotLink, rfl⟩ := run_ensureNotSymlink_eq_ok hNoLink
    obtain ⟨w₂, hOwner, hRest⟩ := Fallible.run_seq_eq_ok_iff.mp hRest
    obtain ⟨hSecond, ⟨node, hLookup, hUid⟩, rfl⟩ := run_inspect_eq_ok_iff.mp hOwner
    obtain ⟨w₃, hMode, hRest⟩ := Fallible.run_seq_eq_ok_iff.mp hRest
    obtain ⟨hThird, ⟨other, hOther, hBits⟩, rfl⟩ := run_inspect_eq_ok_iff.mp hMode
    obtain rfl : node = other := Except.ok.inj (hLookup.symm.trans hOther)
    obtain ⟨hFound, hNode⟩ : _ ∧ w.fs.node (w.fs.entry path) = some node :=
      Fs.lookup_eq_ok_iff.mp hLookup
    have hLink := hNotLink hFound
    rw [Fs.link, hNode] at hLink
    exact ⟨⟨node, hLookup, hLink, not_not.mp hUid, not_not.mp hBits⟩,
      ⟨hFirst, hSecond, hThird⟩, by simpa using hRest⟩
  · rintro ⟨⟨node, hLookup, hTrusted⟩, ⟨hFirst, hSecond, hThird⟩, hRest⟩
    refine Fallible.run_seq_eq_ok_iff.mpr
      ⟨_, Ops.run_ensureNotSymlink_ok hFirst hLookup hTrusted.link, ?_⟩
    refine Fallible.run_seq_eq_ok_iff.mpr ⟨_, run_inspect_eq_ok_iff.mpr
      ⟨hSecond, ⟨node, hLookup, not_not.mpr hTrusted.uid⟩, rfl⟩, ?_⟩
    refine Fallible.run_seq_eq_ok_iff.mpr ⟨_, run_inspect_eq_ok_iff.mpr
      ⟨hThird, ⟨node, hLookup, not_not.mpr hTrusted.mode⟩, rfl⟩, ?_⟩
    simpa using hRest

end Security

namespace Startup

theorem run_read (host : Host) (w : World) (path : Path) :
    Program.run host.oracle (FsCall.io (fsCall (.read path))).run w =
      (if host.fails .read (w.count .read) then .error (.io .other)
        else ((w.fs.lookup true path).bind fun node =>
          match node.bytes with
          | some bytes => .ok bytes
          | none => .error .other).mapError Error.io, w.after [.read] w.fs) := by
  rw [run_io]
  cases hFails : host.fails .read (w.count .read) with
  | true => rw [run_fails (.read path) (by simpa [Host.failsAt, FsCall.kind] using hFails)]; rfl
  | false =>
      rw [run_performs (.read path) (by simpa [Host.failsAt, FsCall.kind] using hFails) rfl]; rfl

theorem run_readToString_eq_ok_iff {text : Text} {w' : World} :
    Program.run host.oracle (readToString path).run w = (.ok text, w') ↔
      host.fails .read (w.count .read) = false ∧
        (∃ bytes, w.fs.Reads path (some bytes) ∧ Text.fromUtf8 bytes = some text) ∧
          w' = w.after [.read] w.fs := by
  unfold readToString
  rw [Fallible.run_bind, run_read]
  cases host.fails .read (w.count .read) with
  | true => simp
  | false =>
      cases hLookup : w.fs.lookup true path with
      | error kind => simp [Fs.Reads, hLookup, Except.bind, Except.mapError]
      | ok node =>
          cases hBytes : node.bytes with
          | none => simp [Fs.Reads, hLookup, hBytes, Except.bind, Except.mapError]
          | some bytes =>
              cases hText : Text.fromUtf8 bytes with
              | none => simp [Fs.Reads, hLookup, hBytes, hText, Except.bind, Except.mapError]
              | some found =>
                  simp [Fs.Reads, hLookup, hBytes, hText, Except.bind, Except.mapError, eq_comm]

/-- The bits outside `0640`. -/
theorem mode_at_most_iff (mode : Nat) :
    (mode &&& 0o777) &&& (2 ^ 32 - 1 - (0o640 &&& 0o777)) = 0 ↔ mode &&& 0o137 = 0 := by
  rw [Nat.and_assoc]
  rfl

/-- Only the length counts: what is empty is also too short. -/
theorem run_accept_eq_ok_iff {text token : Text} {w' : World} :
    Program.run host.oracle (ExceptT.run (do
        if (Text.trim text).isEmpty then throw .helperUnauthenticated
        if (Text.asBytes (Text.trim text)).length < minTokenLen then throw .helperUnauthenticated
        pure (Text.trim text) : Action Text)) w = (.ok token, w') ↔
      token = Text.trim text ∧ minTokenLen ≤ (Text.asBytes token).length ∧ w' = w := by
  by_cases hShort : (Text.asBytes (Text.trim text)).length < minTokenLen
  · have hNot : ¬(token = Text.trim text ∧ minTokenLen ≤ (Text.asBytes token).length ∧ w' = w) := by
      rintro ⟨rfl, hLong, -⟩
      omega
    refine iff_of_false ?_ hNot
    rw [if_pos hShort]
    split <;> exact fun h => by cases h
  · have hFilled : ¬(Text.trim text).isEmpty = true := by
      intro hEmpty
      rw [List.isEmpty_iff.mp hEmpty] at hShort
      exact hShort (by decide)
    rw [if_neg hFilled, if_neg hShort]
    constructor
    · rintro h
      cases h
      exact ⟨rfl, Nat.le_of_not_lt hShort, rfl⟩
    · rintro ⟨rfl, -, rfl⟩
      rfl

omit host in
/-- What is no link and no special file, and could be read, is a regular file. -/
theorem regular_of_reads (hSpecial : NoSpecial w.fs path) {node : Node} {bytes : Bytes}
    (hLookup : w.fs.lookup false path = .ok node) (hLink : node.link = none)
    (hReads : w.fs.Reads path (some bytes)) : node.kind = .regular bytes := by
  obtain ⟨-, hNode⟩ := Fs.lookup_eq_ok_iff.mp hLookup
  have hEntry : w.fs.link (w.fs.entry path) = none := by
    rw [Fs.link, Fs.entry, hNode]
    exact hLink
  obtain ⟨found, hFound, -, -, hBytes⟩ := hReads.lookup hEntry
  obtain rfl : node = found := Except.ok.inj (hLookup.symm.trans hFound)
  obtain ⟨kind, mode, uid⟩ := node
  cases kind with
  | regular contents =>
      cases hBytes
      rfl
  | directory => cases hBytes
  | symlink target => cases hLink
  | special => exact absurd rfl (hSpecial _ hLookup)

/-- A token is loaded just from a token file as it should be, and if none of
the four calls fails. -/
theorem run_loadToken_eq_ok_iff {environment : Environment} {token : Text} {w' : World}
    (hSpecial : NoSpecial w.fs (tokenPath environment).path) :
    Program.run host.oracle (loadToken environment).run w = (.ok token, w') ↔
      TokenFile w.fs (tokenPath environment).path token ∧
        (∀ n < 3, host.fails .lstat (w.count .lstat + n) = false) ∧
          host.fails .read (w.count .read) = false ∧
        w' = w.after [.read, .lstat, .lstat, .lstat] w.fs := by
  constructor
  · intro hRun
    obtain ⟨⟨node, hLookup, hTrusted⟩, hLooks, hRest⟩ := Security.run_checked_eq_ok_iff.mp hRun
    obtain ⟨text, w₄, hRead, hRest⟩ := Fallible.run_bind_eq_ok hRest
    obtain ⟨hReadable, ⟨bytes, hReads, hText⟩, rfl⟩ := run_readToString_eq_ok_iff.mp hRead
    obtain ⟨hToken, hLong, rfl⟩ := run_accept_eq_ok_iff.mp hRest
    have hKind := regular_of_reads hSpecial hLookup hTrusted.link hReads
    refine ⟨⟨⟨node, bytes, text, hLookup, hKind, hTrusted.uid, ?_, hText, hToken⟩, hLong⟩,
      hLooks, hReadable, by simp⟩
    exact (mode_at_most_iff _).mp hTrusted.mode
  · rintro ⟨⟨⟨node, bytes, text, hLookup, hKind, hUid, hMode, hText, hToken⟩, hLong⟩,
      hLooks, hReadable, rfl⟩
    have hNoLink : node.link = none := by simp [Node.link, hKind]
    refine Security.run_checked_eq_ok_iff.mpr
      ⟨⟨node, hLookup, hNoLink, hUid, (mode_at_most_iff _).mpr hMode⟩, hLooks, ?_⟩
    refine Fallible.run_bind_eq_ok_iff.mpr ⟨text, _, run_readToString_eq_ok_iff.mpr
      ⟨hReadable, ⟨bytes, ?_, hText⟩, rfl⟩, run_accept_eq_ok_iff.mpr ⟨hToken, hLong, by simp⟩⟩
    obtain ⟨hFound, hNode⟩ := Fs.lookup_eq_ok_iff.mp hLookup
    have hEntry : w.fs.node (w.fs.entry (tokenPath environment).path) = some node := hNode
    refine Fs.reads_of_found hFound ?_ ?_
    · simp [Fs.link, hEntry, hNoLink]
    · simp [Fs.bytesAt, hEntry, Node.bytes, hKind]

end Startup

end Checks

end MayflyHelper
