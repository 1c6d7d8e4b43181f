import MayflyHelper.Acceptance
import MayflyHelper.Sandbox
import MayflyHelper.Validity

/-! What an ok answer to `VerifyState` vouches for. Permissions, contents and
`sshd` are checked; the owner of a managed file is not. -/
namespace MayflyHelper

open OracleProgram

namespace Ownership

/-- Whatever is at `path` is a regular file, with any bytes, bits and owner. -/
def RegularIfPresent (fs : Fs) (path : Path) : Prop :=
  ∀ node, fs.lookup false path = .ok node → node.bytes.isSome = true

/-- Whatever is at `path` belongs to root. -/
def OwnedByRoot (fs : Fs) (path : Path) : Prop :=
  ∀ node, fs.lookup false path = .ok node → node.uid = rootUid

/-- Whatever is at `path` belongs to root, is closed to group and other, and
has acceptable text in it. -/
def Trustworthy (fs : Fs) (path : Path) (accepts : Text → Bool) : Prop :=
  ∀ node, fs.lookup false path = .ok node →
    node.uid = rootUid ∧ node.isExposed = false ∧ ∃ bytes text, node.bytes = some bytes ∧
      Text.fromUtf8 bytes = some text ∧ accepts text = true

/-- An ok answer means that both files are trustworthy, and that validation
and the activity probe were run on them and succeeded. -/
def OkVouches (host : Host) (config : OpsConfig) (w : World) (request : Request) : Prop :=
  (Ops.serve host config w request).1.ok = true →
    Trustworthy (Ops.serve host config w request).2.fs config.trustedCaPath.path Ops.acceptsCa ∧
      Trustworthy (Ops.serve host config w request).2.fs config.dropinPath.path
        (Ops.acceptsDropin config) ∧
      (Ops.serve host config w request).2.events =
        ⟨.isActive, .ok (), w.fs⟩ :: ⟨.validateConfig, .ok (), w.fs⟩ :: w.events

/-- Of a regular file that passes its check only the owner is in doubt. -/
theorem trustworthy_iff {host : Host} {w : World} {path : Path} {accepts : Text → Bool}
    (hPasses : CheckPasses host w path accepts) (hRegular : RegularIfPresent w.fs path) :
    Trustworthy w.fs path accepts ↔ OwnedByRoot w.fs path := by
  constructor
  · intro h node hLookup
    exact (h node hLookup).1
  · intro h node hLookup
    obtain ⟨bytes, hBytes⟩ := Option.isSome_iff_exists.mp (hRegular node hLookup)
    have hFollow := Fs.lookup_follow hLookup (Node.link_of_bytes hBytes)
    rcases hPasses.2 with hAbsent | ⟨-, -, found, hFound, hSound⟩
    · rw [hAbsent] at hFollow
      cases hFollow
    · rw [hLookup] at hFound
      cases hFound
      rw [Node.isSound_of_bytes hBytes, Bool.and_eq_true, Bool.not_eq_true'] at hSound
      obtain ⟨text, hText, hAccepts⟩ := (Option.any_eq_true ..).mp hSound.2
      exact ⟨h node hLookup, hSound.1, bytes, text, hBytes, hText, hAccepts⟩

end Ownership

open Ownership

/-- An ok answer to `VerifyState` vouches for the managed files exactly if they
belong to root, or another of its checks fails. -/
theorem verifyState_vouches_iff (host : Host) (config : OpsConfig) (w : World) (request : Request)
    (hOp : request.op = .verifyState) (hTrusted : RegularIfPresent w.fs config.trustedCaPath.path)
    (hDropin : RegularIfPresent w.fs config.dropinPath.path) :
    OkVouches host config w request ↔
      OwnedByRoot w.fs config.trustedCaPath.path ∧ OwnedByRoot w.fs config.dropinPath.path ∨
        ¬ VerifyPasses host config w := by
  unfold OkVouches
  rw [Ops.serve_verifyState_ok_iff hOp, Ops.serve_verifyState_fs hOp]
  by_cases hPasses : VerifyPasses host config w
  · have hOwner := trustworthy_iff hPasses.dropin hDropin
    rw [World.after_fs] at hOwner
    rw [trustworthy_iff hPasses.trusted hTrusted, hOwner, Ops.serve_verifyState_events hOp hPasses]
    simp [hPasses]
  · simp [hPasses]

namespace Ownership

/-- Keys on disk that nobody but their owner can write. -/
def keysOwnedBy (uid : Nat) : Node :=
  ⟨.regular (Text.asBytes "ssh-ed25519 AAAA\n".toList), 0o644, uid⟩

def verify : Request := ⟨protocolVersion, [], .verifyState, none⟩

theorem lookup_keysOwnedBy :
    (Fs.withTrustedCa (keysOwnedBy 0)).lookup false OpsConfig.default.trustedCaPath.path =
      .ok (keysOwnedBy 0) ∧
      (Fs.withTrustedCa (keysOwnedBy 1000)).lookup false OpsConfig.default.trustedCaPath.path =
        .ok (keysOwnedBy 1000) ∧
      (Fs.withTrustedCa (keysOwnedBy 0)).lookup false OpsConfig.default.dropinPath.path =
        .error .notFound := by
  decide +kernel

end Ownership

/-- Root's keys and no drop-in: an ok answer, and rightly so. -/
theorem verifyState_vouches_iff_root :
    (Ops.serve (Host.sandbox Host.noFailures (fun _ _ _ => .ok ())) OpsConfig.default
        (World.start (Fs.withTrustedCa (keysOwnedBy 0))) verify).1.ok = true ∧
      OkVouches (Host.sandbox Host.noFailures (fun _ _ _ => .ok ())) OpsConfig.default
        (World.start (Fs.withTrustedCa (keysOwnedBy 0))) verify := by
  obtain ⟨hKeys, -, hDropin⟩ := lookup_keysOwnedBy
  refine ⟨by decide, (verifyState_vouches_iff _ _ _ _ rfl ?_ ?_).mpr (Or.inl ⟨?_, ?_⟩)⟩
  · intro node hLookup
    cases hKeys.symm.trans hLookup
    rfl
  · intro node hLookup
    cases hDropin.symm.trans hLookup
  · intro node hLookup
    cases hKeys.symm.trans hLookup
    rfl
  · intro node hLookup
    cases hDropin.symm.trans hLookup

/-- Keys of another user pass as well. -/
theorem verifyState_vouches_for_foreign_keys :
    ¬ OkVouches (Host.sandbox Host.noFailures (fun _ _ _ => .ok ())) OpsConfig.default
      (World.start (Fs.withTrustedCa (keysOwnedBy 1000))) verify := by
  intro h
  have hTrusted := (h (by decide)).1
  rw [Ops.serve_verifyState_fs rfl] at hTrusted
  have hOwner := (hTrusted _ lookup_keysOwnedBy.2.1).1
  exact absurd hOwner (by decide)

end MayflyHelper
