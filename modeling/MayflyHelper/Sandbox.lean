import MayflyHelper.HostRules
import MayflyHelper.Protocol

/-! A host to run the helper on: an empty tree, and calls that fail and `sshd`
commands that answer as they are told. -/
namespace MayflyHelper

namespace Fs

/-- A tree with nothing but its root. -/
def bare : Fs where
  node := fun loc => if loc = [] then some ⟨.directory, 0o755, rootUid⟩ else none
  cwd := []
  root := rfl
  nested := by
    intro name dir hNode
    simp at hNode
  bounded := ⟨0, by simp⟩

/-- The bare tree with a main `sshd` configuration in it. -/
def withMainConfig (mainText : Text) : Fs :=
  ((bare.put ["etc".toList] ⟨.directory, 0o755, rootUid⟩).put
      ["ssh".toList, "etc".toList] ⟨.directory, 0o755, rootUid⟩).put
    ["sshd_config".toList, "ssh".toList, "etc".toList]
      ⟨.regular (Text.asBytes mainText), 0o644, rootUid⟩

/-- The bare tree with a trusted-CA file in it. -/
def withTrustedCa (file : Node) : Fs :=
  (((bare.put ["etc".toList] ⟨.directory, 0o755, rootUid⟩).put
      ["ssh".toList, "etc".toList] ⟨.directory, 0o755, rootUid⟩).put
      ["mayfly".toList, "ssh".toList, "etc".toList] ⟨.directory, 0o755, rootUid⟩).put
    ["trusted_user_ca_keys".toList, "mayfly".toList, "ssh".toList, "etc".toList] file

/-- The names in use are bounded, so there is always another one. -/
theorem exists_tempName (fs : Fs) (dir : Loc) :
    ∃ name, tempPrefix.isPrefixOf name = true ∧ fs.node (name :: dir) = none := by
  obtain ⟨bound, hBound⟩ := fs.bounded
  refine ⟨tempPrefix ++ List.replicate bound 'x', ?_, hBound _ _ (by simp)⟩
  simp

end Fs

namespace Host

/-- The first name tried for a temporary file. -/
def firstTempName : Name := ".tmpAAAAAA".toList

noncomputable def sandbox (fails : FsKind → Nat → Bool)
    (sshd : Nat → Fs → SshdCall → Except Error Unit) : Host where
  umask := 0o022
  tempName := fun _ fs dir =>
    if h : fs.node (firstTempName :: dir) = none then ⟨firstTempName, rfl, h⟩
    else ⟨_, (fs.exists_tempName dir).choose_spec⟩
  fails := fails
  sshd := sshd

/-- Calls that never fail. -/
def noFailures : FsKind → Nat → Bool := fun _ _ => false

theorem sandbox_reliable (sshd : Nat → Fs → SshdCall → Except Error Unit) :
    (sandbox noFailures sshd).Reliable := fun _ _ => rfl

end Host

namespace Sandbox

/-- The `Include` of a stock main configuration. -/
def stockMain : Text := "Include /etc/ssh/sshd_config.d/*.conf\n".toList

def firstKeys : Text := "ssh-ed25519 AAAA\n".toList

def otherKeys : Text := "ssh-ed25519 BBBB\n".toList

def applyRequest (content : Text) : Request :=
  ⟨protocolVersion, [], .applyTrustedCaKeys, some content⟩

def installRequest : Request := ⟨protocolVersion, [], .installSshdDropin, none⟩

end Sandbox

/-- A world before any call. -/
def World.start (fs : Fs) : World := { fs, count := fun _ => 0, events := [] }

namespace Sandbox

/-- The first keys are on disk, readable by their owner only. -/
def keysOnDisk : World :=
  World.start (Fs.withTrustedCa ⟨.regular (Text.asBytes firstKeys), 0o600, rootUid⟩)

/-- `sshd` rejects the first configuration it is shown. -/
noncomputable def rejecting : Host :=
  Host.sandbox Host.noFailures fun n _ _ => if n = 0 then .error .sshdValidationFailed else .ok ()

end Sandbox

end MayflyHelper
