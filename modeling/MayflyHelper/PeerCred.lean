import MayflyHelper.Errors

/-! Kernel peer-credential authentication for the control socket. -/
namespace MayflyHelper

/-- The kernel-reported credentials of a socket peer. Group and process id
only go to the audit log. -/
structure PeerCred where
  uid : UInt32
  deriving DecidableEq, Repr

/-- Which connecting uids the helper will serve. The fields are private to the
crate, so an enforced policy always comes from `enforced` and lists root. -/
structure PeerPolicy where
  allowedUids : List UInt32
  isEnforced : Bool
  root_allowed : isEnforced = true → 0 ∈ allowedUids

namespace PeerPolicy

/-- Enforce uid pinning; root is always implicitly allowed. -/
def enforced (allowedUids : List UInt32) : PeerPolicy :=
  { allowedUids := if allowedUids.contains 0 then allowedUids else allowedUids ++ [0]
    isEnforced := true
    root_allowed := by
      intro _
      split
      · rename_i h
        simpa using h
      · simp }

def unenforced : PeerPolicy := { allowedUids := [], isEnforced := false, root_allowed := by simp }

def authorize (policy : PeerPolicy) (cred : PeerCred) : Except Error Unit :=
  if !policy.isEnforced || policy.allowedUids.contains cred.uid then .ok ()
  else .error .helperUnauthenticated

theorem authorize_isOk (policy : PeerPolicy) (cred : PeerCred) :
    (policy.authorize cred).isOk = true ↔
      policy.isEnforced = false ∨ cred.uid ∈ policy.allowedUids := by
  unfold authorize
  cases policy.isEnforced <;> by_cases hUid : cred.uid ∈ policy.allowedUids <;>
    simp [hUid, Except.isOk, Except.toBool]

/-- The list of an enforced policy is the configured one and root. -/
theorem mem_enforced (allowedUids : List UInt32) (uid : UInt32) :
    uid ∈ (enforced allowedUids).allowedUids ↔ uid ∈ allowedUids ∨ uid = 0 := by
  unfold enforced
  by_cases hRoot : (0 : UInt32) ∈ allowedUids
  · simp only [List.contains_eq_mem, hRoot, decide_true, if_true]
    constructor
    · exact Or.inl
    · rintro (h | rfl)
      · exact h
      · exact hRoot
  · simp [hRoot]

end PeerPolicy
end MayflyHelper
