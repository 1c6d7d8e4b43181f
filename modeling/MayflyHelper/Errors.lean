import MayflyHelper.Text.Basic

/-! The crate-wide error type. Messages are fixed and path-free; diagnostic
context goes to the log, which is not modelled. -/
namespace MayflyHelper

/-- The one distinction the helper draws between system-call errors. -/
inductive IoErrorKind where
  | notFound
  | other
  deriving DecidableEq, Repr

/-- Fixed reasons a `TrustedUserCAKeys` entry can be rejected. -/
inductive TrustedCaError where
  | empty
  | malformed
  | disallowedAlgorithm
  | invalidEncoding
  | illegalCharacter
  deriving DecidableEq, Repr

def TrustedCaError.display : TrustedCaError → Text
  | .empty => "entry is empty".toList
  | .malformed => "entry is malformed".toList
  | .disallowedAlgorithm => "key algorithm is not allowed".toList
  | .invalidEncoding => "key data is not valid base64".toList
  | .illegalCharacter => "entry contains illegal characters".toList

inductive Error where
  | io (kind : IoErrorKind)
  | unexpectedSymlink
  | insecureOwnership
  | insecurePermissions
  | invalidPath
  | notRoot
  | invalidTrustedCa (reason : TrustedCaError)
  | helperUnavailable
  | helperProtocol
  | helperUnauthenticated
  | peerCredUnavailable
  | sshdValidationFailed
  | sshdReloadFailed
  | sshdInactive
  deriving DecidableEq, Repr

/-- The user-facing message. The source of an i/o error is not shown. -/
def Error.display : Error → Text
  | .io _ => "filesystem operation failed".toList
  | .unexpectedSymlink => "path failed security validation: unexpected symlink".toList
  | .insecureOwnership => "path failed security validation: insecure ownership".toList
  | .insecurePermissions => "path failed security validation: insecure permissions".toList
  | .invalidPath => "path failed security validation: invalid path".toList
  | .notRoot => "insufficient privileges: root is required".toList
  | .invalidTrustedCa reason => "invalid TrustedUserCAKeys entry: ".toList ++ reason.display
  | .helperUnavailable => "privileged helper socket is unavailable".toList
  | .helperProtocol => "helper protocol error".toList
  | .helperUnauthenticated => "helper rejected the request: unauthenticated".toList
  | .peerCredUnavailable => "could not read socket peer credentials".toList
  | .sshdValidationFailed => "sshd configuration validation failed".toList
  | .sshdReloadFailed => "sshd reload failed".toList
  | .sshdInactive => "sshd is not active".toList

end MayflyHelper
