import MayflyHelper.Errors

/-! Parsing and validation of the `TrustedUserCAKeys` file: one key per line,
blank lines and `#` comment lines ignored. Validation is structural. -/
namespace MayflyHelper

/-- Algorithms permitted for a trusted CA key. `ssh-dss` is excluded. -/
def allowedAlgorithms : List Text :=
  ["ssh-ed25519".toList,
    "ssh-rsa".toList,
    "rsa-sha2-256".toList,
    "rsa-sha2-512".toList,
    "ecdsa-sha2-nistp256".toList,
    "ecdsa-sha2-nistp384".toList,
    "ecdsa-sha2-nistp521".toList,
    "sk-ssh-ed25519@openssh.com".toList,
    "sk-ecdsa-sha2-nistp256@openssh.com".toList]

def isBase64Char (b : UInt8) : Bool :=
  (0x30 ≤ b && b ≤ 0x39) || (0x41 ≤ b && b ≤ 0x5a) || (0x61 ≤ b && b ≤ 0x7a) ||
    b == 0x2b || b == 0x2f

def paddingByte : UInt8 := 0x3d

/-- Standard padded base64, checked on the UTF-8 bytes: padding is counted
from the end and every byte is then checked by its index. -/
def isValidBase64 (s : Text) : Bool :=
  let bytes := Text.asBytes s
  if s.isEmpty || bytes.length % 4 != 0 then false
  else
    let padding := (bytes.reverse.takeWhile (· == paddingByte)).length
    if padding > 2 then false
    else
      let bodyLen := bytes.length - padding
      bytes.zipIdx.all (fun entry =>
        if entry.2 ≥ bodyLen then entry.1 == paddingByte else isBase64Char entry.1) &&
        decide (bodyLen > 0)

/-- A single trusted CA public key. -/
structure CaPublicKey where
  algorithm : Text
  keyData : Text
  comment : Option Text
  deriving DecidableEq, Repr

/-- Everything after the first two fields, if anything is left. -/
def collectComment (line algorithm keyData : Text) : Option Text := do
  let afterAlgo := Text.trimStart (← Text.stripPrefix algorithm (Text.trimStart line))
  let afterKey := Text.trim (← Text.stripPrefix keyData afterAlgo)
  if afterKey.isEmpty then none else some afterKey

namespace CaPublicKey

/-- Parse and validate a single non-empty key line. -/
def parse (line : Text) : Except TrustedCaError CaPublicKey :=
  if line.any Text.isControl then .error .illegalCharacter
  else
    let trimmed := Text.trim line
    if trimmed.isEmpty then .error .empty
    else
      match Text.splitWhitespace trimmed with
      | algorithm :: keyData :: _ =>
          if !allowedAlgorithms.contains algorithm then .error .disallowedAlgorithm
          else if !isValidBase64 keyData then .error .invalidEncoding
          else .ok { algorithm, keyData, comment := collectComment trimmed algorithm keyData }
      | _ => .error .malformed

/-- The canonical single line of a key. -/
def render (key : CaPublicKey) : Text :=
  match key.comment with
  | some comment => key.algorithm ++ ' ' :: key.keyData ++ ' ' :: comment
  | none => key.algorithm ++ ' ' :: key.keyData

end CaPublicKey

/-- The validated contents of a trusted-CA file, in file order. -/
structure TrustedCaKeys where
  keys : List CaPublicKey
  deriving DecidableEq, Repr

namespace TrustedCaKeys

/-- Lines the parser skips: blank, or a comment once trimmed. -/
def ignored (line : Text) : Bool :=
  (Text.trim line).isEmpty || Text.startsWith (Text.trim line) '#'

def parseLines : List Text → Except Error (List CaPublicKey)
  | [] => pure []
  | line :: rest =>
      if ignored line then parseLines rest
      else do
        let key ← (CaPublicKey.parse line).mapError Error.invalidTrustedCa
        let keys ← parseLines rest
        pure (key :: keys)

def parse (contents : Text) : Except Error TrustedCaKeys := do
  let keys ← parseLines (Text.lines contents)
  pure { keys }

/-- Canonical file contents, one key per line. -/
def render (file : TrustedCaKeys) : Text :=
  file.keys.flatMap (fun key => key.render ++ ['\n'])

end TrustedCaKeys
end MayflyHelper
