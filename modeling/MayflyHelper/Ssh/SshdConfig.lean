import MayflyHelper.Filesystem.Path

/-! Rendering and inspection of the `TrustedUserCAKeys` drop-in. Nothing here
touches the host. -/
namespace MayflyHelper.SshdConfig

/-- The sshd configuration keyword this daemon manages. -/
def directiveKeyword : Text := "TrustedUserCAKeys".toList

/-- The drop-in directory OpenSSH includes by default. -/
def dropinDir : Text := "/etc/ssh/sshd_config.d".toList

/-- The drop-in file name this daemon manages. -/
def dropinFilename : Text := "90-mayfly.conf".toList

/-- The canonical directive line, without a newline. -/
def renderDirective (trustedCaPath : PathBuf) : Text :=
  directiveKeyword ++ ' ' :: trustedCaPath.text

/-- The full managed drop-in body. -/
def renderDropin (trustedCaPath : PathBuf) : Text :=
  "# Managed by mayfly-agent. Do not edit; changes are overwritten.\n".toList ++
    "# Configures the Mayfly-managed OpenSSH user-certificate trust anchor.\n".toList ++
    renderDirective trustedCaPath ++ ['\n']

/-- Lines both inspectors skip. -/
def skipped (trimmed : Text) : Bool := trimmed.isEmpty || Text.startsWith trimmed '#'

/-- The directory part of an `Include` pattern; a pattern without a slash
stands for itself. -/
def patternDir (pattern : Text) : Text :=
  ((Text.rsplitOnce (· == '/') pattern).map Prod.fst).getD pattern

/-- Whether one line is an `Include` of the directory `needle`. -/
def includesOnLine (needle : Text) (line : Text) : Bool :=
  let trimmed := Text.trim line
  if skipped trimmed then false
  else
    match Text.splitOnce Text.isWhitespace trimmed with
    | none => false
    | some (keyword, rest) =>
        Text.eqIgnoreAsciiCase keyword "Include".toList &&
          (Text.splitWhitespace rest).any
            (fun pattern => Text.trimEndMatches '/' (patternDir pattern) == needle)

/-- Whether `configText` includes the drop-in directory. -/
def includesDropinDir (configText dropinDir : Text) : Bool :=
  (Text.lines configText).any (includesOnLine (Text.trimEndMatches '/' dropinDir))

/-- The first matching line decides: `some none` stops the search with an
empty value. -/
def directiveOnLine (line : Text) : Option (Option Text) :=
  let trimmed := Text.trim line
  if skipped trimmed then none
  else
    match Text.splitOnce (fun c => Text.isWhitespace c || c == '=') trimmed with
    | none => none
    | some (keyword, rest) =>
        if Text.eqIgnoreAsciiCase keyword directiveKeyword then
          let value := Text.trim (Text.trimStartMatches '=' (Text.trim rest))
          some (if value.isEmpty then none else some value)
        else none

/-- The effective `TrustedUserCAKeys` value in `configText`, if present. -/
def findTrustedUserCaKeys (configText : Text) : Option Text :=
  ((Text.lines configText).findSome? directiveOnLine).join

end MayflyHelper.SshdConfig
