import MayflyHelper.Text.Basic

/-! Paths as the kernel and the standard library take them apart. A path is
kept as its components; nothing is resolved here, so `..` and links stay. -/
namespace MayflyHelper

abbrev Name := Text

/-- A parsed path. Empty components and inner `.` are gone; a leading `.` of a
relative path is kept because it has a parent. `trailing` records a final
slash or `.`, with which the kernel accepts only a directory. -/
structure Path where
  absolute : Bool
  components : List Name
  trailing : Bool
  deriving DecidableEq, Repr

namespace Path

def currentDir : Name := ['.']

def parentDir : Name := ['.', '.']

def parse (text : Text) : Path :=
  let pieces := text.splitOn '/'
  let names := pieces.filter (fun name => !name.isEmpty)
  let absolute := Text.startsWith text '/'
  { absolute
    components :=
      if !absolute && names.head? == some currentDir then
        currentDir :: names.filter (· != currentDir)
      else names.filter (· != currentDir)
    trailing :=
      pieces.getLast? == some currentDir || (!names.isEmpty && pieces.getLast? == some []) }

/-- The empty path, which names nothing. -/
def isEmpty (path : Path) : Bool := !path.absolute && path.components.isEmpty

/-- `Path::parent`: drop the last component; the root and the empty path have
none. -/
def parent (path : Path) : Option Path :=
  if path.components.isEmpty then none
  else some { path with components := path.components.dropLast, trailing := false }

/-- The components a lookup walks through. A trailing slash is an extra `.`. -/
def walked (path : Path) : List Name :=
  path.components ++ if path.trailing then [currentDir] else []

/-- `Path::display`, up to repeated slashes and inner dots. -/
def display (path : Path) : Text :=
  (if path.absolute then ['/'] else []) ++ ['/'].intercalate path.components

/-- The path and everything above it, innermost first, as `Path::ancestors`
lists them. -/
def ancestors (path : Path) : List Path :=
  path.components.reverse.tails.map
    (fun above => { absolute := path.absolute, components := above.reverse, trailing := false })

end Path

/-- A path as configured: the text is what gets rendered, the parsed path is
what system calls see. -/
structure PathBuf where
  text : Text
  deriving DecidableEq, Repr

def PathBuf.path (buf : PathBuf) : Path := Path.parse buf.text

end MayflyHelper
