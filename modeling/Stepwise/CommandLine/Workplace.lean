/-
Where the command line works: a file system, a working directory and the text
on standard input.

A path is walked name by name from the root or from the working directory, and
every name but the last has to lead to a directory; an empty name asks for a
directory too, so a path that ends in a slash never leads to a file. A file is
opened for logging under the path that is left when the dots are worked out on
paper, without looking at the directories in between.
-/
import Stepwise.Table
import Stepwise.Text.Quoted
import Stepwise.Text.Split
import Stepwise.Numeral.Writing

set_option autoImplicit false

namespace Stepwise.CommandLine

/-- Why a file cannot be opened. -/
inductive OpenProblem where
  /-- There is no such file. -/
  | missing
  /-- It is a directory. -/
  | isDirectory
  /-- Something on the way is no directory. -/
  | notDirectory
  /-- A name on the way, or the whole path, is too long. -/
  | tooLong
  /-- No path can hold such a character. -/
  | badPath
  /-- Something else, in words. -/
  | refused (reason : String)
deriving Repr, DecidableEq

namespace OpenProblem

/-- The label under which a problem is reported when it ends the program. -/
def label : OpenProblem → String
  | missing => "FileNotFoundError"
  | isDirectory => "IsADirectoryError"
  | notDirectory => "NotADirectoryError"
  | tooLong | refused _ => "OSError"
  | badPath => "ValueError"

/-- A problem with the number and the words that the system has for it. -/
def numbered (number : Nat) (words path : String) : String :=
  "[Errno " ++ Numeral.decimal number ++ "] " ++ words ++ ": " ++ Text.quoted path

/-- A problem with a path in words. -/
def message (path : String) : OpenProblem → String
  | missing => numbered 2 "No such file or directory" path
  | isDirectory => numbered 21 "Is a directory" path
  | notDirectory => numbered 20 "Not a directory" path
  | tooLong => numbered 36 "File name too long" path
  | badPath => "embedded null byte"
  | refused reason => reason

end OpenProblem

/-- The names on the way from the root. -/
abbrev Path := List String

/-- A file system with a working directory. -/
structure Workplace where
  /-- The working directory. -/
  home : Path
  /-- The directories, the root apart. -/
  directories : List Path
  /-- The contents of files. -/
  files : Table Path String
  /-- The text on standard input. -/
  stdin : String

namespace Workplace

/-- What a path leads to. -/
inductive Spot where
  /-- A directory. -/
  | directory (path : Path)
  /-- A file with its contents. -/
  | file (path : Path) (contents : String)
  /-- A place in a directory where nothing is. -/
  | vacant (path : Path)

/-- The most bytes of a name. -/
def nameLimit : Nat := 255

/-- The most bytes of a path. -/
def pathLimit : Nat := 4095

/-- What is at the end of the names. -/
def spot (w : Workplace) (path : Path) : Spot :=
  if path.isEmpty || w.directories.contains path then .directory path
  else
    match w.files.find? path with
    | some contents => .file path contents
    | none => .vacant path

/-- Goes on from a spot by one name. -/
def enter (w : Workplace) (s : Spot) (name : String) : Except OpenProblem Spot :=
  match s with
  | .file .. => .error .notDirectory
  | .vacant _ => .error .missing
  | .directory path =>
    if name = "" ∨ name = "." then .ok (.directory path)
    else if name = ".." then .ok (.directory path.dropLast)
    else if nameLimit < name.utf8ByteSize then .error .tooLong
    else .ok (w.spot (path ++ [name]))

/-- The names in a path as it is written. -/
def names (path : String) : List String :=
  (Text.pieces '/' path.toList).map String.ofList

/-- Where the names in a path lead from: the root behind a slash, else the working directory. -/
def start (w : Workplace) (path : String) : Path :=
  if path.toList.head? == some '/' then [] else w.home

/-- What a path as it is written leads to. -/
def locate (w : Workplace) (path : String) : Except OpenProblem Spot :=
  if path.toList.contains '\x00' then .error .badPath
  else if path.isEmpty then .error .missing
  else if pathLimit < path.utf8ByteSize then .error .tooLong
  else (names path).foldlM w.enter (.directory (w.start path))

/-- The contents of a file. -/
def read (w : Workplace) (path : String) : Except OpenProblem String := do
  match ← w.locate path with
  | .file _ contents => return contents
  | .directory _ => .error .isDirectory
  | .vacant _ => .error .missing

/-- A path with its dots worked out on paper. -/
def settled (w : Workplace) (path : String) : String :=
  let walk (done : Path) (name : String) : Path :=
    if name = "" ∨ name = "." then done
    else if name = ".." then done.dropLast
    else done ++ [name]
  "/" ++ "/".intercalate ((names path).foldl walk (w.start path))

/-- The workplace once a file is open for more to be written to its end. -/
def appending (w : Workplace) (path : String) : Except OpenProblem Workplace := do
  match ← w.locate (w.settled path) with
  | .file .. => return w
  | .directory _ => .error .isDirectory
  | .vacant path => return { w with files := w.files.put path "" }

end Workplace

end Stepwise.CommandLine
