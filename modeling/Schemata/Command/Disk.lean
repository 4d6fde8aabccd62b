import Schemata.Command.Error

/-!
# Files held in memory

A disk is a value: texts of files by the names on the way to each, and a directory in which
paths start. `Disk.read` finds files as an operating system does, with its limits and faults.
-/
namespace Schemata.Command

/-- Files by the names that lead to each from the top, and the directory in which a path
starts that does not start at the top. -/
structure Disk where
  files : List (List String × String)
  home : List String

namespace Disk

def nameLimit : Nat := 255

def pathLimit : Nat := 4095

def isDirectory (disk : Disk) (place : List String) : Bool :=
  place.isPrefixOf disk.home ||
    disk.files.any fun file => place.isPrefixOf file.1 && place ≠ file.1

/-- Where a name leads from a place. Only directories lead on; an empty name and one dot stay
where they are, and two dots go one directory up. -/
def follow (disk : Disk) (place : List String) (name : String) :
    Except FileFault (List String) :=
  let inside := place ++ [name]
  if !disk.isDirectory place then .error .notDirectory
  else if name = "" || name = "." then .ok place
  else if name = ".." then .ok place.dropLast
  else if nameLimit < name.utf8ByteSize then .error .nameTooLong
  else if disk.isDirectory inside || (disk.files.lookup inside).isSome then .ok inside
  else .error .missing

def names (path : String) : List String :=
  (path.toList.splitOn '/').map String.ofList

def find (disk : Disk) (path : String) : Except FileFault (List String) :=
  if path = "" then .error .missing
  else if pathLimit < path.utf8ByteSize then .error .nameTooLong
  else
    let start := if path.startsWith "/" then [] else disk.home
    (names path).foldlM disk.follow start

def read (disk : Disk) (path : String) : Except FileFault String := do
  let place ← disk.find path
  match disk.files.lookup place with
  | some text => .ok text
  | none => .error .directory

end Disk
end Schemata.Command
