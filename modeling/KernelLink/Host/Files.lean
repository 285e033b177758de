import KernelLink.Error
import KernelLink.Host.Path
/-!
# Files

As much of a file system as launching a kernel touches: directories, files with known contents,
places that lead to other places, and new files for embedded artifacts.

Main definitions:
* `Node`, `Files`: what a path can name.
* `Files.locate`, `Files.look`: what a path names, or the operating system's refusal.
* `Files.create`: a new file with a name of its own.
-/
namespace KernelLink.Host

open KernelLink.Host.Path (ascii)

/-- What a path can name. -/
inductive Node where
  /-- A directory. -/
  | directory
  /-- A file with its contents; `executable` tells whether it can be run. -/
  | file (bytes : List UInt8) (executable : Bool)
  deriving Repr, DecidableEq

/-- A file system. -/
structure Files where
  /-- Everything there is, besides the root. -/
  entries : List (Place × Node)
  /-- Places that lead to other places. -/
  links : List (Place × Place)
  /-- How many files with names of their own have been made. -/
  made : Nat
  deriving Repr, DecidableEq

namespace Files

/-! ## Looking -/

/-- The directory in which everything happens unless another one is named. It is empty. -/
def working : List UInt8 := ascii "/work"

/-- Where a place leads. -/
def linked (files : Files) (place : Place) : Place := (files.links.lookup place).getD place

/-- Walks down from a directory. A name that is too long is refused where it would be looked up. -/
def walk (files : Files) : (above : Place) → List (List UInt8) → Except StreamFault (Place × Node)
  | above, [] => .ok (above, .directory)
  | above, name :: rest =>
    if name = Path.stay then walk files above rest
    else if name = Path.up then walk files above.dropLast rest
    else if Path.longestName < name.length then .error (.os 36)
    else
      let place := files.linked (above ++ [name])
      match files.entries.lookup place, rest with
      | none, _ => .error StreamFault.missing
      | some node, [] => .ok (place, node)
      | some (.file ..), _ :: _ => .error (.os 20)
      | some .directory, _ => walk files place rest

/-- The place that a path means, as seen from a directory, and what is there. -/
def locate (files : Files) (directory path : List UInt8) : Except StreamFault (Place × Node) :=
  if path.contains 0 then
    .error (.kind .invalidInput (some "file name contained an unexpected NUL byte"))
  else if path.isEmpty then .error StreamFault.missing
  else if Path.longest < path.length then .error (.os 36)
  else files.walk [] (Path.steps (Path.under directory path))

/-- What a path names, as seen from a directory. -/
def lookFrom (files : Files) (directory path : List UInt8) : Except StreamFault Node :=
  (files.locate directory path).map (·.2)

/-- Does a path name a place that leads to another place? -/
def isLink (files : Files) (directory path : List UInt8) : Bool :=
  let names := Path.parts path
  let above := if path.head? = some Path.slash then [] else Path.parts directory
  match files.walk [] (above ++ names.dropLast) with
  | .ok (place, .directory) => (files.links.lookup (place ++ names.drop (names.length - 1))).isSome
  | _ => false

/-- What a path names. -/
def look (files : Files) (path : List UInt8) : Except StreamFault Node :=
  files.lookFrom working path

/-- Does a path name anything? -/
def holds (files : Files) (path : List UInt8) : Bool :=
  match files.look path with
  | .ok _ => true
  | .error _ => false

/-- The contents of the file that a path names. -/
def contents? (files : Files) (path : List UInt8) : Option (List UInt8) :=
  match files.look path with
  | .ok (.file bytes _) => some bytes
  | _ => none

/-! ## Changing -/

/-- The place where names lead from a place, whether anything is there or not. -/
def follow (files : Files) : (above : Place) → List (List UInt8) → Place
  | above, [] => above
  | above, name :: rest =>
    if name = Path.stay then follow files above rest
    else if name = Path.up then follow files above.dropLast rest
    else follow files (files.linked (above ++ [name])) rest

/-- The place that a path means, whether anything is there or not. -/
def placeOf (files : Files) (path : List UInt8) : Place :=
  files.follow [] (Path.parts (Path.under working path))

/-- With a file at a path. -/
def add (files : Files) (path : List UInt8) (bytes : List UInt8) : Files :=
  { files with entries := (files.placeOf path, .file bytes false) :: files.entries }

/-- With a program at a path, and with the directories above it. -/
def install (files : Files) (path : List UInt8) (bytes : List UInt8) : Files :=
  let place := files.placeOf path
  let above := (List.range place.length).map fun n => (place.take n, Node.directory)
  { files with entries := (place, .file bytes true) :: above ++ files.entries }

/-- With more bytes at the end of the file at a path. -/
def append (files : Files) (path : List UInt8) (bytes : List UInt8) : Files :=
  let place := files.placeOf path
  { files with
    entries := files.entries.map fun entry =>
      match entry.2 with
      | .file old executable =>
        if entry.1 == place then (entry.1, .file (old ++ bytes) executable) else entry
      | .directory => entry }

/-- Without the file at a path. -/
def remove (files : Files) (path : List UInt8) : Files :=
  let place := files.placeOf path
  { files with
    entries := files.entries.filter fun entry => entry.1 != place || entry.2 == .directory }

/-! ## Files for embedded artifacts -/

/-- The beginning of the names of files for embedded artifacts. -/
def stagedPrefix : List UInt8 := ascii "kernel-bridge-runtime."

/-- How many characters make such a name its own. -/
def ownLength : Nat := 6

/-- The characters that make the `n`-th name its own. -/
def ownName (n : Nat) : List UInt8 :=
  (List.range ownLength).map fun i => UInt8.ofNat (97 + n / Nat.pow 26 (ownLength - 1 - i) % 26)

/-- Makes a new empty file whose name ends in `suffix`. -/
def create (files : Files) (suffix : String) : Except StreamFault (List UInt8 × Files) :=
  let ending := ascii suffix
  if ending.contains 0 then
    .error (.kind .invalidInput (some "file name contained an unexpected NUL byte"))
  else if ending.contains Path.slash then .error StreamFault.missing
  else
    let path := ascii "/tmp/" ++ stagedPrefix ++ ownName files.made ++ ending
    .ok (path, { files.add path [] with made := files.made + 1 })

/-- The suffix of a file that was made for an embedded artifact. -/
def stagedSuffix? (path : List UInt8) : Option (List UInt8) :=
  match (Path.parts path).getLast? with
  | none => none
  | some name =>
    if stagedPrefix.isPrefixOf name then some (name.drop (stagedPrefix.length + ownLength))
    else none

end Files
end KernelLink.Host
