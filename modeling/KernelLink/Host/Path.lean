import KernelLink.Text.Utf8
/-!
# Paths

A path is a list of bytes, divided at its slashes into names. A path with a slash in front begins at
the root, any other at some directory. One dot stays in a directory and two dots go up, but not
above the root. What a path means is a place: the names from the root down.

Main definitions:
* `Path.parts`, `Path.steps`: the names in a path, and what has to be walked.
* `Path.place`: the place where names lead.
* `Path.text`: the path of a place.
-/
namespace KernelLink.Host

/-- The names from the root down. -/
abbrev Place := List (List UInt8)

namespace Path

/-- The bytes of a text. -/
abbrev ascii (s : String) : List UInt8 := Text.Utf8.bytes s

/-- Divides names. -/
def slash : UInt8 := 47

/-- The name that stays. -/
def stay : List UInt8 := [46]

/-- The name that goes up. -/
def up : List UInt8 := [46, 46]

/-- Longer names are refused. -/
def longestName : Nat := 255

/-- Longer paths are refused. -/
def longest : Nat := 4095

/-- The names in a path. -/
def parts (path : List UInt8) : List (List UInt8) :=
  (path.splitBy fun a b => (a == slash) == (b == slash)).filter fun part => part.head? != some slash

/-- The names to walk: a slash at the end asks for a directory, as a dot behind it would. -/
def steps (path : List UInt8) : List (List UInt8) :=
  parts path ++ if path.getLast? = some slash then [stay] else []

/-- A path as seen from a directory. -/
def under (directory path : List UInt8) : List UInt8 :=
  if path.head? = some slash then path else directory ++ [slash] ++ path

/-- The place where names lead from a place. -/
def place : (above : Place) → List (List UInt8) → Place
  | above, [] => above
  | above, name :: rest =>
    if name = stay then place above rest
    else if name = up then place above.dropLast rest
    else place (above ++ [name]) rest

/-- The path of a place. -/
def text : Place → List UInt8
  | [] => [slash]
  | names => names.flatMap (slash :: ·)

end Path
end KernelLink.Host
