import KernelLink.Json.Basic
/-!
# Objects of a kernel

The objects that a kernel holds for its clients, each with its properties. An object is known by the
name of its class and a number that no other object ever has, so a released object is never mistaken
for a later one.

Main definitions:
* `Object`, `Store`: what is held.
* `Store.create`, `Store.assign`, `Store.release`: the changes.
* `Store.find?`, `Store.property?`: the views.
-/
namespace KernelLink.Mock

/-- The properties of an object. -/
abbrev Object := List (String × Json)

/-- The objects of a kernel. -/
structure Store where
  /-- The objects that are alive. -/
  objects : List (String × Object)
  /-- How many objects have ever been created. -/
  created : Nat
  deriving Repr, DecidableEq

namespace Store

/-- A store without objects. -/
def empty : Store := ⟨[], 0⟩

/-- The number of the first object, less one. -/
def firstNumber : Nat := 10000

/-- The name of the `n`-th object created, of a class. -/
def nameOf (className : String) (n : Nat) : String := className ++ "@" ++ toString (firstNumber + n)

/-- An object by its name. -/
def find? (s : Store) (id : String) : Option Object := s.objects.lookup id

/-- A property of an object by its name. -/
def property? (s : Store) (id property : String) : Option Json :=
  (s.find? id).bind (·.lookup property)

/-- How many objects are alive. -/
def count (s : Store) : Nat := s.objects.length

/-- Creates an object and gives its name. -/
def create (s : Store) (className : String) (object : Object) : String × Store :=
  let id := nameOf className (s.created + 1)
  (id, ⟨(id, object) :: s.objects, s.created + 1⟩)

/-- Sets a property of an object. -/
def assign (s : Store) (id property : String) (value : Json) : Store :=
  { s with
    objects := s.objects.map fun entry =>
      if entry.1 = id then (id, Json.insertMember property value entry.2) else entry }

/-- Releases an object. -/
def release (s : Store) (id : String) : Store :=
  { s with objects := s.objects.filter (·.1 ≠ id) }

end Store
end KernelLink.Mock
