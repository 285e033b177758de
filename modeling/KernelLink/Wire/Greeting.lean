import KernelLink.Wire.Envelope
/-!
# Greetings

The first line of a kernel holds one text, the greeting, such as `@scope/kernel@1.2.3`. Its version
is what follows the last `@`, without blanks around it, and is not empty.

Main definitions:
* `Greeting.shape`, `Greeting.ofPayload`: the record around the text.
* `Greeting.version?`, `Greeting.version`: the version in a greeting.
-/
namespace KernelLink
namespace Greeting

open Json (Shape Mismatch)

/-- The layout of the record around a greeting. -/
def shape : Shape := ⟨"HelloResponse", [.required "hello" Json.checkText]⟩

/-- The greeting in an untyped payload. -/
def ofPayload (payload : Json) : Except Mismatch String :=
  match shape.ofJson .value payload with
  | .error m => .error m
  | .ok [.str hello] => .ok hello
  | .ok _ => .error (.missingField "hello")

/-- A greeting as a document. -/
def toJson (hello : String) : Json := shape.toJson [.str hello]

/-- What follows the last `@`, if there is one. -/
def tail? (cs : List Char) : Option (List Char) :=
  if cs.contains '@' then some ((cs.reverse.takeWhile (· ≠ '@')).reverse) else none

/-- The version in a greeting. -/
def version? (greeting : String) : Option String :=
  match tail? greeting.toList with
  | none => none
  | some tail =>
    let version := Text.trim tail
    if version.isEmpty then none else some (String.ofList version)

/-- The version in a greeting, or the error of a greeting that has none. -/
def version (greeting : String) : Except LinkError String :=
  match version? greeting with
  | some v => .ok v
  | none => .error (.versionParse greeting)

end Greeting
end KernelLink
