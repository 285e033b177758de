import KernelLink.Json.Shape
/-!
# Manifests

The artifact of the stand-in kernel says how it begins: what it greets with, whether it greets at
all, and what it says on its error output before. An empty artifact leaves everything as usual.

Main definitions:
* `Manifest`, `Manifest.read`.
-/
namespace KernelLink.Mock

/-- How the stand-in kernel begins. -/
structure Manifest where
  /-- What it greets with; the usual greeting if nothing is said. -/
  greeting : Option String
  /-- It does not greet. -/
  skipGreeting : Bool
  /-- A line on its error output before the greeting. -/
  startupStderr : Option String
  deriving Repr, DecidableEq

namespace Manifest

/-- The layout of a manifest. A member may be missing, but a sequence has to say what a text is. -/
def shape : Json.Shape :=
  ⟨"Manifest", [⟨"greeting", Json.checkOptionalText, some .null, none⟩,
    .defaulted "skipGreeting" Json.checkFlag (.bool false),
    ⟨"startupStderr", Json.checkOptionalText, some .null, none⟩]⟩

/-- The usual beginning. -/
def usual : Manifest := ⟨none, false, none⟩

/-- The manifest with the given values of the fields. -/
def ofValues : List Json → Manifest
  | [greeting, skip, startup] => ⟨greeting.text?, skip == .bool true, startup.text?⟩
  | _ => usual

/-- Reads a manifest. -/
def read (bytes : List UInt8) : Except Json.ReadError Manifest :=
  if bytes.isEmpty then .ok usual else (shape.readWhole bytes).map ofValues

/-- What a kernel greets with that is told nothing else. -/
def usualGreeting : String := "@kernel-bridge/mock@1.2.3"

end Manifest
end KernelLink.Mock
