import KernelLink.Wire.Request
import KernelLink.Text.Blank
import KernelLink.Error
/-!
# Reply lines

What a kernel writes on one line of its standard output is a document, and the members of an object
tell what kind of reply it is. An object with exactly one member `ok` is a success, whatever else it
holds. Otherwise an object with exactly one text `error`, and at most one `stack` that is a text or
empty, is a fault. Everything else is taken as the payload itself.

Main definitions:
* `Envelope`, `Envelope.ofJson`: the classification.
* `Envelope.decodeLine`: a line, trimmed and read.
* `Reply`, `Reply.ofPayload`: the payload that an operation promises.
-/
namespace KernelLink

open Json (Shape Field Mismatch ReadError)

/-- A reply line, classified. -/
inductive Envelope where
  /-- A success with its payload. -/
  | ok (payload : Json)
  /-- The kernel's own error. -/
  | fault (message : String) (stack : Option String)
  /-- A payload without an envelope. -/
  | bare (payload : Json)
  deriving Repr, DecidableEq

namespace Envelope

/-- The values of all members with a key. -/
def valuesOf (key : String) (members : List (String × Json)) : List Json :=
  (members.filter (·.1 == key)).map (·.2)

/-- The fault that the members describe, if they describe one. -/
def faultOf (members : List (String × Json)) : Option Envelope :=
  match valuesOf "error" members, valuesOf "stack" members with
  | [.str message], [] | [.str message], [.null] => some (.fault message none)
  | [.str message], [.str stack] => some (.fault message (some stack))
  | _, _ => none

/-- Classifies a document whose members still have their duplicates. -/
def ofJson (v : Json) : Envelope :=
  match v with
  | .obj members =>
    match valuesOf "ok" members with
    | [payload] => .ok payload.normal
    | _ => (faultOf members).getD (.bare v.normal)
  | v => .bare v.normal

/-- Reads and classifies one line. -/
def decodeLine (line : String) : Except ReadError Envelope :=
  (Json.read (Text.Utf8.encode (Text.trim line.toList))).map ofJson

/-- The payload of a reply, or the kernel's own error. Exactly one envelope is taken off. -/
def payload : Envelope → Except LinkError Json
  | .ok payload | .bare payload => .ok payload
  | .fault message stack => .error (.kernel message stack)

end Envelope

/-! ## Payloads -/

/-- The payload of a successful reply, by operation. -/
inductive Reply where
  /-- A library was loaded: its name, and how many types it brought. -/
  | loaded (assembly : String) (types : Nat)
  /-- An object was created. -/
  | created (object : ObjRef)
  /-- The value of a property. -/
  | got (value : Json)
  /-- A property was set. -/
  | assigned
  /-- The result of a call. -/
  | returned (result : Json)
  /-- An object was released. -/
  | released
  deriving Repr, DecidableEq

namespace Reply

/-- The layout of a load reply. -/
def loadedShape : Shape :=
  ⟨"LoadResponse",
    [.required "assembly" Json.checkText, .required "types" (Json.checkNatural "u64")]⟩

/-- The layout of a get reply. -/
def gotShape : Shape := ⟨"GetResponse", [.defaulted "value" Json.checkAny .null]⟩

/-- The layout of a set reply, which holds nothing. -/
def assignedShape : Shape := ⟨"SetResponse", []⟩

/-- The layout of the reply to a call. -/
def returnedShape : Shape := ⟨"InvokeResponse", [.defaulted "result" Json.checkAny .null]⟩

/-- The layout of a release reply, which holds nothing. -/
def releasedShape : Shape := ⟨"DelResponse", []⟩

/-- The layout of the reply that an operation promises. -/
def shapeFor : Api → Shape
  | .load => loadedShape
  | .create => ObjRef.shape
  | .get => gotShape
  | .set => assignedShape
  | .invoke | .staticInvoke => returnedShape
  | .del => releasedShape

/-- The reply with the given values of the fields. -/
def ofValues : Api → List Json → Option Reply
  | .load, [.str assembly, .num (.int types)] => some (.loaded assembly types.toNat)
  | .create, [.str id] => some (.created ⟨id⟩)
  | .get, [value] => some (.got value)
  | .set, [] => some .assigned
  | .invoke, [result] | .staticInvoke, [result] => some (.returned result)
  | .del, [] => some .released
  | _, _ => none

/-- The reply that an operation promises, in an untyped payload. The last alternative is never
taken, since a shape gives each field a value of its kind. -/
def ofPayload (api : Api) (payload : Json) : Except Mismatch Reply :=
  match (shapeFor api).ofJson .value payload with
  | .error m => .error m
  | .ok vs =>
    match ofValues api vs with
    | some r => .ok r
    | none => .error (.missingField "api")

/-- The result of an untyped call, read as the reply that the operation promises. -/
def ofResult (api : Api) : Except LinkError Json → Except LinkError Reply
  | .error e => .error e
  | .ok payload => (ofPayload api payload).mapError fun m => .decode m.error

/-- A reply as a document. -/
def toJson : Reply → Json
  | .loaded assembly types => loadedShape.toJson [.str assembly, .ofNat types]
  | .created object => object.toJson
  | .got value => gotShape.toJson [value]
  | .assigned => assignedShape.toJson []
  | .returned result => returnedShape.toJson [result]
  | .released => releasedShape.toJson []

end Reply
end KernelLink
