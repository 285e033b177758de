import KernelLink.Json.Shape
import KernelLink.Json.Printer
/-!
# Requests

The seven operations a kernel understands. A request is written as one object on one line: the
member `api` holds the tag of the operation and comes first, the operation's own fields follow in
their order.

Reading finds the tag first. Members other than the tag are set aside as they come and are checked
against the operation's fields afterwards, so a refusal about the tag has a place in the text and
one about a field has none. A sequence is taken too: the tag, then the fields.

Main definitions:
* `ObjRef`: a reference to an object inside the kernel.
* `Api`, `Request`: the operations and the requests.
* `Request.line`: what is sent.
* `Request.read`, `Request.ofJson`: reading from text and from an untyped value.
-/
namespace KernelLink

open Json (Shape Field Origin Mismatch Fault Reading ReadError)

/-- A reference to an object that lives inside the kernel. -/
structure ObjRef where
  /-- The name that the kernel gave the object. -/
  id : String
  deriving Repr, DecidableEq

namespace ObjRef

/-- The layout of a reference. -/
def shape : Shape := ⟨"ObjRef", [.required "$jsii.byref" Json.checkText]⟩

/-- A reference as a document. -/
def toJson (r : ObjRef) : Json := shape.toJson [.str r.id]

/-- Accepts a reference, as the object that it is written as. -/
def check (origin : Origin) (v : Json) : Except Mismatch Json :=
  (shape.ofJson origin v).map shape.toJson

/-- The reference in a list of field values. -/
def ofValues : List Json → Option ObjRef
  | [.str id] => some ⟨id⟩
  | _ => none

end ObjRef

/-- The operations. -/
inductive Api where
  /-- Load a library. -/
  | load
  /-- Create an object. -/
  | create
  /-- Get a property. -/
  | get
  /-- Set a property. -/
  | set
  /-- Call a method of an object. -/
  | invoke
  /-- Call a method of a class. -/
  | staticInvoke
  /-- Release an object. -/
  | del
  deriving Repr, DecidableEq

namespace Api

/-- All operations, in the order in which messages list them. -/
def all : List Api := [.load, .create, .get, .set, .invoke, .staticInvoke, .del]

/-- What a request says it asks for. -/
def name : Api → String
  | .load => "load"
  | .create => "create"
  | .get => "get"
  | .set => "set"
  | .invoke => "invoke"
  | .staticInvoke => "sinvoke"
  | .del => "del"

/-- An operation as one of the variants of a request. -/
def variant : Api → String
  | .load => "Load"
  | .create => "Create"
  | .get => "Get"
  | .set => "Set"
  | .invoke => "Invoke"
  | .staticInvoke => "StaticInvoke"
  | .del => "Del"

/-- The tag of an operation on the wire: its variant in small letters, but for the one that has a
tag of its own. -/
def tag : Api → String
  | .staticInvoke => "sinvoke"
  | api => String.ofList (api.variant.toList.map Char.toLower)

/-- A request names the operation as its tag does. -/
@[simp] theorem tag_eq_name (api : Api) : api.tag = api.name := by
  cases api <;> rfl

/-- The operation with a tag. -/
def ofTag? (s : String) : Option Api := all.find? (·.tag == s)

/-- A field that holds a reference. -/
def target : Field := .required "objref" ObjRef.check

/-- A field that holds arguments; there are none if it is absent. -/
def arguments : Field := .defaulted "args" Json.checkList (.arr [])

/-- The layout of an operation's own fields. -/
def shape : Api → Shape
  | .load =>
    ⟨"LoadRequest", [.required "name" Json.checkText, .required "version" Json.checkText,
      .required "tarball" Json.checkText]⟩
  | .create => ⟨"CreateRequest", [.required "fqn" Json.checkText, arguments]⟩
  | .get => ⟨"GetRequest", [target, .required "property" Json.checkText]⟩
  | .set =>
    ⟨"SetRequest", [target, .required "property" Json.checkText, .required "value" Json.checkAny]⟩
  | .invoke => ⟨"InvokeRequest", [target, .required "method" Json.checkText, arguments]⟩
  | .staticInvoke =>
    ⟨"StaticInvokeRequest", [.required "fqn" Json.checkText, .required "method" Json.checkText,
      arguments]⟩
  | .del => ⟨"DelRequest", [target]⟩

/-- Accepts the tag of an operation. -/
def check (v : Json) : Except Mismatch Api :=
  match v with
  | .str s =>
    match ofTag? s with
    | some api => .ok api
    | none => .error (.unknownVariant s (all.map tag))
  | v => .error (.wrongType v.found "variant identifier")

end Api

/-- A request. -/
inductive Request where
  /-- Load the library `name` in the given version from an archive. -/
  | load (name version tarball : String)
  /-- Create an object of the class `fqn`. -/
  | create (fqn : String) (args : List Json)
  /-- Get a property of an object. -/
  | get (target : ObjRef) (property : String)
  /-- Set a property of an object. -/
  | set (target : ObjRef) (property : String) (value : Json)
  /-- Call a method of an object. -/
  | invoke (target : ObjRef) (method : String) (args : List Json)
  /-- Call a method of a class. -/
  | staticInvoke (fqn method : String) (args : List Json)
  /-- Release an object. -/
  | del (target : ObjRef)
  deriving Repr, DecidableEq

namespace Request

/-- The operation that a request asks for. -/
def api : Request → Api
  | .load .. => .load
  | .create .. => .create
  | .get .. => .get
  | .set .. => .set
  | .invoke .. => .invoke
  | .staticInvoke .. => .staticInvoke
  | .del .. => .del

/-- The values of the operation's fields. -/
def values : Request → List Json
  | .load name version tarball => [.str name, .str version, .str tarball]
  | .create fqn args => [.str fqn, .arr args]
  | .get target property => [target.toJson, .str property]
  | .set target property value => [target.toJson, .str property, value]
  | .invoke target method args => [target.toJson, .str method, .arr args]
  | .staticInvoke fqn method args => [.str fqn, .str method, .arr args]
  | .del target => [target.toJson]

/-- The request with the given values of the operation's fields. -/
def ofValues : Api → List Json → Option Request
  | .load, [.str name, .str version, .str tarball] => some (.load name version tarball)
  | .create, [.str fqn, .arr args] => some (.create fqn args)
  | .get, [.obj [(_, .str id)], .str property] => some (.get ⟨id⟩ property)
  | .set, [.obj [(_, .str id)], .str property, value] => some (.set ⟨id⟩ property value)
  | .invoke, [.obj [(_, .str id)], .str method, .arr args] => some (.invoke ⟨id⟩ method args)
  | .staticInvoke, [.str fqn, .str method, .arr args] => some (.staticInvoke fqn method args)
  | .del, [.obj [(_, .str id)]] => some (.del ⟨id⟩)
  | _, _ => none

/-! ## Writing -/

/-- The fields of a request without its tag. -/
def body (r : Request) : Json := r.api.shape.toJson r.values

/-- The request as a document, the tag first. -/
def toJson (r : Request) : Json :=
  .obj (("api", .str r.api.tag) :: (r.api.shape.fields.map (·.name)).zip r.values)

/-- The line that is sent: the document in its compact form, and a line feed. -/
def line (r : Request) : String := r.toJson.text ++ "\n"

/-! ## Reading -/

/-- The request of a known operation in a document. The last alternative is never taken, since a
shape gives each field a value of its kind. -/
def ofFields (origin : Origin) (api : Api) (v : Json) : Except Mismatch Request :=
  match api.shape.ofJson origin v with
  | .error m => .error m
  | .ok vs =>
    match ofValues api vs with
    | some r => .ok r
    | none => .error (.missingField "api")

/-- A document divided into its tag and what was set aside. -/
structure Tagged where
  /-- The operation, once its tag has been met. -/
  api : Option Api
  /-- The other members, or elements. -/
  rest : Json
  deriving Repr, DecidableEq

/-- The mismatch of a document that can hold no tag. -/
def untaggable (v : Json) : Mismatch := .wrongType v.found "internally tagged enum KernelRequest"

/-- The request in a document that has been divided. -/
def ofTagged : Tagged → Except Mismatch Request
  | ⟨some api, rest⟩ => ofFields .buffered api rest
  | ⟨none, _⟩ => .error (.missingField "api")

/-- Sets a member aside, or takes the tag. The members set aside are in reverse. -/
def divide (found : Option Api × List (String × Json)) (key : String) (v : Json) :
    Except Mismatch (Option Api × List (String × Json)) :=
  if key = "api" then
    match found.1 with
    | some _ => .error (.duplicateField "api")
    | none => (Api.check v).map fun api => (some api, found.2)
  else .ok (found.1, (key, v) :: found.2)

/-- The request in a finished document. -/
def ofJson : Json → Except Mismatch Request
  | .obj members =>
    match members.foldlM (fun found m => divide found m.1 m.2) (none, []) with
    | .error m => .error m
    | .ok (api, rest) => ofTagged ⟨api, .obj rest.reverse⟩
  | .arr [] => .error (.missingField "api")
  | .arr (tag :: rest) =>
    match Api.check tag with
    | .error m => .error m
    | .ok api => ofTagged ⟨some api, .arr rest⟩
  | v => .error (untaggable v)

/-- Reads the tag of an operation. -/
def readApi (s : List UInt8) : Reading Api :=
  let accept (v : Json) (s : List UInt8) : Reading Api :=
    match Api.check v with
    | .ok api => .ok (api, s)
    | .error m => Json.stop (.mismatch m) s
  match Json.skipSpace s with
  | [] => Json.stop .endInValue []
  | b :: r =>
    match Json.glyph b with
    | '[' => accept (.arr []) (b :: r)
    | '{' => accept (.obj []) (b :: r)
    | _ =>
      match Json.value 0 0 (b :: r) with
      | .error f => .error f
      | .ok (v, r) => accept v r

/-- Sets a member from text aside, or takes the tag. -/
def divideText (item : List UInt8 → Reading Json) (found : Option Api × List (String × Json))
    (key : String) (s : List UInt8) :
    Except Fault ((Option Api × List (String × Json)) × List UInt8) :=
  if key = "api" then
    match found.1 with
    | some _ => .error ⟨.mismatch (.duplicateField "api"), Shape.placeAfterKey s⟩
    | none => do
      let s ← Json.colon s
      let (api, s) ← readApi s
      return ((some api, found.2), s)
  else do
    let s ← Json.colon s
    let (v, s) ← item s
    return ((found.1, (key, v) :: found.2), s)

/-- Reads a document and divides it. A missing tag is noticed when the document ends. -/
def readTagged (s : List UInt8) : Reading Tagged :=
  let fuel := s.length + 1
  let item := Json.value fuel (Json.nestingLimit - 1)
  match Json.skipSpace s with
  | [] => Json.stop .endInValue []
  | b :: r =>
    match Json.glyph b with
    | '{' =>
      match Json.members (divideText item) fuel true (none, []) r with
      | .error f => .error f
      | .ok ((none, _), r) => Json.stop (.mismatch (.missingField "api")) r
      | .ok ((some api, rest), r) => .ok (⟨some api, .obj rest.reverse⟩, r)
    | '[' =>
      match Json.nextItem true r with
      | .error f => .error f
      | .ok (false, r) => Json.stop (.mismatch (.missingField "api")) r
      | .ok (true, r) =>
        match readApi r with
        | .error f => .error f
        | .ok (api, r) =>
          match Json.items item fuel [.str api.tag] r with
          | .error f => .error f
          | .ok (vs, r) => .ok (⟨some api, .arr (vs.drop 1)⟩, r)
    | _ =>
      match Json.value 0 0 (b :: r) with
      | .error f => .error f
      | .ok (v, r) => Json.stop (.mismatch (untaggable v)) r

/-- Reads a request that makes up a whole text. -/
def read (s : List UInt8) : Except ReadError Request :=
  match readTagged s with
  | .error f => .error (f.locate s)
  | .ok (tagged, r) =>
    match ofTagged tagged with
    | .error m => .error m.error
    | .ok request =>
      match Json.finish r with
      | .error f => .error (f.locate s)
      | .ok () => .ok request

end Request
end KernelLink
