import KernelLink.Mock.Store
import KernelLink.Json.Printer
import KernelLink.Json.Reader
import KernelLink.Text.Blank
import KernelLink.Text.Quoted
/-!
# A stand-in kernel

What a stand-in for a real kernel does with a request. It keeps objects, does a little arithmetic,
and misbehaves on purpose when a method with one of a few names is called: it answers with an error,
with nothing, with garbage, too late, or not at all because it ends.

Requests are looked at as documents, not as records: a member that is missing or of the wrong kind
is taken as empty wherever that makes sense.

Main definitions:
* `Outcome`: what a request leads to.
* `dispatch`: the outcome of a request and the objects after it.
* `serve`: the same for a line.
-/
namespace KernelLink.Mock

/-- What a request leads to. -/
inductive Outcome where
  /-- A reply. -/
  | reply (document : Json)
  /-- A warning on the error output, a while later the reply. -/
  | warned (warning : String) (delay : Nat) (document : Json)
  /-- A line that is no document. -/
  | raw (text : String)
  /-- A text on the error output, not even a line, and no reply. -/
  | complaint (text : String)
  /-- Nothing. -/
  | silent
  /-- The kernel ends, with a line on the error output. -/
  | crash (text : String)
  /-- The kernel breaks off because a number is too large for it. -/
  | overflow (text : String)
  deriving Repr, DecidableEq

/-- The reply of a request that succeeded. -/
def ok (payload : Json) : Outcome := .reply (.obj [("ok", payload)])

/-- The reply of a request that failed. -/
def fault (message : String) : Outcome :=
  .reply (.obj [("error", .str message), ("stack", .str "at MockKernel.dispatch")])

/-- A document with one member. -/
def only (key : String) (value : Json) : Json := .obj [(key, value)]

/-- The text of a member, empty if there is none. -/
def textOf (key : String) (v : Json) : String := (v.member key).text?.getD ""

/-- The key under which a request names its object. -/
def idKey : String := "$jsii.byref"

/-- The name of the object that a request is about. -/
def objectOf (request : Json) : Option String := ((request.member "objref").member idKey).text?

/-- What is said of an object that is not alive. -/
def notFound (id : String) : Outcome := fault ("Object " ++ id ++ " not found")

/-! ## Arithmetic -/

/-- Does an integer fit a signed machine word? -/
def fits (i : Int) : Bool := -(Nat.pow 2 63 : Int) ≤ i && i < Nat.pow 2 63

/-- The sum of integers, from the left, as long as it fits a machine word. -/
def sum : Int → List Int → Option Int
  | total, [] => some total
  | total, i :: rest => if fits (total + i) then sum (total + i) rest else none

/-- The integers among the items of a sequence. -/
def integers : Json → List Int
  | .arr items => items.filterMap Json.int64?
  | _ => []

/-- The result of a call. -/
def result (v : Json) : Outcome := ok (only "result" v)

/-- The result of a call that is an integer. -/
def integer (i : Int) : Outcome := result (.num (.int i))

/-! ## Calls -/

/-- Calls a method of an object. -/
def invoke (id : String) (object : Object) (method : String) (args : Json) : Outcome :=
  match method with
  | "double" =>
    match (object.lookup "value").bind Json.int64? with
    | none => fault (id ++ " has no numeric value")
    | some i =>
      if fits (i * 2) then integer (i * 2) else .overflow "attempt to multiply with overflow"
  | "echo" => result (args.first?.getD .null)
  | "fail" => .complaint "boom"
  | "mute" => .silent
  | "garbage" => .raw "this is not json"
  | "mismatch" => ok (.str "a bare string")
  | "noisy" => .warned "warning: deprecated call" 0 (only "ok" (only "result" (.str "done")))
  | "slow" => .warned "warning: slow path" 300 (only "ok" (only "result" (.str "late")))
  | "crash" => .crash "fatal: kernel crashed"
  | "throw" => fault "TypeError: cannot read property of undefined"
  | other => fault (id ++ " has no method " ++ other)

/-- Calls a method of no object. -/
def invokeStatic (artifactThere : Bool) (s : Store) (method : String) (args : Json) : Outcome :=
  match method with
  | "artifactExists" => result (.bool artifactThere)
  | "objectCount" => result (.ofNat s.count)
  | "add" =>
    match sum 0 (integers args) with
    | some total => integer total
    | none => .overflow "attempt to add with overflow"
  | other => fault ("no static method " ++ other)

/-- Creates an object. Its first argument is its value. -/
def create (s : Store) (request : Json) : Outcome × Store :=
  let object :=
    match (request.member "args").first? with
    | some initial => [("value", initial)]
    | none => []
  let (id, s) := s.create ((request.member "fqn").text?.getD "Object") object
  (ok (only idKey (.str id)), s)

/-- The outcome of a request about an object, if it names one that is alive. -/
def onObject (s : Store) (request : Json) (f : String → Object → Outcome × Store) :
    Outcome × Store :=
  match objectOf request with
  | none => (fault "request has no objref", s)
  | some id =>
    match s.find? id with
    | none => (notFound id, s)
    | some object => f id object

/-- The outcome of a request, and the objects after it. -/
def dispatch (artifactThere : Bool) (s : Store) (request : Json) : Outcome × Store :=
  match textOf "api" request with
  | "load" => (ok (.obj [("assembly", request.member "name"), ("types", .ofNat 2)]), s)
  | "create" => create s request
  | "get" =>
    onObject s request fun _ object =>
      match object.lookup (textOf "property" request) with
      | some value => (ok (only "value" value), s)
      | none => (ok (.obj []), s)
  | "set" =>
    onObject s request fun id _ =>
      (ok (.obj []), s.assign id (textOf "property" request) (request.member "value"))
  | "invoke" =>
    onObject s request fun id object =>
      (invoke id object (textOf "method" request) (request.member "args"), s)
  | "sinvoke" => (invokeStatic artifactThere s (textOf "method" request) (request.member "args"), s)
  | "del" => onObject s request fun id _ => (ok (.obj []), s.release id)
  | other => (fault ("unknown api " ++ Text.quoted other), s)

/-- What a line that is not blank leads to, and the objects after it. -/
def answer (artifactThere : Bool) (s : Store) (line : String) : Outcome × Store :=
  match Json.readValue (Text.Utf8.bytes line) with
  | .ok request => dispatch artifactThere s request
  | .error e => (fault ("invalid request: " ++ e.message), s)

/-! ## Effects -/

/-- What a kernel does to its surroundings. -/
inductive Effect where
  /-- Writes to the output. -/
  | out (text : String)
  /-- Writes to the error output. -/
  | err (text : String)
  /-- Does nothing for a while. -/
  | sleep (ms : Nat)
  /-- Ends. -/
  | exit (code : Nat)
  deriving Repr, DecidableEq

/-- A line. -/
def lineOf (text : String) : String := text ++ "\n"

/-- How a program ends that breaks off. -/
def brokenOff : Nat := 101

/-- What an outcome does. The line of a kernel that breaks off stands for all that a program says
which finds a number too large for it. That differs from one such program to the other, and one that
was built to go on with a wrong number does not break off at all. -/
def Outcome.effects : Outcome → List Effect
  | .reply document => [.out (lineOf document.text)]
  | .warned warning delay document =>
    [.err (lineOf warning), .sleep delay, .out (lineOf document.text)]
  | .raw text => [.out (lineOf text)]
  | .complaint text => [.err text]
  | .silent => []
  | .crash text => [.err (lineOf text), .exit 1]
  | .overflow text => [.err (lineOf text), .exit brokenOff]

/-- What a line does, and the objects after it. Blank lines do nothing. -/
def serve (artifactThere : Bool) (s : Store) (line : String) : List Effect × Store :=
  if Text.isBlankText line then ([], s)
  else
    let (outcome, s) := answer artifactThere s line
    (outcome.effects, s)

end KernelLink.Mock
