import KernelLink.Host.Refusal
import KernelLink.Json.Cause
import KernelLink.Text.Utf8
/-!
# What can go wrong

One type of error for everything that a link to a kernel can report, by cause. Two properties are
read off the cause alone: whether the error is fatal, and whether the kernel itself explained the
failure.

Main definitions:
* `StreamFault`: a failed operation on a file or a stream.
* `Chain`: an error with the contexts it passed through.
* `LinkError`, with `message`, `isFatal`, `isKernelReported` and `sources`.
-/
namespace KernelLink

/-! ## Files and streams -/

/-- The kinds of failure that have a wording of their own. -/
inductive StreamFault.Kind where
  /-- There is no such thing. -/
  | notFound
  /-- The other end of a pipe is gone. -/
  | brokenPipe
  /-- The operation is not permitted. -/
  | permissionDenied
  /-- The stream ended too early. -/
  | unexpectedEnd
  /-- The data is not what it should be. -/
  | invalidData
  /-- An argument is not what it should be. -/
  | invalidInput
  /-- Anything else. -/
  | other
  deriving Repr, DecidableEq

/-- The wording of a kind. -/
def StreamFault.Kind.text : StreamFault.Kind → String
  | .notFound => "entity not found"
  | .brokenPipe => "broken pipe"
  | .permissionDenied => "permission denied"
  | .unexpectedEnd => "unexpected end of file"
  | .invalidData => "invalid data"
  | .invalidInput => "invalid input parameter"
  | .other => "other error"

/-- A failed operation on a file or a stream. -/
inductive StreamFault where
  /-- The operating system refused with a number. -/
  | os (number : Int)
  /-- A failure of a kind, with an optional wording of its own. -/
  | kind (kind : StreamFault.Kind) (text : Option String)
  /-- Bytes that are not UTF-8. -/
  | unreadable (fault : Text.Utf8.Fault)
  deriving Repr, DecidableEq

namespace StreamFault

/-- The wording of a failure. -/
def message : StreamFault → String
  | .os number => s!"{Host.Refusal.text number} (os error {number})"
  | .kind _ (some text) => text
  | .kind k none => k.text
  | .unreadable fault => fault.message

/-- There is no such file or directory. -/
def missing : StreamFault := .os 2

/-- The operation is not permitted. -/
def denied : StreamFault := .os 13

/-- The name that a process is to be started with, or a text for it, holds a NUL byte. -/
def nulByte : StreamFault := .kind .invalidInput (some "nul byte found in provided data")

end StreamFault

/-! ## Contexts -/

/-- An error and the contexts added to it on its way, the outermost first. -/
structure Chain where
  /-- What was said last. -/
  outer : String
  /-- What it was said about, down to the root. -/
  inner : List String
  deriving Repr, DecidableEq

namespace Chain

/-- An error without contexts. -/
def single (text : String) : Chain := ⟨text, []⟩

/-- All wordings, the outermost first. -/
def toList (c : Chain) : List String := c.outer :: c.inner

/-- All wordings on one line. -/
def joined (c : Chain) : String := String.intercalate ": " c.toList

end Chain

/-! ## Errors of a link -/

/-- What a link to a kernel can report. -/
inductive LinkError where
  /-- The process could not be started, or came without its pipes. -/
  | spawn (text : String)
  /-- The artifact could not be put where the kernel finds it. -/
  | artifact (cause : StreamFault)
  /-- The kernel did not greet as it should. -/
  | handshake (text : String)
  /-- The greeting has no version. -/
  | versionParse (greeting : String)
  /-- A request could not be written as a document. -/
  | encode (cause : Json.ReadError)
  /-- A reply is no document, or its payload has the wrong shape. -/
  | decode (cause : Json.ReadError)
  /-- A stream of the kernel failed. -/
  | stream (cause : StreamFault)
  /-- What the kernel wrote to its error output instead of a reply. -/
  | kernelStderr (text : String)
  /-- The kernel replied with an error. -/
  | kernel (message : String) (stack : Option String)
  /-- The kernel did not reply. -/
  | noResponse
  /-- The request was cut short because the link was closed. -/
  | cancelled
  /-- Requests and replies can no longer be matched. -/
  | poisoned (reason : String)
  /-- The link is closed. -/
  | closed
  /-- The shared kernel could not be started. -/
  | initialization (cause : LinkError)
  /-- The configuration makes no sense. -/
  | configuration (text : String)
  /-- Anything else. -/
  | other (cause : Chain)
  deriving Repr, DecidableEq, Inhabited

namespace LinkError

/-- The wording of an error. -/
def message : LinkError → String
  | .spawn text => "Failed to spawn kernel process: " ++ text
  | .artifact cause => "Failed to materialize kernel artifact: " ++ cause.message
  | .handshake text => "Handshake failed: " ++ text
  | .versionParse greeting =>
    "Unable to parse runtime version from greeting " ++ Text.quoted greeting
  | .encode cause => "Failed to encode request: " ++ cause.message
  | .decode cause => "Failed to decode response: " ++ cause.message
  | .stream cause => "Kernel stream error: " ++ cause.message
  | .kernelStderr text => text
  | .kernel message _ => "Kernel error: " ++ message
  | .noResponse => "No response from kernel"
  | .cancelled => "Operation cancelled"
  | .poisoned reason => "Kernel stream is desynchronized: " ++ reason
  | .closed => "Kernel client is closed"
  | .initialization cause => "Kernel initialization failed: " ++ cause.message
  | .configuration text => "Configuration error: " ++ text
  | .other cause => "Other error: " ++ cause.outer

/-- Is the error classified as one after which no request on the same link can succeed? -/
def isFatal : LinkError → Bool
  | .spawn _ | .artifact _ | .handshake _ | .versionParse _ | .poisoned _ | .closed
  | .initialization _ | .configuration _ => true
  | .encode _ | .decode _ | .stream _ | .kernelStderr _ | .kernel _ _ | .noResponse | .cancelled
  | .other _ => false

/-- Did the kernel itself explain the failure? -/
def isKernelReported : LinkError → Bool
  | .kernelStderr _ | .kernel _ _ => true
  | _ => false

/-- The wordings of the errors behind an error, the nearest first. -/
def sources : LinkError → List String
  | .artifact cause | .stream cause => [cause.message]
  | .encode cause | .decode cause => [cause.message]
  | .initialization cause => cause.message :: cause.sources
  | .other cause => cause.toList
  | _ => []

end LinkError
end KernelLink
