import KernelLink.Session.Link
/-!
# The greeting of a kernel

After its start a kernel has to greet within a time limit. Blank lines before the greeting do not
count; the first other line is judged, and no later line is looked at. A kernel whose output ends
before it greeted is given the grace to say why on its error output, within the same limit.

Main definitions:
* `Hello`: a greeting with its version.
* `Handshake.judge`: what one line is as a greeting.
* `Handshake.Stage`, `Handshake.poll`: waiting for it.
-/
namespace KernelLink.Session

/-- A greeting with its version. -/
structure Hello where
  /-- The whole greeting. -/
  greeting : String
  /-- The version in it. -/
  version : String
  deriving Repr, DecidableEq

namespace Handshake

/-- The error of a line that is no greeting. -/
def unexpected (line : String) : LinkError :=
  .handshake ("unexpected greeting: " ++ Text.preview previewLength line)

/-- What a line is as a greeting: a document that is no fault, whose payload is a greeting record,
whose text has a version. -/
def judge (line : String) : Except LinkError Hello :=
  match Envelope.decodeLine line with
  | .error _ => .error (unexpected line)
  | .ok envelope =>
    match envelope.payload with
    | .error e => .error (.handshake e.message)
    | .ok payload =>
      match Greeting.ofPayload payload with
      | .error _ => .error (unexpected line)
      | .ok greeting => (Greeting.version greeting).map fun version => ⟨greeting, version⟩

/-- How far the waiting has got. -/
inductive Stage where
  /-- The first line that is not blank is awaited. -/
  | listening (deadline : Nat)
  /-- The output has ended, and the kernel's last words are awaited. -/
  | leaving (deadline endsAt : Nat)
  /-- The greeting was judged, or did not come. -/
  | finished (result : Except LinkError Hello)

/-- Waiting begins. -/
def begin (timing : Timing) (w : Wires) : Stage := .listening (w.now + timing.handshakeTimeout)

/-- The error of a greeting that did not come in time. -/
def tooLate (timing : Timing) : LinkError :=
  .handshake s!"no greeting within {timing.handshakeTimeout}ms"

/-- The error of a kernel that left before it greeted, with its last words. -/
def leftEarly (words : String) : LinkError :=
  .handshake (if words.isEmpty then "kernel exited before greeting"
    else "kernel exited before greeting: " ++ words)

/-- The error of output that is not UTF-8. -/
def unreadable (fault : Text.Utf8.Fault) : LinkError :=
  .handshake ("failed to read greeting: " ++ fault.message)

/-- One poll of the waiting; `none` if it has to go on. The deadline is looked at last. -/
def poll (timing : Timing) (w : Wires) : Stage → Option (Stage × Wires)
  | .listening deadline =>
    match w.output.nextLine? with
    | some (.line text, output) =>
      let w := { w with output := output }
      if Text.isBlankText text then some (.listening deadline, w)
      else some (.finished (judge text), w)
    | some (.unreadable fault, output) =>
      some (.finished (.error (unreadable fault)), { w with output := output })
    | some (.ended, _) => some (.leaving deadline (w.now + timing.stderrGrace), w)
    | none =>
      match w.output.fill? with
      | some output => some (.listening deadline, { w with output := output })
      | none =>
        if deadline ≤ w.now then some (.finished (.error (tooLate timing)), w) else none
  | .leaving deadline endsAt =>
    if endsAt ≤ w.now then
      let (words, w) := w.takeErrors
      some (.finished (.error (leftEarly words)), w)
    else if deadline ≤ w.now then some (.finished (.error (tooLate timing)), w)
    else none
  | .finished _ => none

end Handshake
end KernelLink.Session
