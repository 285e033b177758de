import KernelLink.Host.Pipe
import KernelLink.Stderr.Buffer
/-!
# The wires between a link and its kernel

A clock, the three pipes of a kernel process, and the reader in the background that moves error
output from its pipe into the captured buffer. Everything here is done by one side alone; when it is
done is up to whoever runs the two sides.

Main definitions:
* `Wires`, with the steps of the background reader.
-/
namespace KernelLink.Session

open Host (Pipe Delivery)
open Stderr (Buffer)

/-- What the background reader is doing. -/
inductive Capture where
  /-- Waiting for error output. -/
  | reading
  /-- It has added bytes to the buffer and has yet to store the wake-up. -/
  | owing
  /-- The error output has ended, or reading was given up. -/
  | ended
  deriving Repr, DecidableEq

/-- A clock, three pipes, and captured error output. -/
structure Wires where
  /-- Milliseconds since the beginning. -/
  now : Nat
  /-- From the link to the kernel. -/
  input : Pipe
  /-- From the kernel to the link. -/
  output : Pipe
  /-- The kernel's error output. -/
  errors : Pipe
  /-- The background reader. -/
  capture : Capture
  /-- What it captured. -/
  buffer : Buffer
  deriving Repr, DecidableEq

namespace Wires

/-- The wires of a new process. -/
def new (now limit : Nat) : Wires := ⟨now, .new, .new, .new, .reading, .new limit⟩

/-- The next thing that the background reader can do: add what one read gives to the buffer, store
the wake-up for it, or notice the end and store a last wake-up. -/
def captureStep (w : Wires) : Option Wires :=
  match w.capture with
  | .ended => none
  | .owing => some { w with capture := .reading, buffer := w.buffer.notify }
  | .reading =>
    if w.errors.bytes.isEmpty then
      if w.errors.writing then none
      else some { w with capture := .ended, buffer := w.buffer.notify }
    else
      let chunk := w.errors.bytes.take Buffer.readSize
      let rest := w.errors.bytes.drop Buffer.readSize
      some { w with
        capture := .owing
        errors := { w.errors with bytes := rest }
        buffer := w.buffer.extend chunk }

/-- The background reader is given up. -/
def abortCapture (w : Wires) : Wires :=
  { w with capture := .ended, errors := w.errors.closeReading }

/-- The kernel's ends of all pipes are closed, as when its process ends. -/
def hangUp (w : Wires) : Wires :=
  { w with
    input := w.input.closeReading
    output := w.output.closeWriting
    errors := w.errors.closeWriting }

/-- The text of the captured error output, which is emptied. -/
def takeErrors (w : Wires) : String × Wires :=
  let (text, buffer) := w.buffer.take
  (text, { w with buffer := buffer })

/-- The captured error output is thrown away. -/
def clearErrors (w : Wires) : Wires := { w with buffer := w.buffer.clear }

end Wires
end KernelLink.Session
