import KernelLink.Text.Blank
import KernelLink.Text.Utf8
/-!
# Captured error output

The newest bytes that a kernel wrote to its error output, and one stored wake-up for whoever waits
for them. A reader in the background appends; a waiting request looks and takes. Appending is two
steps that others may come between: the bytes are added, then the wake-up is stored.

Main definitions:
* `Buffer`, with `extend`, `notify`, `append`, `take`, `clear` and `poll`.
* `Buffer.capture`: reading a stream to its end.
-/
namespace KernelLink.Stderr

/-- Captured bytes and the stored wake-up. -/
structure Buffer where
  /-- How many bytes are kept. -/
  limit : Nat
  /-- The kept bytes. -/
  bytes : List UInt8
  /-- Is a wake-up stored? There is at most one. -/
  permit : Bool
  deriving Repr, DecidableEq

namespace Buffer

/-- An empty buffer; at least one byte is kept. -/
def new (limit : Nat) : Buffer := ⟨max limit 1, [], false⟩

/-- The last `n` elements of a list. -/
def newest (n : Nat) (bs : List UInt8) : List UInt8 := bs.drop (bs.length - n)

/-- Adds bytes and drops the oldest ones beyond the limit. -/
def extend (b : Buffer) (chunk : List UInt8) : Buffer :=
  { b with bytes := newest b.limit (b.bytes ++ chunk) }

/-- Stores the wake-up. -/
def notify (b : Buffer) : Buffer := { b with permit := true }

/-- Adds bytes and stores the wake-up; nothing at all happens for no bytes. -/
def append (b : Buffer) (chunk : List UInt8) : Buffer :=
  if chunk.isEmpty then b else (b.extend chunk).notify

/-- The text of the kept bytes, without blanks at its end. -/
def text (b : Buffer) : String := Text.trimmedEnd (Text.Utf8.lossy b.bytes)

/-- Empties the buffer. A stored wake-up stays. -/
def clear (b : Buffer) : Buffer := { b with bytes := [] }

/-- The text of the kept bytes, and the emptied buffer. -/
def take (b : Buffer) : String × Buffer := (b.text, b.clear)

/-- Is nothing kept? -/
def isEmpty (b : Buffer) : Bool := b.bytes.isEmpty

/-- Uses up the stored wake-up, if there is one. -/
def poll (b : Buffer) : Bool × Buffer := (b.permit, { b with permit := false })

/-- How many bytes one read takes at most. -/
def readSize : Nat := 4096

/-- What one read of a stream gives. -/
inductive Read where
  /-- Some bytes. -/
  | data (bytes : List UInt8)
  /-- The end of the stream. -/
  | ended
  /-- A failure. -/
  | failed
  deriving Repr, DecidableEq

/-- The reads that it takes to get a chunk that is there at once. No bytes are the end of a
stream. -/
def readsOfChunk (chunk : List UInt8) : List Read :=
  if chunk.length ≤ readSize then [if chunk.isEmpty then .ended else .data chunk]
  else .data (chunk.take readSize) :: readsOfChunk (chunk.drop readSize)
termination_by chunk.length
decreasing_by simp [readSize] at *; omega

/-- Copies a stream into the buffer until it ends or fails, and stores a wake-up then. -/
def capture (b : Buffer) : List Read → Buffer
  | .data bytes :: reads => capture (b.append bytes) reads
  | _ => b.notify

end Buffer
end KernelLink.Stderr
