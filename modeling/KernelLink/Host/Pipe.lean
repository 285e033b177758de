import KernelLink.Text.Utf8
/-!
# Pipes

Bytes on their way from a writer to a reader. A pipe holds only so many, at least one; what does not
fit has to wait. Both ends can be closed: a reader then finds the end after what is left, and a
writer finds nobody. Whoever reads lines takes more bytes out of the pipe while it has no complete
line, so a line may be longer than what a pipe holds.

Main definitions:
* `Pipe`, with `put`, `fill?`, `nextLine?` and the two ends.
* `Delivery`: what reading a line can give.
* `linesOf`: all lines of some bytes.
-/
namespace KernelLink.Host

/-- A pipe. -/
structure Pipe where
  /-- The bytes that were written and not yet read. -/
  bytes : List UInt8
  /-- The bytes that a reader of lines has taken and not yet used. -/
  held : List UInt8
  /-- Is the writing end open? -/
  writing : Bool
  /-- Is the reading end open? -/
  reading : Bool
  /-- How many bytes fit into it. -/
  capacity : Nat := 65536
  /-- At least one byte does. -/
  capacity_pos : 0 < capacity := by decide
  deriving Repr, DecidableEq

/-- What reading a line gives. -/
inductive Delivery where
  /-- A line, without its line end. -/
  | line (text : String)
  /-- A line that is not UTF-8. -/
  | unreadable (fault : Text.Utf8.Fault)
  /-- There will be no more lines. -/
  | ended
  deriving Repr, DecidableEq

namespace Pipe

/-- A new pipe of the usual size. -/
def new : Pipe := { bytes := [], held := [], writing := true, reading := true }

/-- How many bytes can be written now without waiting. -/
def room (p : Pipe) : Nat := p.capacity - p.bytes.length

theorem room_of_empty {p : Pipe} (h : p.bytes = []) : p.room = p.capacity := by
  rw [room, h]
  rfl

/-- With more bytes written. -/
def put (p : Pipe) (bs : List UInt8) : Pipe := { p with bytes := p.bytes ++ bs }

/-- With the writing end closed. -/
def closeWriting (p : Pipe) : Pipe := { p with writing := false }

/-- With the reading end closed; what was not read is lost. -/
def closeReading (p : Pipe) : Pipe := { p with reading := false, bytes := [], held := [] }

/-! ## Reading lines -/

/-- The bytes of a line without its line end: a line feed, and a carriage return before it. The end
is taken away before the bytes are decoded, so a character that breaks off before it is
incomplete. -/
def withoutEnd (bs : List UInt8) : List UInt8 :=
  match bs.reverse with
  | 10 :: 13 :: rest | 10 :: rest => rest.reverse
  | _ => bs

/-- The line that some bytes are. -/
def deliver (bs : List UInt8) : Delivery :=
  match Text.Utf8.decode bs with
  | .ok text => .line text
  | .error fault => .unreadable fault

/-- How many bytes a reader of lines takes at once. -/
def readSize : Nat := 8192

/-- A reader that has no complete line takes more bytes, if there are any. -/
def fill? (p : Pipe) : Option Pipe :=
  if p.bytes.isEmpty then none
  else some { p with held := p.held ++ p.bytes.take readSize, bytes := p.bytes.drop readSize }

/-- Takes a line with its line end, or what is left when there is no more to come; `none` while a
line is not complete. -/
def takeLine? (p : Pipe) : Option (List UInt8 × Pipe) :=
  match p.held.span (· != 10) with
  | (line, nl :: rest) => some (line ++ [nl], { p with held := rest })
  | (line, []) =>
    if p.writing || !p.bytes.isEmpty then none else some (line, { p with held := [] })

/-- Reads a line; `none` while a line is not complete. -/
def nextLine? (p : Pipe) : Option (Delivery × Pipe) :=
  p.takeLine?.map fun (line, p) =>
    (if line.isEmpty then .ended else deliver (withoutEnd line), p)

/-- Reads all lines of a pipe whose writer is gone. -/
def drain (p : Pipe) : (fuel : Nat) → List Delivery
  | 0 => []
  | fuel + 1 =>
    match p.nextLine? with
    | none | some (.ended, _) => []
    | some (line, rest) => line :: rest.drain fuel

end Pipe

/-- The lines of some bytes, the last one even without a line end. -/
def linesOf (bs : List UInt8) : List Delivery :=
  Pipe.drain { bytes := [], held := bs, writing := false, reading := true } (bs.length + 1)

end KernelLink.Host
