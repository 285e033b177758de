/-!
# Reading bytes as UTF-8

A byte stream is cut into pieces one byte at a time: a character, or a broken sequence of one to
three bytes. A broken sequence is the longest part that could still have begun a character, so the
byte that breaks it is looked at again as the start of the next piece. Two readings are built on the
pieces: the strict one, which names the first broken sequence, and the lossy one, which puts U+FFFD
in its place.

Main definitions:
* `encode`: the bytes of a list of characters.
* `pieces`: the pieces of a byte stream.
* `decode`: strict reading, with the `Fault` that stopped it.
* `lossy`: reading that replaces what is broken.
-/
namespace KernelLink.Text.Utf8

/-- The bytes of a list of characters. -/
def encode (cs : List Char) : List UInt8 := cs.flatMap String.utf8EncodeChar

/-- The bytes of a text. -/
def bytes (s : String) : List UInt8 := encode s.toList

/-- One piece of a byte stream. -/
inductive Piece where
  /-- A complete character. -/
  | char (c : Char)
  /-- So many bytes, `size`, that begin a character and are not continued as it demands, or one byte
  that begins none. -/
  | broken (size : Nat)
  /-- So many bytes, `size`, at the very end that begin a character whose rest is missing. -/
  | unfinished (size : Nat)
  deriving Repr, DecidableEq

/-- A character of which some bytes have been read. -/
structure Pending where
  /-- How many bytes have been read. -/
  size : Nat
  /-- The bits read so far. -/
  bits : Nat
  /-- How many bytes are still to come, not counting the next one. -/
  more : Nat
  /-- The least value that the next byte may have. -/
  low : Nat
  /-- The greatest value that the next byte may have. -/
  high : Nat
  deriving Repr, DecidableEq

/-- What the first byte of a piece begins. The narrowed ranges of the second byte rule out overlong
forms, surrogates and values past U+10FFFF. -/
def lead (b : Nat) : Piece ⊕ Pending :=
  if b < 0x80 then .inl (.char (Char.ofNat b))
  else if b < 0xC2 then .inl (.broken 1)
  else if b < 0xE0 then .inr ⟨1, b - 0xC0, 0, 0x80, 0xBF⟩
  else if b == 0xE0 then .inr ⟨1, 0, 1, 0xA0, 0xBF⟩
  else if b == 0xED then .inr ⟨1, 0xD, 1, 0x80, 0x9F⟩
  else if b < 0xF0 then .inr ⟨1, b - 0xE0, 1, 0x80, 0xBF⟩
  else if b == 0xF0 then .inr ⟨1, 0, 2, 0x90, 0xBF⟩
  else if b < 0xF4 then .inr ⟨1, b - 0xF0, 2, 0x80, 0xBF⟩
  else if b == 0xF4 then .inr ⟨1, 4, 2, 0x80, 0x8F⟩
  else .inl (.broken 1)

/-- A pending character joined by a byte that it admits. -/
def Pending.join (p : Pending) (b : Nat) : Piece ⊕ Pending :=
  let bits := p.bits * 64 + (b - 0x80)
  match p.more with
  | 0 => .inl (.char (Char.ofNat bits))
  | more + 1 => .inr ⟨p.size + 1, bits, more, 0x80, 0xBF⟩

/-- The pieces of a byte stream, the last one first, put in front of those already found. -/
def piecesFrom (found : List Piece) : Option Pending → List UInt8 → List Piece
  | none, [] => found
  | some p, [] => .unfinished p.size :: found
  | none, b :: bs =>
    match lead b.toNat with
    | .inl piece => piecesFrom (piece :: found) none bs
    | .inr p => piecesFrom found (some p) bs
  | some p, b :: bs =>
    if p.low ≤ b.toNat && b.toNat ≤ p.high then
      match p.join b.toNat with
      | .inl piece => piecesFrom (piece :: found) none bs
      | .inr p => piecesFrom found (some p) bs
    else
      match lead b.toNat with
      | .inl piece => piecesFrom (piece :: .broken p.size :: found) none bs
      | .inr q => piecesFrom (.broken p.size :: found) (some q) bs

/-- The pieces of a byte stream in order. -/
def pieces (bs : List UInt8) : List Piece := (piecesFrom [] none bs).reverse

/-- What is shown for a piece when broken sequences are replaced. -/
def Piece.shown : Piece → Char
  | .char c => c
  | .broken _ | .unfinished _ => Char.ofNat 0xFFFD

/-- Lossy reading: each broken sequence becomes one U+FFFD. -/
def lossy (bs : List UInt8) : String := String.ofList ((pieces bs).map Piece.shown)

/-- Why bytes are not UTF-8. -/
inductive Fault where
  /-- So many bytes, `size`, from `index` on are no character. -/
  | invalid (size index : Nat)
  /-- The bytes from `index` on begin a character that the end cuts off. -/
  | incomplete (index : Nat)
  deriving Repr, DecidableEq

/-- The wording of a fault. -/
def Fault.message : Fault → String
  | .invalid size index =>
    s!"invalid utf-8 sequence of {size} bytes from index {index}"
  | .incomplete index => s!"incomplete utf-8 byte sequence from index {index}"

/-- The characters of pieces that begin at byte `index`, up to the first fault. -/
def charsOf (index : Nat) (read : List Char) : List Piece → Except Fault (List Char)
  | [] => .ok read.reverse
  | .char c :: ps => charsOf (index + c.utf8Size) (c :: read) ps
  | .broken size :: _ => .error (.invalid size index)
  | .unfinished _ :: _ => .error (.incomplete index)

/-- Strict reading: the text, or the first fault. -/
def decode (bs : List UInt8) : Except Fault String :=
  (charsOf 0 [] (pieces bs)).map String.ofList

end KernelLink.Text.Utf8
