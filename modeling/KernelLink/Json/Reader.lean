import KernelLink.Json.Cause
import KernelLink.Text.Utf8
/-!
# Reading documents

A reader takes the bytes that are left and gives back a result with the bytes that are left after
it, or the fault that stopped it. Faults remember how many bytes were left, so that the place can be
computed once, when a reading has failed.

Nesting is bounded by a number of levels that every bracket uses up. Loops over elements and members
are bounded by `fuel`; the length of the text is always enough, since every round takes at least one
byte.

Main definitions:
* `Json.value`: one value in front of any other bytes.
* `Json.document`: one value and blanks around it.
* `Json.read`: a whole text, with the place of a fault.
-/
namespace KernelLink
namespace Json

/-- A cause, and how many bytes were left where it was found. -/
structure Fault where
  /-- The cause. -/
  cause : Cause
  /-- How many bytes were left. -/
  left : Nat
  deriving Repr, DecidableEq

/-- What a reader gives: its result and the bytes after it. -/
abbrev Reading (α : Type) := Except Fault (α × List UInt8)

/-- A fault at the bytes that are left. -/
def stop {α : Type} (cause : Cause) (s : List UInt8) : Except Fault α := .error ⟨cause, s.length⟩

/-- A fault at the next byte, which counts as read; at the end of the text there is none to
count. -/
def stopAt {α : Type} (cause : Cause) (s : List UInt8) : Except Fault α :=
  .error ⟨cause, s.length - 1⟩

/-- The character of a byte below 0x80; other bytes match no character of the grammar. -/
abbrev glyph (b : UInt8) : Char := Char.ofUInt8 b

/-- The blanks between tokens: space, tab, line feed and carriage return. -/
def isSpace (b : UInt8) : Bool :=
  match glyph b with
  | ' ' | '\t' | '\n' | '\r' => true
  | _ => false

/-- The bytes after any blanks. -/
def skipSpace (s : List UInt8) : List UInt8 := s.dropWhile isSpace

/-- Is the byte a decimal digit? -/
def isDigit (b : UInt8) : Bool := (glyph b).isDigit

/-- The value of a decimal digit. -/
def digitValue (b : UInt8) : Nat := b.toNat - 0x30

/-! ## Words and texts -/

/-- The rest of a word whose first letter has been read. -/
def word (meaning : Json) : List Char → List UInt8 → Reading Json
  | [], s => .ok (meaning, s)
  | _ :: _, [] => stop .endInValue []
  | c :: cs, b :: s => if glyph b = c then word meaning cs s else stopAt .wordExpected (b :: s)

/-- The value of a digit in base sixteen. -/
def hexValue (b : UInt8) : Option Nat :=
  let c := glyph b
  if '0' ≤ c ∧ c ≤ '9' then some (c.toNat - '0'.toNat)
  else if 'a' ≤ c ∧ c ≤ 'f' then some (c.toNat - 'a'.toNat + 10)
  else if 'A' ≤ c ∧ c ≤ 'F' then some (c.toNat - 'A'.toNat + 10)
  else none

/-- Four digits in base sixteen. All four bytes count as read when one of them is no digit. -/
def hexQuad : List UInt8 → Reading Nat
  | a :: b :: c :: d :: s =>
    match hexValue a, hexValue b, hexValue c, hexValue d with
    | some a, some b, some c, some d => .ok (((a * 16 + b) * 16 + c) * 16 + d, s)
    | _, _, _, _ => stop .badEscape s
  | _ => stop .endInText []

/-- A character given by number, after the `u`: one unit, or two for a character past U+FFFF. Tells
how many bytes that took. -/
def numbered (s : List UInt8) : Except Fault (Char × Nat) := do
  let (n, s) ← hexQuad s
  if 0xDC00 ≤ n ∧ n ≤ 0xDFFF then stop .loneSurrogate s
  else if n < 0xD800 ∨ 0xDBFF < n then .ok (Char.ofNat n, 4)
  else
    match s with
    | [] => stop .endInText []
    | b :: s =>
      if glyph b ≠ '\\' then stopAt .endOfEscape (b :: s)
      else
        match s with
        | [] => stop .endInText []
        | b :: s =>
          if glyph b ≠ 'u' then stopAt .endOfEscape (b :: s)
          else do
            let (m, s) ← hexQuad s
            if 0xDC00 ≤ m ∧ m ≤ 0xDFFF then
              .ok (Char.ofNat (0x10000 + (n - 0xD800) * 1024 + (m - 0xDC00)), 10)
            else stop .loneSurrogate s

/-- The character that an escape stands for, after the backslash, and how many bytes name it. -/
def escape (s : List UInt8) : Except Fault (Char × Nat) :=
  match s with
  | [] => stop .endInText []
  | b :: r =>
    match glyph b with
    | '"' => .ok ('"', 1)
    | '\\' => .ok ('\\', 1)
    | '/' => .ok ('/', 1)
    | 'b' => .ok ('\x08', 1)
    | 'f' => .ok ('\x0c', 1)
    | 'n' => .ok ('\n', 1)
    | 'r' => .ok ('\r', 1)
    | 't' => .ok ('\t', 1)
    | 'u' => (numbered r).map fun (c, size) => (c, size + 1)
    | _ => stopAt .badEscape s

/-- The bytes of a quoted text up to its closing quote, those of `found` before them in reverse. Of
an escape that has been read already, `skip` bytes are still to be passed over. -/
def quotedBytes (found : List UInt8) : (skip : Nat) → List UInt8 → Reading (List UInt8)
  | _, [] => stop .endInText []
  | skip + 1, _ :: s => quotedBytes found skip s
  | 0, b :: s =>
    if glyph b = '"' then .ok (found.reverse, s)
    else if glyph b = '\\' then
      match escape s with
      | .ok (c, size) => quotedBytes ((String.utf8EncodeChar c).reverse ++ found) size s
      | .error f => .error f
    else if b < 0x20 then stopAt .controlCharacter (b :: s)
    else quotedBytes (b :: found) 0 s

/-- A quoted text, after its opening quote. -/
def quotedText (s : List UInt8) : Reading String :=
  match quotedBytes [] 0 s with
  | .error f => .error f
  | .ok (bytes, r) =>
    match Text.Utf8.decode bytes with
    | .ok t => .ok (t, r)
    | .error _ => stop .badUtf8 r

/-! ## Numbers -/

/-- The greatest integer of a machine word; digits that would pass it are dropped. -/
def wordLimit : Nat := Nat.pow 2 64 - 1

/-- The digits of a number that were kept, and the power of ten that stands for those dropped. -/
structure Digits where
  /-- The kept digits as one number. -/
  kept : Nat
  /-- The power of ten. -/
  power : Int
  deriving Repr, DecidableEq

/-- Joins the digits before the point. From the first digit on that would pass the limit all are
dropped, and each raises the power. -/
def Digits.joinWhole (kept : Nat) : List UInt8 → Digits
  | [] => ⟨kept, 0⟩
  | b :: bs =>
    if wordLimit < kept * 10 + digitValue b then ⟨kept, ((b :: bs).length : Int)⟩
    else joinWhole (kept * 10 + digitValue b) bs

/-- Joins the digits after the point. From the first digit on that would pass the limit all are
dropped without a trace. -/
def Digits.joinFraction (d : Digits) : List UInt8 → Digits
  | [] => d
  | b :: bs =>
    if wordLimit < d.kept * 10 + digitValue b then d
    else joinFraction ⟨d.kept * 10 + digitValue b, d.power - 1⟩ bs

/-- The digits of an exponent as a number, those of `n` before them. An exponent past `2 ^ 31 - 1`
is `none`, with the bytes after the digit that passed it. -/
def exponentDigits (n : Nat) : List UInt8 → Option Nat × List UInt8
  | [] => (some n, [])
  | b :: s =>
    if isDigit b then
      if Nat.pow 2 31 - 1 < n * 10 + digitValue b then (none, s)
      else exponentDigits (n * 10 + digitValue b) s
    else (some n, b :: s)

/-- A number with a point or an exponent. -/
def floatOf (negative : Bool) (d : Digits) (s : List UInt8) : Reading Number :=
  match Binary64.ofDecimal d.kept d.power with
  | some x => .ok (.float { x with negative := negative }, s)
  | none => stop .numberTooLarge s

/-- The exponent of a number, after the `e`. -/
def numberExponent (negative : Bool) (d : Digits) (s : List UInt8) : Reading Number :=
  let (falling, s) :=
    match s with
    | b :: r =>
      if glyph b = '+' then (false, r) else if glyph b = '-' then (true, r) else (false, s)
    | [] => (false, [])
  match s with
  | [] => stop .endInValue []
  | b :: r =>
    if isDigit b then
      match exponentDigits (digitValue b) r with
      | (some e, r) =>
        floatOf negative { d with power := if falling then d.power - e else d.power + e } r
      | (none, r) =>
        if d.kept ≠ 0 ∧ ¬ falling then stop .numberTooLarge r
        else .ok (.float { Binary64.zero with negative := negative }, r.dropWhile isDigit)
    else stopAt .badNumber s

/-- The fraction of a number, after the point. -/
def numberFraction (negative : Bool) (d : Digits) (s : List UInt8) : Reading Number :=
  let digits := s.takeWhile isDigit
  let rest := s.dropWhile isDigit
  if digits.isEmpty then
    match s with
    | [] => stop .endInValue []
    | _ => stopAt .badNumber s
  else
    let d := d.joinFraction digits
    match rest with
    | b :: r =>
      if glyph b = 'e' ∨ glyph b = 'E' then numberExponent negative d r else floatOf negative d rest
    | [] => floatOf negative d []

/-- A number that is neither fraction nor exponent: an integer if it fits, else a double. There is
no negative zero among the integers, so `-0` is a double. -/
def wholeNumber (negative : Bool) (d : Digits) (s : List UInt8) : Reading Number :=
  if d.power ≠ 0 then floatOf negative d s
  else if ¬ negative then .ok (.int d.kept, s)
  else if d.kept = 0 ∨ Nat.pow 2 63 < d.kept then .ok (.float (Binary64.ofNat d.kept).neg, s)
  else .ok (.int (-d.kept), s)

/-- What may follow the digits before the point. -/
def numberTail (negative : Bool) (d : Digits) (s : List UInt8) : Reading Number :=
  match s with
  | [] => wholeNumber negative d []
  | b :: r =>
    match glyph b with
    | '.' => numberFraction negative d r
    | 'e' | 'E' => numberExponent negative d r
    | _ => wholeNumber negative d s

/-- A number, after its sign. -/
def number (negative : Bool) (s : List UInt8) : Reading Number :=
  match s with
  | [] => stop .endInValue []
  | b :: r =>
    if glyph b = '0' then
      match r with
      | b' :: _ => if isDigit b' then stopAt .badNumber r else numberTail negative ⟨0, 0⟩ r
      | [] => numberTail negative ⟨0, 0⟩ r
    else if isDigit b then
      numberTail negative (Digits.joinWhole 0 (s.takeWhile isDigit)) (s.dropWhile isDigit)
    else stopAt .badNumber s

/-! ## Sequences and objects -/

/-- Is there another element? The bytes after `true` begin with it, those after `false` follow the
closing bracket. -/
def nextItem (first : Bool) (s : List UInt8) : Reading Bool :=
  match skipSpace s with
  | [] => stop .endInList []
  | b :: r =>
    if glyph b = ']' then .ok (false, r)
    else if first then .ok (true, b :: r)
    else if glyph b = ',' then
      match skipSpace r with
      | [] => stop .endInValue []
      | b' :: r' =>
        if glyph b' = ']' then stopAt .trailingComma (b' :: r') else .ok (true, b' :: r')
    else stopAt .listEndExpected (b :: r)

/-- The key of another member, if there is one; the bytes after `none` follow the closing brace. -/
def nextKey (first : Bool) (s : List UInt8) : Reading (Option String) :=
  match skipSpace s with
  | [] => stop .endInObject []
  | b :: r =>
    if glyph b = '}' then .ok (none, r)
    else if first then
      if glyph b = '"' then (quotedText r).map fun (k, r) => (some k, r)
      else stopAt .keyExpected (b :: r)
    else if glyph b = ',' then
      match skipSpace r with
      | [] => stop .endInValue []
      | b' :: r' =>
        match glyph b' with
        | '"' => (quotedText r').map fun (k, r) => (some k, r)
        | '}' => stopAt .trailingComma (b' :: r')
        | _ => stopAt .keyExpected (b' :: r')
    else stopAt .objectEndExpected (b :: r)

/-- The colon after a key. -/
def colon (s : List UInt8) : Except Fault (List UInt8) :=
  match skipSpace s with
  | [] => stop .endInObject []
  | b :: r => if glyph b = ':' then .ok r else stopAt .colonExpected (b :: r)

/-- The elements of a sequence up to its closing bracket, those of `found` before them in
reverse. -/
def items (item : List UInt8 → Reading Json) : (fuel : Nat) → (found : List Json) → List UInt8 →
    Reading (List Json)
  | 0, _, s => stop .tooDeep s
  | fuel + 1, found, s =>
    match nextItem found.isEmpty s with
    | .error f => .error f
    | .ok (false, r) => .ok (found.reverse, r)
    | .ok (true, r) =>
      match item r with
      | .error f => .error f
      | .ok (v, r) => items item fuel (v :: found) r

/-- Goes through the members of an object up to its closing brace. `step` takes what the members so
far gave, a key, and the bytes after the key. -/
def members {σ : Type} (step : σ → String → List UInt8 → Reading σ) :
    (fuel : Nat) → (first : Bool) → σ → List UInt8 → Reading σ
  | 0, _, _, s => stop .tooDeep s
  | fuel + 1, first, found, s =>
    match nextKey first s with
    | .error f => .error f
    | .ok (none, r) => .ok (found, r)
    | .ok (some key, r) =>
      match step found key r with
      | .error f => .error f
      | .ok (found, r) => members step fuel false found r

/-- Adds a member with any value to those already found. -/
def addMember (item : List UInt8 → Reading Json) (found : List (String × Json)) (key : String)
    (s : List UInt8) : Except Fault (List (String × Json) × List UInt8) := do
  let s ← colon s
  let (v, s) ← item s
  return ((key, v) :: found, s)

/-- One value, with at most `levels` arrays and objects in one another. -/
def value (fuel : Nat) : (levels : Nat) → List UInt8 → Reading Json
  | levels, s =>
    match skipSpace s with
    | [] => stop .endInValue []
    | b :: r =>
      match glyph b with
      | 'n' => word .null ['u', 'l', 'l'] r
      | 't' => word (.bool true) ['r', 'u', 'e'] r
      | 'f' => word (.bool false) ['a', 'l', 's', 'e'] r
      | '"' => (quotedText r).map fun (t, r) => (.str t, r)
      | '-' => (number true r).map fun (n, r) => (.num n, r)
      | '[' =>
        match levels with
        | 0 => stopAt .tooDeep (b :: r)
        | levels + 1 => (items (value fuel levels) fuel [] r).map fun (vs, r) => (.arr vs, r)
      | '{' =>
        match levels with
        | 0 => stopAt .tooDeep (b :: r)
        | levels + 1 =>
          (members (addMember (value fuel levels)) fuel true [] r).map fun (ms, r) =>
            (.obj ms.reverse, r)
      | _ =>
        if isDigit b then (number false (b :: r)).map fun (n, r) => (.num n, r)
        else stopAt .valueExpected (b :: r)

/-- How many arrays and objects may be in one another. -/
def nestingLimit : Nat := 127

/-- Refuses anything but blanks. -/
def finish (s : List UInt8) : Except Fault Unit :=
  match skipSpace s with
  | [] => .ok ()
  | r => stopAt .trailingCharacters r

/-- One value with nothing but blanks around it. -/
def document (s : List UInt8) : Except Fault Json := do
  let (v, r) ← value (s.length + 1) nestingLimit s
  finish r
  return v

/-- Gives a fault its place in the whole text. -/
def Fault.locate (whole : List UInt8) (f : Fault) : ReadError :=
  ⟨f.cause, some (Position.after (whole.take (whole.length - f.left)))⟩

/-- Reads a whole text; members keep their order and duplicates. -/
def read (s : List UInt8) : Except ReadError Json := (document s).mapError (Fault.locate s)

/-- Reads a whole text as an untyped value, that is, in normal form. -/
def readValue (s : List UInt8) : Except ReadError Json := (read s).map normal

end Json
end KernelLink
