import KernelLink.Json.Reader
/-!
# Passing over a value

A member that a record does not know is passed over without being understood: brackets must match
and tokens must be well formed, but numbers may be of any size, escaped halves of pairs may stand
alone, bytes need not be UTF-8, and nesting has no bound. The refusals differ in places from those
of reading: after a comma a value or a key is simply expected, a number that ends early is a bad
number, and a control character inside a text is reported at the place before it.

Main definition: `Json.skipValue`.
-/
namespace KernelLink
namespace Json

/-- Passes over a quoted text, after its opening quote. Of an escape, `skip` bytes are still to
go. -/
def skipText : (skip : Nat) → List UInt8 → Except Fault (List UInt8)
  | _, [] => stop .endInText []
  | skip + 1, _ :: s => skipText skip s
  | 0, b :: s =>
    if glyph b = '"' then .ok s
    else if glyph b = '\\' then
      match s with
      | [] => stop .endInText []
      | e :: r =>
        match glyph e with
        | '"' | '\\' | '/' | 'b' | 'f' | 'n' | 'r' | 't' => skipText 1 s
        | 'u' =>
          match hexQuad r with
          | .ok _ => skipText 5 s
          | .error f => .error f
        | _ => stopAt .badEscape s
    else if b < 0x20 then stop .controlCharacter (b :: s)
    else skipText 0 s

/-- Passes over an exponent, after the `e`. -/
def skipExponent (s : List UInt8) : Except Fault (List UInt8) :=
  let s :=
    match s with
    | b :: r => if glyph b = '+' ∨ glyph b = '-' then r else s
    | [] => []
  match s with
  | b :: r => if isDigit b then .ok (r.dropWhile isDigit) else stopAt .badNumber s
  | [] => stop .badNumber []

/-- Passes over what may follow the digits before the point. -/
def skipTail (s : List UInt8) : Except Fault (List UInt8) :=
  match s with
  | [] => .ok []
  | b :: r =>
    match glyph b with
    | '.' =>
      match r with
      | d :: _ =>
        if isDigit d then
          match r.dropWhile isDigit with
          | [] => .ok []
          | e :: q => if glyph e = 'e' ∨ glyph e = 'E' then skipExponent q else .ok (e :: q)
        else stopAt .badNumber r
      | [] => stop .badNumber []
    | 'e' | 'E' => skipExponent r
    | _ => .ok s

/-- Passes over a number, after its sign. -/
def skipNumber (s : List UInt8) : Except Fault (List UInt8) :=
  match s with
  | [] => stop .badNumber []
  | b :: r =>
    if glyph b = '0' then
      match r with
      | d :: _ => if isDigit d then stopAt .badNumber r else skipTail r
      | [] => .ok []
    else if isDigit b then skipTail (r.dropWhile isDigit)
    else stopAt .badNumber s

/-- A bracket that has been opened. -/
inductive Bracket where
  /-- A sequence. -/
  | list
  /-- An object. -/
  | object
  deriving Repr, DecidableEq

/-- The fault of a text that ends inside the brackets. -/
def Bracket.ending : Bracket → Cause
  | .list => .endInList
  | .object => .endInObject

/-- The fault of a value that is followed by neither comma nor closing bracket. -/
def Bracket.separatorExpected : Bracket → Cause
  | .list => .listEndExpected
  | .object => .objectEndExpected

/-- The closing bracket. -/
def Bracket.closing : Bracket → Char
  | .list => ']'
  | .object => '}'

/-- Closes the brackets that end here, the innermost first, and passes over the comma after them.
`afterValue` tells whether a value has just ended, so that a comma may follow. -/
def skipClosings : (opened : List Bracket) → (afterValue : Bool) → List UInt8 →
    Reading (List Bracket)
  | [], _, s => .ok ([], s)
  | top :: outer, afterValue, s =>
    match skipSpace s with
    | [] => stop top.ending []
    | b :: r =>
      if glyph b = ',' ∧ afterValue then .ok (top :: outer, r)
      else if glyph b = top.closing then skipClosings outer true r
      else if afterValue then stopAt top.separatorExpected (b :: r)
      else .ok (top :: outer, b :: r)

/-- Passes over the key and the colon in front of a member's value; inside a sequence there is
nothing to pass over. -/
def skipKey (inside : Option Bracket) (s : List UInt8) : Except Fault (List UInt8) :=
  match inside with
  | some .object =>
    match skipSpace s with
    | [] => stop .endInObject []
    | b :: r =>
      if glyph b = '"' then do
        let r ← skipText 0 r
        colon r
      else stopAt .keyExpected (b :: r)
  | _ => .ok s

/-- What begins a value: a scalar that has been passed over, or a bracket. -/
def skipStart (s : List UInt8) : Reading (Option Bracket) :=
  match skipSpace s with
  | [] => stop .endInValue []
  | b :: r =>
    match glyph b with
    | 'n' => (word .null ['u', 'l', 'l'] r).map fun (_, r) => (none, r)
    | 't' => (word .null ['r', 'u', 'e'] r).map fun (_, r) => (none, r)
    | 'f' => (word .null ['a', 'l', 's', 'e'] r).map fun (_, r) => (none, r)
    | '"' => (skipText 0 r).map fun r => (none, r)
    | '-' => (skipNumber r).map fun r => (none, r)
    | '[' => .ok (some .list, r)
    | '{' => .ok (some .object, r)
    | _ =>
      if isDigit b then (skipNumber (b :: r)).map fun r => (none, r)
      else stopAt .valueExpected (b :: r)

/-- Passes over values until every bracket in `opened` is closed. -/
def skipLoop : (fuel : Nat) → (opened : List Bracket) → List UInt8 → Except Fault (List UInt8)
  | 0, _, s => stop .tooDeep s
  | fuel + 1, opened, s => do
    let (start, s) ← skipStart s
    let (opened, s) ←
      match start with
      | some bracket => skipClosings (bracket :: opened) false s
      | none => skipClosings opened true s
    match opened with
    | [] => .ok s
    | top :: _ => do
      let s ← skipKey (some top) s
      skipLoop fuel opened s

/-- Passes over one value. -/
def skipValue (s : List UInt8) : Except Fault (List UInt8) := skipLoop (s.length + 1) [] s

end Json
end KernelLink
