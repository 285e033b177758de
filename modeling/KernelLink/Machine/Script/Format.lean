/-!
# What scripts write

The texts of the commands that write their arguments: one joins them with blanks, the other puts
them into a pattern again and again until none is left. Both know the backslash.

Main definitions:
* `echoed`: arguments joined with blanks.
* `Directive`, `Complaint`: how an argument is to be written, and what may be wrong with it.
* `Formatted`, `formatted`: arguments put into a pattern.
-/
namespace KernelLink.Machine.Script

/-! ## Escapes -/

/-- The value of an octal digit. -/
def octal? (c : Char) : Option Nat :=
  if '0' ≤ c && c ≤ '7' then some (c.toNat - '0'.toNat) else none

/-- The character of up to `limit` octal digits, and what follows them. -/
def octalChar (limit : Nat) (cs : List Char) : Char × List Char :=
  let digits := (cs.take limit).takeWhile fun c => (octal? c).isSome
  let n := digits.foldl (fun n c => n * 8 + (octal? c).getD 0) 0
  (Char.ofNat (n % 256), cs.drop digits.length)

/-- What a letter stands for after a backslash. -/
def escaped? : Char → Option Char
  | 'a' => some '\x07'
  | 'b' => some '\x08'
  | 'e' => some '\x1b'
  | 'f' => some '\x0c'
  | 'n' => some '\n'
  | 'r' => some '\r'
  | 't' => some '\t'
  | 'v' => some '\x0b'
  | '\\' => some '\\'
  | _ => none

/-- A text with its escapes replaced, and whether all of it is to be written; the escape `\c` ends
it. -/
def unescaped : (fuel : Nat) → List Char → List Char × Bool
  | 0, _ | _, [] => ([], true)
  | fuel + 1, '\\' :: c :: rest =>
    match c, octal? c, escaped? c with
    | 'c', _, _ => ([], false)
    | c, some _, _ =>
      let (d, rest) := if c = '0' then octalChar 3 rest else octalChar 3 (c :: rest)
      let (cs, whole) := unescaped fuel rest
      (d :: cs, whole)
    | _, none, some d => let (cs, whole) := unescaped fuel rest; (d :: cs, whole)
    | c, none, none => let (cs, whole) := unescaped fuel rest; ('\\' :: c :: cs, whole)
  | fuel + 1, c :: rest => let (cs, whole) := unescaped fuel rest; (c :: cs, whole)

/-- A text with its escapes replaced and something at its end, unless the text was cut off. -/
def spoken (text ending : String) : String :=
  let (cs, whole) := unescaped (text.length + 1) text.toList
  String.ofList cs ++ (if whole then ending else "")

/-- Arguments joined with blanks, with a line end unless the first one is `-n`. -/
def echoed (args : List String) : String :=
  match args with
  | "-n" :: rest => spoken (String.intercalate " " rest) ""
  | args => spoken (String.intercalate " " args) "\n"

/-! ## Patterns -/

/-- What is wrong with an argument or with the pattern. -/
inductive Complaint where
  /-- The argument is no number. -/
  | noNumber (arg : String)
  /-- The argument begins with a number. -/
  | partNumber (arg : String)
  /-- The number is too large. -/
  | tooLarge (arg : String)
  /-- There is no such conversion. -/
  | noConversion (text : String)
  /-- The pattern ends in a conversion. -/
  | unfinished
  deriving Repr, DecidableEq

namespace Complaint

/-- What a shell says. -/
def message : Complaint → String
  | noNumber arg => arg ++ ": expected numeric value"
  | partNumber arg => arg ++ ": not completely converted"
  | tooLarge arg => arg ++ ": Numerical result out of range"
  | noConversion text => text ++ ": invalid directive"
  | unfinished => "missing format character"

/-- What a program says. -/
def programMessage : Complaint → String
  | noNumber arg => "'" ++ arg ++ "': expected a numeric value"
  | partNumber arg => "'" ++ arg ++ "': value not completely converted"
  | tooLarge arg => "'" ++ arg ++ "': Numerical result out of range"
  | noConversion text => text ++ ": invalid conversion specification"
  | unfinished => "%: invalid conversion specification"

/-- Does the rest of the pattern stay unwritten? -/
def isFinal : Complaint → Bool
  | noConversion _ | unfinished => true
  | _ => false

end Complaint

/-- The value of a digit of any base. -/
def digitValue? (c : Char) : Option Nat :=
  if c.isDigit then some (c.toNat - '0'.toNat)
  else if 'a' ≤ c && c ≤ 'f' then some (c.toNat - 'a'.toNat + 10)
  else if 'A' ≤ c && c ≤ 'F' then some (c.toNat - 'A'.toNat + 10)
  else none

/-- The greatest and the least number. -/
def bounds : Int × Int := (Nat.pow 2 63 - 1, -(Nat.pow 2 63))

/-- The number that an argument is. A quote in front of a character asks for the character's
number. -/
def numberOf (arg : String) : Int × Option Complaint :=
  match arg.toList with
  | [] => (0, none)
  | '"' :: c :: _ | '\'' :: c :: _ => (c.toNat, none)
  | cs =>
    let cs := cs.dropWhile Char.isWhitespace
    let (sign, cs) : Int × List Char :=
      match cs with
      | '-' :: cs => (-1, cs)
      | '+' :: cs => (1, cs)
      | cs => (1, cs)
    let (base, cs) : Nat × List Char :=
      match cs with
      | '0' :: 'x' :: cs | '0' :: 'X' :: cs => (16, cs)
      | '0' :: cs => (8, '0' :: cs)
      | cs => (10, cs)
    let (digits, rest) := cs.span fun c => (digitValue? c).any (· < base)
    let n : Int := sign * (digits.foldl (fun n c => n * base + (digitValue? c).getD 0) 0 : Nat)
    if digits.isEmpty then (0, some (.noNumber arg))
    else if bounds.1 < n then (bounds.1, some (.tooLarge arg))
    else if n < bounds.2 then (bounds.2, some (.tooLarge arg))
    else (n, if rest.isEmpty then none else some (.partNumber arg))

/-- How an argument is to be written. -/
structure Directive where
  /-- The signs that change details. -/
  flags : List Char
  /-- The least width. -/
  width : Nat
  /-- The least number of digits, or the greatest number of characters. -/
  limit : Option Nat
  /-- The letter that says as what it is to be written. -/
  conversion : Char

namespace Directive

/-- A text brought to the least width, at the left with blanks after it. -/
def padded (d : Directive) (s : String) : String :=
  let filling := String.ofList (List.replicate (d.width - s.length) ' ')
  if d.flags.contains '-' then s ++ filling else filling ++ s

/-- A number with its sign or the mark of its base. -/
def ofInt (d : Directive) (n : Int) : String :=
  let signed := d.conversion = 'd' || d.conversion = 'i'
  let size := if signed then n.natAbs else (Int.emod n (Nat.pow 2 64 : Nat)).toNat
  let base := if "xX".contains d.conversion then 16 else if d.conversion = 'o' then 8 else 10
  let digits := if d.limit = some 0 && size = 0 then [] else Nat.toDigits base size
  let digits := if d.conversion = 'X' then digits.map Char.toUpper else digits
  let digits := List.replicate (d.limit.getD 0 - digits.length) '0' ++ digits
  let mark :=
    if signed then
      if n < 0 then "-"
      else if d.flags.contains '+' then "+"
      else if d.flags.contains ' ' then " " else ""
    else if d.flags.contains '#' && size ≠ 0 then
      match d.conversion with
      | 'x' => "0x"
      | 'X' => "0X"
      | 'o' => "0"
      | _ => ""
    else ""
  let zeros :=
    if d.flags.contains '0' && !d.flags.contains '-' && d.limit.isNone then
      List.replicate (d.width - mark.length - digits.length) '0'
    else []
  d.padded (mark ++ String.ofList (zeros ++ digits))

/-- An argument as it is to be written, what is wrong with it, and whether more follows. -/
def written (d : Directive) (arg : String) : String × Option Complaint × Bool :=
  match d.conversion with
  | 'b' =>
    let (cs, whole) := unescaped (arg.length + 1) arg.toList
    (d.padded (String.ofList cs), none, whole)
  | 'c' =>
    let cs := if arg.isEmpty then ['\x00'] else arg.toList.take 1
    (d.padded (String.ofList cs), none, true)
  | 'd' | 'i' | 'u' | 'x' | 'X' | 'o' =>
    let (n, complaint) := numberOf arg
    (d.ofInt n, complaint, true)
  | _ =>
    let cs := match d.limit with | some n => arg.toList.take n | none => arg.toList
    (d.padded (String.ofList cs), none, true)

end Directive

/-- What has been written, and what is left. -/
structure Formatted where
  /-- What has been written. -/
  text : String
  /-- What is wrong. -/
  complaints : List Complaint
  /-- The arguments that are left. -/
  args : List String
  /-- Has any argument been taken? -/
  taken : Bool
  /-- Has it come to its end before the end of the pattern? -/
  ended : Bool

namespace Formatted

/-- Writes a text. -/
def put (f : Formatted) (s : String) : Formatted := { f with text := f.text ++ s }

/-- Notes what is wrong. -/
def complain (f : Formatted) (c : Complaint) : Formatted :=
  { f with complaints := f.complaints ++ [c], ended := f.ended || c.isFinal }

/-- Takes an argument; one that is missing is empty. -/
def take (f : Formatted) : String × Formatted :=
  (f.args.head?.getD "", { f with args := f.args.drop 1, taken := true })

/-- A number in a directive, which an argument gives if a star stands for it, and what follows. -/
def measure (f : Formatted) : List Char → Option Nat × List Char × Formatted
  | '*' :: rest =>
    let (arg, f) := f.take
    (some (numberOf arg).1.toNat, rest, f)
  | cs =>
    let (digits, rest) := cs.span Char.isDigit
    ((String.ofList digits).toNat?, rest, f)

/-- Writes an argument as the directive says that follows a percent sign. -/
def direct (f : Formatted) (cs : List Char) : List Char × Formatted :=
  let (flags, rest) := cs.span fun c => "-0+ #".contains c
  let (width, rest, f) := f.measure rest
  let (limit, rest, f) : Option Nat × List Char × Formatted :=
    match rest with
    | '.' :: rest => let (n, rest, f) := f.measure rest; (some (n.getD 0), rest, f)
    | rest => (none, rest, f)
  match rest with
  | [] => ([], f.complain .unfinished)
  | conversion :: rest =>
    if "diouxXcsbeEfFgGaA".contains conversion then
      let (arg, f) := f.take
      let (s, complaint, goesOn) := Directive.written ⟨flags, width.getD 0, limit, conversion⟩ arg
      let f := f.put s
      let f := match complaint with | some c => f.complain c | none => f
      (rest, if goesOn then f else { f with ended := true })
    else
      let used := cs.take (cs.length - rest.length)
      (rest, f.complain (.noConversion (String.ofList ('%' :: used))))

/-- Goes through a pattern once. -/
def once (f : Formatted) : (fuel : Nat) → List Char → Formatted
  | 0, _ | _, [] => f
  | fuel + 1, c :: rest =>
    if f.ended then f
    else
      match c, rest with
      | '%', '%' :: rest => (f.put "%").once fuel rest
      | '%', rest => let (rest, f) := f.direct rest; f.once fuel rest
      | '\\', d :: rest =>
        match octal? d, escaped? d with
        | some _, _ =>
          let (e, rest) := octalChar 3 (d :: rest)
          (f.put (String.singleton e)).once fuel rest
        | none, some e => (f.put (String.singleton e)).once fuel rest
        | none, none =>
          if d = 'c' then { f with ended := true }
          else if d = '"' then (f.put "\"").once fuel rest
          else (f.put (String.ofList ['\\', d])).once fuel rest
      | c, rest => (f.put (String.singleton c)).once fuel rest

/-- Goes through a pattern until no argument is left; one that takes none is gone through once. -/
def whole (f : Formatted) (cs : List Char) : (rounds : Nat) → Formatted
  | 0 => f
  | rounds + 1 =>
    let f := { f with taken := false }.once (cs.length + 1) cs
    if f.args.isEmpty || !f.taken || f.ended then f else f.whole cs rounds

end Formatted

/-- Arguments put into the pattern that the first one is; `none` without a pattern. -/
def formatted (args : List String) : Option Formatted :=
  match if args.head? = some "--" then args.drop 1 else args with
  | [] => none
  | pattern :: args =>
    some (Formatted.whole ⟨"", [], args, false, false⟩ pattern.toList (args.length + 1))

end KernelLink.Machine.Script
