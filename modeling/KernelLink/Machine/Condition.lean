import KernelLink.Machine.Program
/-!
# Tests

The truth of a test: comparisons of texts and numbers, questions about files, and what `!`, `-a`,
`-o` and brackets make of them. Three arguments with a comparison in the middle always are that
comparison, whatever else they might be.

Main definitions:
* `World.compare`, `World.ask`: a comparison, and a question about one argument.
* `World.condition`: the truth of a test, or what is wrong with it.
-/
namespace KernelLink.Machine

open Script (illegalNumber)

namespace Condition

/-- The questions about one argument. -/
def questions : List String :=
  ["-b", "-c", "-d", "-e", "-f", "-g", "-h", "-k", "-L", "-n", "-O", "-G", "-p", "-r", "-s", "-S",
    "-t", "-u", "-w", "-x", "-z"]

/-- The comparisons of two arguments. -/
def comparisons : List String :=
  ["=", "!=", "<", ">", "-eq", "-ne", "-gt", "-ge", "-lt", "-le", "-nt", "-ot", "-ef"]

/-- What an argument is in its place. -/
inductive Role where
  /-- There is none. -/
  | missing
  /-- A text. -/
  | operand
  /-- A question. -/
  | question
  /-- A comparison. -/
  | comparison
  /-- Both sides. -/
  | both
  /-- One of the sides. -/
  | either
  /-- The opposite. -/
  | negation
  /-- An opening bracket. -/
  | opening
  /-- A closing bracket. -/
  | closing
  deriving DecidableEq

/-- What the first argument is. A question without argument is a text, and so is one in front of a
comparison that has a second argument. -/
def roleOf : List String → Role
  | [] => .missing
  | first :: rest =>
    if questions.contains first then
      match rest with
      | [] => .operand
      | [_] => .question
      | next :: _ => if comparisons.contains next then .operand else .question
    else if comparisons.contains first then .comparison
    else
      match first with
      | "-a" => .both
      | "-o" => .either
      | "!" => .negation
      | "(" => if rest.isEmpty then .operand else .opening
      | ")" => .closing
      | _ => .operand

/-- The number that a text is, perhaps with blanks around it. -/
def number? (text : String) : Option Int :=
  let bare (cs : List Char) : List Char := cs.dropWhile Char.isWhitespace
  let cs := (bare (bare text.toList).reverse).reverse
  let (sign, digits) : Int × List Char :=
    match cs with
    | '-' :: digits => (-1, digits)
    | '+' :: digits => (1, digits)
    | digits => (1, digits)
  if digits.isEmpty || !digits.all Char.isDigit then none
  else
    let n : Int := sign * ((String.ofList digits).toNat?.getD 0 : Nat)
    if n < -(Nat.pow 2 63) || (Nat.pow 2 63 : Int) ≤ n then none else some n

end Condition

namespace World

open Condition

/-- The truth of a comparison. -/
def compare (m : World) (directory : List UInt8) (a op b : String) : Except String Bool :=
  let numbers (f : Int → Int → Bool) : Except String Bool :=
    match number? a, number? b with
    | none, _ => .error (illegalNumber a)
    | _, none => .error (illegalNumber b)
    | some i, some j => .ok (f i j)
  match op with
  | "=" => .ok (a == b)
  | "!=" => .ok (a != b)
  | "<" => .ok (a < b)
  | ">" => .ok (b < a)
  | "-eq" => numbers (· == ·)
  | "-ne" => numbers (· != ·)
  | "-lt" => numbers (· < ·)
  | "-le" => numbers (· ≤ ·)
  | "-gt" => numbers (· > ·)
  | "-ge" => numbers (· ≥ ·)
  | "-ef" =>
    match m.files.locate directory (bytesOf a), m.files.locate directory (bytesOf b) with
    | .ok (one, _), .ok (other, _) => .ok (one == other)
    | _, _ => .ok false
  | _ => .ok false

/-- The answer to a question. Whoever runs programs here may read and write everything, and no
stream is a terminal. -/
def ask (m : World) (directory : List UInt8) (question a : String) : Bool :=
  match question, m.files.lookFrom directory (bytesOf a) with
  | "-n", _ => a != ""
  | "-z", _ => a == ""
  | "-e", .ok _ | "-r", .ok _ | "-w", .ok _ | "-O", .ok _ | "-G", .ok _ => true
  | "-f", .ok (.file ..) => a != "/dev/null"
  | "-c", .ok (.file ..) => a == "/dev/null"
  | "-d", .ok .directory => true
  | "-s", .ok (.file bytes _) => !bytes.isEmpty
  | "-s", .ok .directory => true
  | "-x", .ok (.file _ executable) => executable
  | "-x", .ok .directory => true
  | "-h", _ | "-L", _ => m.files.isLink directory (bytesOf a)
  | _, _ => false

mutual

/-- The truth of tests of which one is enough, and the arguments from the last one on that they
take. -/
def anyOf (m : World) (directory : List UInt8) (fuel : Nat) (args : List String) :
    Except String (Bool × List String) :=
  match fuel with
  | 0 => .ok (false, args)
  | fuel + 1 => do
    let (a, rest) ← m.allOf directory fuel args
    match roleOf (rest.drop 1) with
    | .either =>
      let (b, rest) ← m.anyOf directory fuel (rest.drop 2)
      return (a || b, rest)
    | _ => return (a, rest)

/-- The truth of tests that are all needed. -/
def allOf (m : World) (directory : List UInt8) (fuel : Nat) (args : List String) :
    Except String (Bool × List String) :=
  match fuel with
  | 0 => .ok (false, args)
  | fuel + 1 => do
    let (a, rest) ← m.oneOf directory fuel args
    match roleOf (rest.drop 1) with
    | .both =>
      let (b, rest) ← m.allOf directory fuel (rest.drop 2)
      return (a && b, rest)
    | _ => return (a, rest)

/-- The truth of one test. -/
def oneOf (m : World) (directory : List UInt8) (fuel : Nat) (args : List String) :
    Except String (Bool × List String) :=
  match fuel with
  | 0 => .ok (false, args)
  | fuel + 1 =>
    match roleOf args, args with
    | .missing, _ => .ok (false, args)
    | .negation, [_] => .ok (true, args)
    | .negation, _ :: rest => (m.oneOf directory fuel rest).map fun (a, rest) => (!a, rest)
    | .opening, _ :: rest =>
      if roleOf rest = .closing then .ok (false, rest)
      else do
        let (a, rest) ← m.anyOf directory fuel rest
        if roleOf (rest.drop 1) = .closing then return (a, rest.drop 1)
        else .error "closing paren expected"
    | .question, question :: a :: rest => .ok (m.ask directory question a, a :: rest)
    | _, a :: rest =>
      match roleOf rest, rest with
      | .comparison, [op] => .error (op ++ ": argument expected")
      | .comparison, op :: b :: rest =>
        (m.compare directory a op b).map fun truth => (truth, b :: rest)
      | _, _ => .ok (a != "", a :: rest)
    | _, [] => .ok (false, [])

end

/-- The truth of a test that takes all arguments. -/
def allArguments (m : World) (directory : List UInt8) (args : List String) : Except String Bool :=
  match m.anyOf directory (4 * args.length + 4) args with
  | .error reason => .error reason
  | .ok (_, first :: _ :: _) => .error (first ++ ": unexpected operator")
  | .ok (truth, _) => .ok truth

/-- The truth of a test. -/
def condition (m : World) (directory : List UInt8) (args : List String) : Except String Bool :=
  let bracketed := args.head? = some "(" && args.getLast? = some ")"
  let few := args.length = 3 || args.length = 4
  match args with
  | [] => .ok false
  | [a, op, b] =>
    if comparisons.contains op then m.compare directory a op b
    else if bracketed then m.allArguments directory [op]
    else m.allArguments directory [a, op, b]
  | "!" :: rest =>
    if few then
      match rest with
      | [a, op, b] =>
        if comparisons.contains op then (m.compare directory a op b).map (! ·)
        else (m.allArguments directory rest).map (! ·)
      | rest => (m.allArguments directory rest).map (! ·)
    else m.allArguments directory args
  | args =>
    if few && bracketed then m.allArguments directory ((args.drop 1).dropLast)
    else m.allArguments directory args

end World
end KernelLink.Machine
