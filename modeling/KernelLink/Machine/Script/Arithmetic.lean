import KernelLink.Machine.Script.Token
/-!
# Expressions in scripts

The whole numbers that a script can reckon with: words of 64 bits with a sign, the usual operators
over numerals and variables, and assignments. A variable that is not set or empty counts as nothing.

Main definitions:
* `Arithmetic.Expr`, `Arithmetic.parse`: an expression and how it is read.
* `Arithmetic.evaluate`: its value and the variables that it sets.
-/
namespace KernelLink.Machine.Script.Arithmetic

/-! ## Pieces -/

/-- A piece of an expression. -/
inductive Piece where
  /-- A number. -/
  | number (n : Int)
  /-- A name. -/
  | name (text : String)
  /-- An operator or bracket. -/
  | sign (text : String)
  deriving Repr, DecidableEq

/-- How many numbers there are. -/
def modulus : Nat := Nat.pow 2 64

/-- The greatest number. -/
def greatest : Int := Nat.pow 2 63 - 1

/-- A number brought back into the range. -/
def wrapped (n : Int) : Int := Int.bmod n modulus

/-- The value of a digit. -/
def digit? (c : Char) : Option Nat :=
  if c.isDigit then some (c.toNat - '0'.toNat)
  else if 'a' ≤ c && c ≤ 'f' then some (c.toNat - 'a'.toNat + 10)
  else if 'A' ≤ c && c ≤ 'F' then some (c.toNat - 'A'.toNat + 10)
  else none

/-- The number that digits of a base are, up to the greatest one, and what follows them. -/
def digits (base : Nat) (cs : List Char) : Int × List Char :=
  let (digits, rest) := cs.span fun c => (digit? c).any (· < base)
  (min greatest (digits.foldl (fun n c => n * base + (digit? c).getD 0) 0 : Nat), rest)

/-- The numeral at the beginning of a text, and what follows it. -/
def numeral (cs : List Char) : Int × List Char :=
  match cs with
  | '0' :: 'x' :: c :: rest | '0' :: 'X' :: c :: rest =>
    if (digit? c).isSome then digits 16 (c :: rest) else (0, cs.drop 1)
  | '0' :: rest => digits 8 ('0' :: rest)
  | cs => digits 10 cs

/-- The operators of more than one character, the longest first. -/
def longSigns : List String :=
  ["<<=", ">>=", "<=", ">=", "==", "!=", "<<", ">>", "&&", "||", "+=", "-=", "*=", "/=", "%=", "&=",
    "|=", "^="]

/-- The pieces of an expression. -/
def pieces : (fuel : Nat) → List Char → List Piece
  | 0, _ | _, [] => []
  | fuel + 1, c :: rest =>
    if c.isWhitespace then pieces fuel rest
    else if c.isDigit then
      let (n, rest) := numeral (c :: rest)
      .number n :: pieces fuel rest
    else if Token.isNameChar c then
      let (name, rest) := (c :: rest).span Token.isNameChar
      .name (String.ofList name) :: pieces fuel rest
    else
      match longSigns.find? fun s => s.toList.isPrefixOf (c :: rest) with
      | some s => .sign s :: pieces fuel ((c :: rest).drop s.length)
      | none => .sign (String.singleton c) :: pieces fuel rest

/-! ## Expressions -/

/-- An expression. -/
inductive Expr where
  /-- A number. -/
  | number (n : Int)
  /-- The value of a variable. -/
  | name (text : String)
  /-- An operator in front of its operand. -/
  | unary (op : String) (a : Expr)
  /-- An operator between its operands. -/
  | binary (op : String) (a b : Expr)
  /-- The second operand unless the first is nothing; otherwise the third. -/
  | choice (condition a b : Expr)
  /-- Sets a variable to what an operator makes of its value; without operator, to the operand. -/
  | assign (name op : String) (a : Expr)
  deriving Repr, Inhabited

/-- How tightly an operator binds, if it stands between two operands. -/
def rank : String → Option Nat
  | "||" => some 1
  | "&&" => some 2
  | "|" => some 3
  | "^" => some 4
  | "&" => some 5
  | "==" | "!=" => some 6
  | "<" | "<=" | ">" | ">=" => some 7
  | "<<" | ">>" => some 8
  | "+" | "-" => some 9
  | "*" | "/" | "%" => some 10
  | _ => none

/-- The operator of an assignment, if it is one. -/
def assigning? (sign : String) : Option String :=
  if sign = "=" then some ""
  else if longSigns.contains sign && sign.endsWith "=" && (rank sign).isNone then
    some (sign.dropEnd 1).toString
  else none

/-- What an expression lacks. -/
def primary : String := "expecting primary"

mutual

/-- An operand, and what follows it. -/
def operand (fuel : Nat) (ps : List Piece) : Except String (Expr × List Piece) :=
  match fuel with
  | 0 => .error primary
  | fuel + 1 =>
    match ps with
    | .number n :: rest => .ok (.number n, rest)
    | .name x :: rest => .ok (.name x, rest)
    | .sign "(" :: rest =>
      match whole fuel rest with
      | .ok (a, .sign ")" :: rest) => .ok (a, rest)
      | .ok _ => .error "expecting ')'"
      | .error reason => .error reason
    | .sign op :: rest =>
      if ["-", "+", "!", "~"].contains op then
        (operand fuel rest).map fun (a, rest) => (.unary op a, rest)
      else .error primary
    | [] => .error primary

/-- What follows the operand `a`, as far as its operators bind at least as tightly as `least`. -/
def continued (fuel least : Nat) (a : Expr) (ps : List Piece) : Except String (Expr × List Piece) :=
  match fuel with
  | 0 => .error primary
  | fuel + 1 =>
    match ps with
    | .sign op :: rest =>
      match rank op with
      | none => .ok (a, ps)
      | some r =>
        if r < least then .ok (a, ps)
        else do
          let (b, rest) ← operand fuel rest
          let (b, rest) ← continued fuel (r + 1) b rest
          continued fuel least (.binary op a b) rest
    | _ => .ok (a, ps)

/-- A whole expression, and what follows it. -/
def whole (fuel : Nat) (ps : List Piece) : Except String (Expr × List Piece) :=
  match fuel with
  | 0 => .error primary
  | fuel + 1 =>
    let plain : Except String (Expr × List Piece) := do
      let (a, rest) ← operand fuel ps
      let (a, rest) ← continued fuel 0 a rest
      match rest with
      | .sign "?" :: rest =>
        let (b, rest) ← whole fuel rest
        match rest with
        | .sign ":" :: rest =>
          let (c, rest) ← whole fuel rest
          return (.choice a b c, rest)
        | _ => .error "expecting ':'"
      | rest => return (a, rest)
    match ps with
    | .name x :: .sign s :: rest =>
      match assigning? s with
      | some op => (whole fuel rest).map fun (a, rest) => (.assign x op a, rest)
      | none => plain
    | _ => plain

end

/-- Reads an expression. -/
def parse (expression : String) : Except String Expr :=
  let cs := expression.toList
  let ps := pieces (cs.length + 1) cs
  match whole (4 * ps.length + 4) ps with
  | .ok (a, []) => .ok a
  | .ok _ => .error "expecting EOF"
  | .error reason => .error reason

/-! ## Values -/

/-- Why an expression has no value. -/
inductive Fault where
  /-- Something is wrong with the expression. -/
  | wrong (reason : String)
  /-- The value of a variable is no number. -/
  | noNumber (text : String)
  deriving Repr, DecidableEq

/-- What is said about an expression without a value. -/
def Fault.message (expression : String) : Fault → String
  | wrong reason => "arithmetic expression: " ++ reason ++ ": \"" ++ expression ++ "\""
  | noNumber text => illegalNumber text

/-- Nothing divides by zero. -/
def divisionByZero : Fault := .wrong "division by zero"

/-- What an operator gives. -/
def operate (op : String) (a b : Int) : Except Fault Int :=
  let truth (p : Bool) : Except Fault Int := .ok (if p then 1 else 0)
  match op with
  | "==" => truth (a == b)
  | "!=" => truth (a != b)
  | "<" => truth (a < b)
  | "<=" => truth (a ≤ b)
  | ">" => truth (b < a)
  | ">=" => truth (b ≤ a)
  | "+" => .ok (wrapped (a + b))
  | "-" => .ok (wrapped (a - b))
  | "*" => .ok (wrapped (a * b))
  | "/" => if b = 0 then .error divisionByZero else .ok (wrapped (a.tdiv b))
  | "%" => if b = 0 then .error divisionByZero else .ok (a.tmod b)
  | "&" => .ok (Int64.ofInt a &&& Int64.ofInt b).toInt
  | "|" => .ok (Int64.ofInt a ||| Int64.ofInt b).toInt
  | "^" => .ok (Int64.ofInt a ^^^ Int64.ofInt b).toInt
  | "<<" => .ok (wrapped (a * (Nat.pow 2 (b.toNat % 64) : Nat)))
  | ">>" => .ok (a.fdiv (Nat.pow 2 (b.toNat % 64) : Nat))
  | _ => .ok b

/-- The variables that have been set, the last one first. -/
abbrev Settings := List (String × Int)

/-- The value of an expression, and the variables set so far. -/
def value (look : String → Except Fault Int) : Expr → Settings → Except Fault (Int × Settings)
  | .number n, set => .ok (n, set)
  | .name x, set =>
    match set.lookup x with
    | some n => .ok (n, set)
    | none => (look x).map (·, set)
  | .unary op a, set => do
    let (n, set) ← value look a set
    match op with
    | "-" => return (wrapped (-n), set)
    | "!" => return (if n = 0 then 1 else 0, set)
    | "~" => return (-n - 1, set)
    | _ => return (n, set)
  | .binary "&&" a b, set => do
    let (n, set) ← value look a set
    if n = 0 then return (0, set)
    let (m, set) ← value look b set
    return (if m = 0 then 0 else 1, set)
  | .binary "||" a b, set => do
    let (n, set) ← value look a set
    if n ≠ 0 then return (1, set)
    let (m, set) ← value look b set
    return (if m = 0 then 0 else 1, set)
  | .binary op a b, set => do
    let (n, set) ← value look a set
    let (m, set) ← value look b set
    return (← operate op n m, set)
  | .choice c a b, set => do
    let (n, set) ← value look c set
    if n = 0 then value look b set else value look a set
  | .assign x op a, set => do
    let (n, set) ← value look a set
    let old ← if op = "" then pure 0 else match set.lookup x with
      | some old => pure old
      | none => look x
    let n ← operate op old n
    return (n, (x, n) :: set)

/-- The number that the value of a variable is. -/
def numberOf (text : String) : Except Fault Int :=
  let cs := ((text.toList.dropWhile Char.isWhitespace).reverse.dropWhile Char.isWhitespace).reverse
  let (negative, digits) :=
    match cs with
    | '-' :: rest => (true, rest)
    | '+' :: rest => (false, rest)
    | cs => (false, cs)
  match cs, numeral digits with
  | [], _ => .ok 0
  | _, (n, []) =>
    if digits.isEmpty then .error (.noNumber text)
    else .ok (if negative then -n else n)
  | _, _ => .error (.noNumber text)

/-- The value of an expression, and the variables that it sets. -/
def evaluate (look : String → String) (expression : String) : Except String (Int × Settings) :=
  let result : Except Fault (Int × Settings) :=
    match parse expression with
    | .error reason => .error (.wrong reason)
    | .ok e => value (fun x => numberOf (look x)) e []
  result.mapError (Fault.message expression)

end KernelLink.Machine.Script.Arithmetic
