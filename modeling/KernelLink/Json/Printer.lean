import KernelLink.Json.Basic
import KernelLink.Number.Notation
/-!
# Writing documents

The compact form: no blanks between tokens, members in their order. In a text the quote, the
backslash and the controls are escaped, the five common controls by a letter and the others by
number; every other character stands for itself. So no written document contains a line break.

Main definitions: `Json.chars`, `Json.text`, `Json.bytes`.
-/
namespace KernelLink

/-- A number as text. -/
def Number.text : Number → String
  | .int i => toString i
  | .float x => x.text

namespace Json

/-- A digit in base sixteen, in lower case. -/
def hexDigit (n : Nat) : Char := Nat.digitChar n

/-- One character inside a text. -/
def escapedChar (c : Char) : List Char :=
  match c with
  | '"' => ['\\', '"']
  | '\\' => ['\\', '\\']
  | '\x08' => ['\\', 'b']
  | '\t' => ['\\', 't']
  | '\n' => ['\\', 'n']
  | '\x0c' => ['\\', 'f']
  | '\r' => ['\\', 'r']
  | c =>
    if c.toNat < 0x20 then
      ['\\', 'u', '0', '0', hexDigit (c.toNat / 16), hexDigit (c.toNat % 16)]
    else [c]

/-- A text between quotes. -/
def quotedChars (s : String) : List Char := '"' :: (s.toList.flatMap escapedChar ++ ['"'])

mutual
/-- The compact form of a document. -/
def chars : Json → List Char
  | .null => ['n', 'u', 'l', 'l']
  | .bool true => ['t', 'r', 'u', 'e']
  | .bool false => ['f', 'a', 'l', 's', 'e']
  | .num n => n.text.toList
  | .str s => quotedChars s
  | .arr [] => ['[', ']']
  | .arr (v :: vs) => '[' :: (chars v ++ charsItems vs)
  | .obj [] => ['{', '}']
  | .obj ((k, v) :: ms) => '{' :: (quotedChars k ++ ':' :: (chars v ++ charsMembers ms))

/-- The items after the first, and the closing bracket. -/
def charsItems : List Json → List Char
  | [] => [']']
  | v :: vs => ',' :: (chars v ++ charsItems vs)

/-- The members after the first, and the closing brace. -/
def charsMembers : List (String × Json) → List Char
  | [] => ['}']
  | (k, v) :: ms => ',' :: (quotedChars k ++ ':' :: (chars v ++ charsMembers ms))
end

/-- The compact form as text. -/
def text (v : Json) : String := String.ofList (chars v)

end Json
end KernelLink
