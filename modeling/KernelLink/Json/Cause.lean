import KernelLink.Json.Basic
import KernelLink.Number.Notation
import KernelLink.Text.Quoted
/-!
# Why a text is refused

The causes for which a text is no document, or a document does not have the shape of a record, with
their wording. A refusal found while reading text knows where it happened: the line counted from
one, and the number of bytes on that line up to the point. One found in a finished document has no
place.

Main definitions:
* `Mismatch`: a document of the wrong shape.
* `Cause`: every cause, and its `Category`.
* `ReadError`: a cause and its place; `ReadError.message` is the wording.
-/
namespace KernelLink
namespace Json

/-- What was found where something else was wanted. -/
inductive Found where
  /-- The empty value. -/
  | null
  /-- A truth value. -/
  | bool (value : Bool)
  /-- An integer. -/
  | int (value : Int)
  /-- A double. -/
  | float (value : Binary64)
  /-- A text. -/
  | str (value : String)
  /-- A sequence. -/
  | sequence
  /-- An object. -/
  | map
  deriving Repr, DecidableEq

/-- What a document is found to be. -/
def found : Json → Found
  | .null => .null
  | .bool b => .bool b
  | .num (.int i) => .int i
  | .num (.float x) => .float x
  | .str s => .str s
  | .arr _ => .sequence
  | .obj _ => .map

/-- A name between backticks. -/
def ticked (s : String) : String := "`" ++ s ++ "`"

/-- The wording of what was found. -/
def Found.text : Found → String
  | .null => "null"
  | .bool b => "boolean " ++ ticked (if b then "true" else "false")
  | .int i => "integer " ++ ticked (toString i)
  | .float x => "floating point " ++ ticked x.text
  | .str s => "string " ++ Text.quoted s
  | .sequence => "sequence"
  | .map => "map"

/-- How a document fails to have the shape of a record. -/
inductive Mismatch where
  /-- A value of the wrong kind. -/
  | wrongType (found : Found) (expected : String)
  /-- A value of the right kind out of its range. -/
  | wrongValue (found : Found) (expected : String)
  /-- A field that must be there and is not. -/
  | missingField (name : String)
  /-- A field that is there twice. -/
  | duplicateField (name : String)
  /-- A tag that names none of the known variants. -/
  | unknownVariant (name : String) (known : List String)
  /-- A sequence with a wrong number of elements. -/
  | wrongLength (count : Nat) (expected : String)
  deriving Repr, DecidableEq

/-- The wording of a mismatch. -/
def Mismatch.message : Mismatch → String
  | .wrongType found expected => "invalid type: " ++ found.text ++ ", expected " ++ expected
  | .wrongValue found expected => "invalid value: " ++ found.text ++ ", expected " ++ expected
  | .missingField name => "missing field " ++ ticked name
  | .duplicateField name => "duplicate field " ++ ticked name
  | .unknownVariant name known =>
    "unknown variant " ++ ticked name ++ ", expected one of " ++
      String.intercalate ", " (known.map ticked)
  | .wrongLength count expected => "invalid length " ++ toString count ++ ", expected " ++ expected

/-- Why a text is refused. -/
inductive Cause where
  /-- The text ends where a value should be, or inside a word or a number. -/
  | endInValue
  /-- The text ends inside a sequence. -/
  | endInList
  /-- The text ends inside an object. -/
  | endInObject
  /-- The text ends inside a quoted text. -/
  | endInText
  /-- No value begins like this. -/
  | valueExpected
  /-- A word that begins like `null`, `true` or `false` and is none of them. -/
  | wordExpected
  /-- Neither comma nor bracket follows an element. -/
  | listEndExpected
  /-- Neither comma nor brace follows a member. -/
  | objectEndExpected
  /-- No colon follows a key. -/
  | colonExpected
  /-- A bracket or brace follows a comma. -/
  | trailingComma
  /-- A key is not a quoted text. -/
  | keyExpected
  /-- Something follows the value. -/
  | trailingCharacters
  /-- A number that breaks the grammar of numbers. -/
  | badNumber
  /-- A number past the greatest double. -/
  | numberTooLarge
  /-- A control character that is not escaped. -/
  | controlCharacter
  /-- An escape of no known form. -/
  | badEscape
  /-- The second half of an escaped pair is missing. -/
  | endOfEscape
  /-- A half of an escaped pair without the other. -/
  | loneSurrogate
  /-- A quoted text whose bytes are not UTF-8. -/
  | badUtf8
  /-- Too many arrays and objects are nested. -/
  | tooDeep
  /-- A document of the wrong shape. -/
  | mismatch (how : Mismatch)
  deriving Repr, DecidableEq

/-- The wording of a cause, without its place. -/
def Cause.message : Cause → String
  | .endInValue => "EOF while parsing a value"
  | .endInList => "EOF while parsing a list"
  | .endInObject => "EOF while parsing an object"
  | .endInText => "EOF while parsing a string"
  | .valueExpected => "expected value"
  | .wordExpected => "expected ident"
  | .listEndExpected => "expected `,` or `]`"
  | .objectEndExpected => "expected `,` or `\x7d`"
  | .colonExpected => "expected `:`"
  | .trailingComma => "trailing comma"
  | .keyExpected => "key must be a string"
  | .trailingCharacters => "trailing characters"
  | .badNumber => "invalid number"
  | .numberTooLarge => "number out of range"
  | .controlCharacter => "control character (\\u0000-\\u001F) found while parsing a string"
  | .badEscape => "invalid escape"
  | .endOfEscape => "unexpected end of hex escape"
  | .loneSurrogate => "lone leading surrogate in hex escape"
  | .badUtf8 => "invalid unicode code point"
  | .tooDeep => "recursion limit exceeded"
  | .mismatch how => how.message

/-- The three families of causes. -/
inductive Category where
  /-- The text breaks the grammar. -/
  | syntactic
  /-- The text ends too early. -/
  | ending
  /-- The document has the wrong shape. -/
  | shape
  deriving Repr, DecidableEq

/-- The family of a cause. -/
def Cause.category : Cause → Category
  | .endInValue | .endInList | .endInObject | .endInText => .ending
  | .mismatch _ => .shape
  | _ => .syntactic

/-- A place in a text. -/
structure Position where
  /-- One more than the line breaks before the place. -/
  line : Nat
  /-- The bytes between the last line break and the place. -/
  column : Nat
  deriving Repr, DecidableEq

/-- The place after the given bytes. -/
def Position.after (consumed : List UInt8) : Position :=
  ⟨1 + consumed.count 10, (consumed.reverse.takeWhile (· != 10)).length⟩

/-- Why and where a text was refused. -/
structure ReadError where
  /-- The cause. -/
  cause : Cause
  /-- The place, if the cause was found while reading text. -/
  place : Option Position
  deriving Repr, DecidableEq

/-- A mismatch found in a finished document. -/
def Mismatch.error (m : Mismatch) : ReadError := ⟨.mismatch m, none⟩

/-- The wording of a refusal. -/
def ReadError.message (e : ReadError) : String :=
  match e.place with
  | none => e.cause.message
  | some p => e.cause.message ++ s!" at line {p.line} column {p.column}"

end Json
end KernelLink
