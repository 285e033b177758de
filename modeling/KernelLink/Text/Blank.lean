/-!
# Blank characters and trimming

The characters with the White_Space property of the character database, and trimming by them. Lines
of the conversation, greetings and captured error output are all trimmed by this one class; the
blanks *between* the tokens of a document are a smaller class and belong to the document reader.

Main definitions:
* `isBlank`: the twenty-five White_Space characters.
* `trim`, `trimStart`, `trimEnd`: a list of characters without its blanks at the ends.
* `trimmed`, `trimmedEnd`, `isBlankText`: the same on text.
* `preview`: the beginning of a line that may be long.
-/
namespace KernelLink.Text

/-- The White_Space property: tab to carriage return, space, next line, no-break space, Ogham space,
the spaces from U+2000 to U+200A, the line and paragraph separators and the three wide spaces. -/
def isBlank (c : Char) : Bool :=
  let n := c.toNat
  (9 ≤ n && n ≤ 13) || n == 0x20 || n == 0x85 || n == 0xA0 || n == 0x1680 ||
    (0x2000 ≤ n && n ≤ 0x200A) || n == 0x2028 || n == 0x2029 || n == 0x202F || n == 0x205F ||
    n == 0x3000

/-- Without the blanks at the front. -/
def trimStart (cs : List Char) : List Char := cs.dropWhile isBlank

/-- Without the blanks at the back. -/
def trimEnd (cs : List Char) : List Char := (trimStart cs.reverse).reverse

/-- Without the blanks at both ends. -/
def trim (cs : List Char) : List Char := trimEnd (trimStart cs)

/-- Text without the blanks at both ends. -/
def trimmed (s : String) : String := String.ofList (trim s.toList)

/-- Text without the blanks at its end. -/
def trimmedEnd (s : String) : String := String.ofList (trimEnd s.toList)

/-- Does the text hold nothing but blanks? -/
def isBlankText (s : String) : Bool := s.toList.all isBlank

/-- The first `limit` characters of the trimmed text, followed by three dots if that cut something
off. Used where a message shows a line that may be long. -/
def preview (limit : Nat) (s : String) : String :=
  let cs := trim s.toList
  if (cs.drop limit).isEmpty then String.ofList cs
  else String.ofList (cs.take limit) ++ "..."

end KernelLink.Text
