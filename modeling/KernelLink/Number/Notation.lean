import KernelLink.Number.Shortest
/-!
# Writing a double

The layout of a double as text. The digits are the shortest that read back; the record `Layout`
holds the decisions that are left, and `documentLayout` is the one used in documents and messages:
plain notation while the leading digit stands for a power of ten from −5 to 15, always with a
fraction, and otherwise a mantissa with a signed exponent.

Main definition: `Binary64.text`.
-/
namespace KernelLink
namespace Binary64

/-- The decisions of a number layout that the digits leave open. -/
structure Layout where
  /-- The least exponent of the leading digit that is written out plainly. -/
  leastPlain : Int
  /-- The greatest exponent of the leading digit that is written out plainly. -/
  greatestPlain : Int
  /-- What follows a plain number without fraction digits. -/
  wholeMark : String
  /-- The mark in front of an exponent that is not negative. -/
  risingMark : String
  /-- The mark in front of a negative exponent. -/
  fallingMark : String
  deriving Repr, DecidableEq

/-- The layout of doubles in documents: plain from −5 to 15, a whole number ends in `.0`, and an
exponent always has its sign. -/
def documentLayout : Layout := ⟨-5, 15, ".0", "e+", "e-"⟩

/-- Plain notation of digits whose leading one stands for ten to the power `lead`. -/
def Layout.plain (l : Layout) (digits : List Char) (lead : Int) : List Char :=
  match lead with
  | .negSucc k => '0' :: '.' :: (List.replicate k '0' ++ digits)
  | .ofNat k =>
    if digits.length ≤ k + 1 then
      digits ++ List.replicate (k + 1 - digits.length) '0' ++ l.wholeMark.toList
    else digits.take (k + 1) ++ '.' :: digits.drop (k + 1)

/-- Mantissa and exponent. -/
def Layout.scientific (l : Layout) (digits : List Char) (lead : Int) : List Char :=
  let mantissa :=
    match digits with
    | d :: rest@(_ :: _) => d :: '.' :: rest
    | few => few
  let mark := if lead < 0 then l.fallingMark else l.risingMark
  mantissa ++ mark.toList ++ Nat.toDigits 10 lead.natAbs

/-- The magnitude of a double as text. -/
def Layout.magnitude (l : Layout) (x : Binary64) : List Char :=
  let d := x.shortest
  let digits := Nat.toDigits 10 d.digits
  let lead := d.power + (digits.length : Int) - 1
  if l.leastPlain ≤ lead ∧ lead ≤ l.greatestPlain then l.plain digits lead
  else l.scientific digits lead

/-- A double as documents show it. -/
def text (x : Binary64) : String :=
  String.ofList ((if x.negative then ['-'] else []) ++ documentLayout.magnitude x)

end Binary64
end KernelLink
