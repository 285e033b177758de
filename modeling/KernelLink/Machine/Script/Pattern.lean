/-!
# Patterns

What a text has to look like: a star fits anything, a question mark fits one character, a set in
brackets fits one of its characters, and everything else fits itself. A quoted character always fits
itself.

Main definitions:
* `Pattern.fits`: does a text look like that?
* `Pattern.trimmed`: a text without what fits at one of its ends.
-/
namespace KernelLink.Machine.Script

/-- Characters, each with whether it fits only itself. -/
abbrev Pattern := List (Char × Bool)

namespace Pattern

/-- What stands in a set, up to the bracket that closes it, and what follows it. The bracket may be
the first member. -/
def upToBracket : (isFirst : Bool) → Pattern → Option (Pattern × Pattern)
  | _, [] => none
  | isFirst, (c, literal) :: rest =>
    if c = ']' && !literal && !isFirst then some ([], rest)
    else (upToBracket false rest).map fun (inside, rest) => ((c, literal) :: inside, rest)

/-- The members of a set, as ranges. -/
def ranges : Pattern → List (Char × Char)
  | [] => []
  | (c, _) :: ('-', false) :: (d, _) :: rest => (c, d) :: ranges rest
  | (c, _) :: rest => (c, c) :: ranges rest

/-- A set: whether it is turned around, its members, and what follows it. -/
def set? (p : Pattern) : Option (Bool × List (Char × Char) × Pattern) :=
  let (turned, p) :=
    match p with
    | ('!', false) :: rest | ('^', false) :: rest => (true, rest)
    | p => (false, p)
  (upToBracket true p).map fun (inside, rest) => (turned, ranges inside, rest)

/-- Does a text look like a pattern? The fuel bounds the characters of both. -/
def fitsWithin : (fuel : Nat) → Pattern → List Char → Bool
  | 0, _, _ => false
  | _, [], cs => cs.isEmpty
  | fuel + 1, ('*', false) :: p, cs =>
    fitsWithin fuel p cs ||
      match cs with
      | [] => false
      | _ :: rest => fitsWithin fuel (('*', false) :: p) rest
  | _, _ :: _, [] => false
  | fuel + 1, ('?', false) :: p, _ :: rest => fitsWithin fuel p rest
  | fuel + 1, ('[', false) :: p, c :: rest =>
    match set? p with
    | some (turned, ranges, p) =>
      (ranges.any (fun r => r.1 ≤ c && c ≤ r.2) != turned) && fitsWithin fuel p rest
    | none => c = '[' && fitsWithin fuel p rest
  | fuel + 1, (d, _) :: p, c :: rest => c = d && fitsWithin fuel p rest

/-- Does a text look like a pattern? -/
def fits (p : Pattern) (cs : List Char) : Bool := fitsWithin (p.length + cs.length + 1) p cs

/-- A text without what fits a pattern at one of its ends, as much or as little as possible. -/
def trimmed (p : Pattern) (atEnd longest : Bool) (cs : List Char) : List Char :=
  let sizes := List.range (cs.length + 1)
  let sizes := if longest then sizes.reverse else sizes
  if atEnd then
    match sizes.find? fun n => p.fits (cs.drop (cs.length - n)) with
    | some n => cs.take (cs.length - n)
    | none => cs
  else
    match sizes.find? fun n => p.fits (cs.take n) with
    | some n => cs.drop n
    | none => cs

end Pattern
end KernelLink.Machine.Script
