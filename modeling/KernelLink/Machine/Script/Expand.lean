import KernelLink.Machine.Script.Pattern
import KernelLink.Machine.Script.Syntax
import KernelLink.Text.Utf8
/-!
# Putting values into words

How the parts of a word become arguments: what is quoted stays in one piece, what is substituted
outside quotes is divided. Also how a line that was read is divided among variables.

Main definitions:
* `Values`: what variables and parameters stand for.
* `Values.fields`, `Values.joined`: the arguments and the single text that words become.
* `Values.pattern`: the pattern that a word is.
* `Values.fault?`: why a word cannot become anything.
* `shares`: how a line is divided among variables.
-/
namespace KernelLink.Machine.Script

/-- What variables and parameters stand for. -/
structure Values where
  /-- The value of a variable or parameter by its name. -/
  look : String → String
  /-- Has a variable or parameter a value? -/
  isSet : String → Bool
  /-- The parameters. -/
  parameters : List String
  /-- The value of an expression, or why it has none. -/
  reckon : String → Except String String
  /-- The characters that divide what is substituted. -/
  dividers : List Char
  /-- Is it a fault to use a variable that is not set? -/
  needsSet : Bool

namespace Values

/-! ## Texts -/

/-- Is a variable set, where an empty one may count as not set? -/
def counts (v : Values) (name : String) (emptyCounts : Bool) : Bool :=
  v.isSet name && !(emptyCounts && v.look name == "")

/-- Does the other text of a change take the place of the value? -/
def takesOther (v : Values) (name : String) (emptyCounts : Bool) : Change → Bool
  | .replaced whenSet => v.counts name emptyCounts == whenSet
  | .assigned | .demanded => !v.counts name emptyCounts
  | .trimmed .. | .meaningless => false

mutual

/-- The text of a part. -/
def text (v : Values) : Part → String
  | .text content _ => content
  | .variable name _ => v.look name
  | .changed name emptyCounts change other _ =>
    if v.takesOther name emptyCounts change then v.joined other
    else
      match change with
      | .trimmed atEnd longest =>
        String.ofList ((v.pattern other).trimmed atEnd longest (v.look name).toList)
      | _ => v.look name
  | .size name _ => toString (v.look name).utf8ByteSize
  | .output .. => ""
  | .arithmetic expression _ => (v.reckon (v.joined expression)).toOption.getD ""
  | .value content _ => content

/-- The single text that a word becomes. -/
def joined (v : Values) : List Part → String
  | [] => ""
  | part :: rest => v.text part ++ v.joined rest

/-- The pattern that a word is. -/
def pattern (v : Values) : List Part → Pattern
  | [] => []
  | .text content quoted :: rest => content.toList.map (·, quoted) ++ v.pattern rest
  | .value content quoted :: rest => content.toList.map (·, quoted) ++ v.pattern rest
  | .variable name quoted :: rest => (v.look name).toList.map (·, quoted) ++ v.pattern rest
  | part :: rest => (v.text part).toList.map (·, false) ++ v.pattern rest

end

/-! ## Faults -/

mutual

/-- Why a part cannot become anything, if it cannot. -/
def partFault? (v : Values) : Part → Option String
  | .variable name _ | .size name _ =>
    if v.needsSet && !v.isSet name && name != "@" && name != "*" then
      some (name ++ ": parameter not set")
    else none
  | .changed name emptyCounts change other _ =>
    match change with
    | .meaningless => some "Bad substitution"
    | .demanded =>
      if v.counts name emptyCounts then none
      else
        let reason := v.joined other
        let usual := if emptyCounts then "parameter not set or null" else "parameter not set"
        some (name ++ ": " ++ if reason.isEmpty then usual else reason)
    | change => if v.takesOther name emptyCounts change then v.fault? other else none
  | .arithmetic expression _ =>
    match v.fault? expression with
    | some reason => some reason
    | none =>
      match v.reckon (v.joined expression) with
      | .ok _ => none
      | .error reason => some reason
  | _ => none

/-- Why a word cannot become anything, if it cannot. -/
def fault? (v : Values) : List Part → Option String
  | [] => none
  | part :: rest => (v.partFault? part).or (v.fault? rest)

end

/-- The variables that a word sets, with their values. -/
def settings (v : Values) (w : Word) : List (String × String) :=
  w.filterMap fun
    | .changed name emptyCounts .assigned other _ =>
      if v.counts name emptyCounts then none else some (name, v.joined other)
    | _ => none

/-! ## Arguments -/

/-- Arguments in the making: the finished ones, the last one first, and one that has begun. -/
structure Making where
  /-- The finished arguments, the last one first. -/
  finished : List String
  /-- The argument that has begun. -/
  begun : Option String

/-- The argument that has begun is finished. -/
def Making.finish (m : Making) : Making :=
  match m.begun with
  | some s => ⟨s :: m.finished, none⟩
  | none => m

/-- Adds to the argument that has begun, or begins one. -/
def Making.add (m : Making) (s : String) : Making := { m with begun := some (m.begun.getD "" ++ s) }

/-- A blank. -/
def isBlank (c : Char) : Bool := c == ' ' || c == '\t' || c == '\n'

/-- Adds a text that is divided. A divider that is no blank ends an argument even if none has
begun. -/
def addDivided (v : Values) (m : Making) (s : String) : Making :=
  s.toList.foldl (fun m c =>
    if v.dividers.contains c then
      if isBlank c then m.finish else (m.add "").finish
    else m.add (String.singleton c)) m

/-- Adds texts that stay apart. -/
def Making.addApart (m : Making) : List String → Making
  | [] => m
  | [s] => m.add s
  | s :: rest => addApart (m.add s).finish rest

/-- Adds texts that stay apart and are divided. -/
def addAllDivided (v : Values) (m : Making) : List String → Making
  | [] => m
  | [s] => v.addDivided m s
  | s :: rest => v.addAllDivided (v.addDivided m s).finish rest

mutual

/-- Adds a part. A text that stands for itself is divided only `inside` a substitution. -/
def addPart (v : Values) (inside : Bool) (m : Making) : Part → Making
  | .text content quoted => if inside && !quoted then v.addDivided m content else m.add content
  | .variable name quoted =>
    if name = "@" && quoted then m.addApart v.parameters
    else if (name = "@" || name = "*") && !quoted then v.addAllDivided m v.parameters
    else if quoted then m.add (v.look name)
    else v.addDivided m (v.look name)
  | .changed name emptyCounts change other quoted =>
    if v.takesOther name emptyCounts change && !quoted then v.addParts true m other
    else
      let s := v.text (.changed name emptyCounts change other quoted)
      if quoted then m.add s else v.addDivided m s
  | .size name quoted =>
    let s := v.text (.size name quoted)
    if quoted then m.add s else v.addDivided m s
  | .output .. => m
  | .arithmetic expression quoted =>
    let s := v.text (.arithmetic expression quoted)
    if quoted then m.add s else v.addDivided m s
  | .value content quoted => if quoted then m.add content else v.addDivided m content

/-- Adds parts. -/
def addParts (v : Values) (inside : Bool) (m : Making) : List Part → Making
  | [] => m
  | part :: rest => v.addParts inside (v.addPart inside m part) rest

end

/-- The arguments that a word becomes. -/
def fieldsOf (v : Values) (w : Word) : List String :=
  (v.addParts false ⟨[], none⟩ w).finish.finished.reverse

/-- The arguments that words become. -/
def fields (v : Values) (ws : List Word) : List String := ws.flatMap v.fieldsOf

end Values

/-! ## Lines -/

/-- A character of a line, and whether it was protected. -/
abbrev Shown := Char × Bool

/-- The characters of a line; unless it is taken as it is, a backslash protects the next one. -/
def shown (asIs : Bool) : List Char → List Shown
  | [] => []
  | '\\' :: c :: rest =>
    if asIs then ('\\', false) :: shown asIs (c :: rest) else (c, true) :: shown asIs rest
  | ['\\'] => if asIs then [('\\', false)] else []
  | c :: rest => (c, false) :: shown asIs rest
termination_by cs => cs.length

/-- Is it a divider that was not protected? -/
def Shown.divides (dividers : List Char) (c : Shown) : Bool := dividers.contains c.1 && !c.2

/-- Is it a divider that is a blank? -/
def Shown.isBlank (dividers : List Char) (c : Shown) : Bool :=
  c.divides dividers && Values.isBlank c.1

/-- The text of some characters. -/
def Shown.textOf (cs : List Shown) : String := String.ofList (cs.map (·.1))

/-- Leaves out one division: blanks, and at most one divider that is none among them. -/
def Shown.skipDivision (dividers : List Char) (cs : List Shown) : List Shown :=
  let cs := cs.dropWhile (Shown.isBlank dividers)
  match cs with
  | c :: rest => if c.divides dividers then rest.dropWhile (Shown.isBlank dividers) else cs
  | [] => []

/-- Divides a line among variables; the last one gets all that is left. -/
def shares (dividers : List Char) (cs : List Shown) : List String → List (String × String)
  | [] => []
  | [name] =>
    let (word, rest) := cs.span (! Shown.divides dividers ·)
    let kept := (cs.reverse.dropWhile (Shown.isBlank dividers)).reverse
    let alone := (Shown.skipDivision dividers rest).isEmpty
    [(name, Shown.textOf (if alone then word else kept))]
  | name :: names =>
    let (word, rest) := cs.span (! Shown.divides dividers ·)
    (name, Shown.textOf word) :: shares dividers (Shown.skipDivision dividers rest) names

/-- Divides a line among variables. -/
def lineShares (dividers : List Char) (cs : List Shown) (names : List String) :
    List (String × String) :=
  shares dividers (cs.dropWhile (Shown.isBlank dividers)) names

end KernelLink.Machine.Script
