import KernelLink.Machine.Script.Expand
/-!
# Putting output into words

The output of some scripts is put into the words of a command before the command can run: one script
after the other, in the order in which the words are needed. An output in a text that is not used is
not needed.

Main definitions:
* `Values.output?`, `Values.fill?`: the first script in a word, and the word with its output.
* `Command.needed`, `Command.withNeeded`: the words that a command needs before it runs.
* `Values.outputOf?`, `Values.filled`: the same for all words of a command.
-/
namespace KernelLink.Machine.Script

namespace Values

/-- Is the text of a change looked at? -/
def uses (v : Values) (name : String) (emptyCounts : Bool) (change : Change) : Bool :=
  match change with
  | .trimmed .. => true
  | change => v.takesOther name emptyCounts change

mutual

/-- The first script in a part whose output is to be put into it. -/
def partOutput? (v : Values) : Part → Option String
  | .output script _ => some script
  | .changed name emptyCounts change other _ =>
    if v.uses name emptyCounts change then v.output? other else none
  | .arithmetic expression _ => v.output? expression
  | _ => none

/-- The first script in a word whose output is to be put into it. -/
def output? (v : Values) : List Part → Option String
  | [] => none
  | part :: rest => (v.partOutput? part).or (v.output? rest)

end

mutual

/-- A part with the first such output put in, if it has any. -/
def fillPart? (v : Values) (text : String) : Part → Option Part
  | .output _ quoted => some (.value text quoted)
  | .changed name emptyCounts change other quoted =>
    if v.uses name emptyCounts change then
      (v.fill? text other).map fun other => .changed name emptyCounts change other quoted
    else none
  | .arithmetic expression quoted =>
    (v.fill? text expression).map fun expression => .arithmetic expression quoted
  | _ => none

/-- A word with the first such output put in, if it has any. -/
def fill? (v : Values) (text : String) : List Part → Option (List Part)
  | [] => none
  | part :: rest =>
    match v.fillPart? text part with
    | some part => some (part :: rest)
    | none => (v.fill? text rest).map (part :: ·)

end

/-- Words with the first such output put in. -/
def fillFirst (v : Values) (text : String) : List Word → List Word
  | [] => []
  | w :: rest =>
    match v.fill? text w with
    | some w => w :: rest
    | none => w :: v.fillFirst text rest

end Values

/-! ## The words of commands -/

/-- Redirections with other targets. -/
def Redirect.withTargets (redirects : List Redirect) (targets : List Word) : List Redirect :=
  (redirects.zip targets).map fun (r, target) => { r with target := target }

/-- The words that a command needs before it runs, in the order in which it needs them. -/
def Command.needed : Command → List Word
  | .simple _ assignments words redirects =>
    words ++ redirects.map (·.target) ++ assignments.map (·.2)
  | .each _ words _ redirects => redirects.map (·.target) ++ words
  | .choose word _ redirects => redirects.map (·.target) ++ [word]
  | .group _ redirects | .subshell _ redirects | .loop _ _ _ redirects
  | .branch _ _ _ redirects => redirects.map (·.target)
  | _ => []

/-- The command with other words in the places of those. -/
def Command.withNeeded (c : Command) (ws : List Word) : Command :=
  let targets (redirects : List Redirect) : List Redirect := Redirect.withTargets redirects ws
  match c with
  | .simple line assignments words redirects =>
    let rest := ws.drop words.length
    .simple line ((assignments.map (·.1)).zip (rest.drop redirects.length)) (ws.take words.length)
      (Redirect.withTargets redirects rest)
  | .each name _ body redirects => .each name (ws.drop redirects.length) body (targets redirects)
  | .choose word cases redirects =>
    .choose ((ws.drop redirects.length).headD word) cases (targets redirects)
  | .group body redirects => .group body (targets redirects)
  | .subshell body redirects => .subshell body (targets redirects)
  | .loop untilSuccess condition body redirects =>
    .loop untilSuccess condition body (targets redirects)
  | .branch condition yes no redirects => .branch condition yes no (targets redirects)
  | c => c

namespace Values

/-- The first script whose output a command needs before it runs. -/
def outputOf? (v : Values) (c : Command) : Option String := c.needed.findSome? v.output?

/-- The command with the first such output put in. -/
def filled (v : Values) (text : String) (c : Command) : Command :=
  c.withNeeded (v.fillFirst text c.needed)

end Values

/-- Has any output been put into words? -/
def isFilled (ws : List Word) : Bool :=
  ws.any fun w => w.any fun
    | .value .. => true
    | _ => false

end KernelLink.Machine.Script
