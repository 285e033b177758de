/-!
# Scripts

The commands of a shell script, as they are before anything is substituted into them. What a command
substitution runs is kept as text, since it is read only when it runs.

Main definitions:
* `Part`, `Word`, `Redirect`, `Command`.
* `Mistake`: what is wrong with a script.
-/
namespace KernelLink.Machine.Script

/-- What a substitution does besides putting in the value of a variable. -/
inductive Change where
  /-- Another text takes the place of the value, with `whenSet` if the variable is set, without it
  if the variable is not set. -/
  | replaced (whenSet : Bool)
  /-- The variable is set to another text if it is not set. -/
  | assigned
  /-- It is a fault if the variable is not set, with another text as its reason. -/
  | demanded
  /-- What fits a pattern at one end of the value is left out, as much or as little as possible. -/
  | trimmed (atEnd longest : Bool)
  /-- It has no meaning, which is a fault. -/
  | meaningless
  deriving Repr, DecidableEq, Inhabited

/-- Does another text take part as a pattern? -/
def Change.isTrimming : Change → Bool
  | .trimmed .. => true
  | _ => false

/-- A part of a word. What is substituted outside quotes is divided at blanks. -/
inductive Part where
  /-- A text that stands for itself. -/
  | text (content : String) (quoted : Bool)
  /-- The value of a variable or parameter. -/
  | variable (name : String) (quoted : Bool)
  /-- The value of a variable with a change. With `emptyCounts` an empty variable is not set. -/
  | changed (name : String) (emptyCounts : Bool) (change : Change) (other : List Part)
      (quoted : Bool)
  /-- The length of the value of a variable. -/
  | size (name : String) (quoted : Bool)
  /-- The output of a script. -/
  | output (script : String) (quoted : Bool)
  /-- The value of an expression. -/
  | arithmetic (expression : List Part) (quoted : Bool)
  /-- What a substitution has already given. -/
  | value (content : String) (quoted : Bool)
  deriving Repr, Inhabited

/-- A word: parts next to one another. -/
abbrev Word := List Part

/-- What a redirection does. -/
inductive Direction where
  /-- Reads from a file. -/
  | fromFile
  /-- Reads a text that stands in the script. -/
  | fromText
  /-- Writes to an emptied file. -/
  | toFile
  /-- Writes to the end of a file. -/
  | atEnd
  /-- Becomes a copy of another stream, or is closed. -/
  | duplicate
  deriving Repr, DecidableEq, Inhabited

/-- A redirection of a stream. -/
structure Redirect where
  /-- The number of the stream. -/
  stream : Nat
  /-- What it does. -/
  direction : Direction
  /-- The file, the text, or the number of the other stream. -/
  target : Word
  deriving Repr, Inhabited

/-- A command. -/
inductive Command where
  /-- Assignments, and a program with its arguments, on a line of the script. -/
  | simple (line : Nat) (assignments : List (String × Word)) (words : List Word)
      (redirects : List Redirect)
  /-- One after the other. -/
  | sequence (first second : Command)
  /-- The second if the first succeeds. -/
  | both (first second : Command)
  /-- The second if the first fails. -/
  | either (first second : Command)
  /-- Succeeds if the command fails. -/
  | negate (command : Command)
  /-- Nobody waits for it. -/
  | background (command : Command)
  /-- The output of the first is the input of the second. -/
  | pipe (first second : Command)
  /-- As a whole, perhaps with redirections. -/
  | group (body : Command) (redirects : List Redirect)
  /-- In a shell of its own. -/
  | subshell (body : Command) (redirects : List Redirect)
  /-- Again and again while a condition succeeds, or until it does. -/
  | loop (untilSuccess : Bool) (condition body : Command) (redirects : List Redirect)
  /-- If a condition succeeds; otherwise something else. -/
  | branch (condition yes no : Command) (redirects : List Redirect)
  /-- Once for each of some words. -/
  | each (name : String) (words : List Word) (body : Command) (redirects : List Redirect)
  /-- The first of some commands that has a pattern for a word. -/
  | choose (word : Word) (cases : List (List Word × Command)) (redirects : List Redirect)
  /-- A name stands for a command from now on. -/
  | define (name : String) (body : Command)
  deriving Repr, Inhabited

/-- A command that does nothing. -/
def Command.nothing : Command := .simple 1 [] [] []

/-- What is said about a text that is no number. -/
def illegalNumber (text : String) : String := "Illegal number: " ++ text

/-- What is wrong with a script. -/
structure Mistake where
  /-- The line; the last one if it is missing. -/
  line : Option Nat
  /-- What is said about it. -/
  text : String
  deriving Repr, DecidableEq, Inhabited

end KernelLink.Machine.Script
