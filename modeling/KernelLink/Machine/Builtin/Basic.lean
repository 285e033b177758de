import KernelLink.Machine.Variable
/-!
# What the commands of a shell have in common

The names of the commands that a shell carries out without another process, what such a command
comes to, and how it reads its arguments.

Main definitions:
* `builtins`, `specialBuiltins`: the names.
* `Shell.complaint`: what a shell complains about.
* `Reply`: what a command comes to.
-/
namespace KernelLink.Machine

open Script (illegalNumber)

/-- The commands a fault in which ends the shell. -/
def specialBuiltins : List String :=
  [".", ":", "break", "continue", "eval", "exec", "exit", "export", "local", "readonly", "return",
    "set", "shift", "times", "trap", "unset"]

/-- The commands of the shell itself. -/
def builtins : List String :=
  specialBuiltins ++
    ["true", "false", "echo", "printf", "pwd", "cd", "read", "kill", "wait", "test", "[", "umask",
      "command", "type"]

/-- The commands whose arguments may be assignments, which are not divided. -/
def assigningBuiltins : List String := ["export", "local", "readonly"]

/-! ## Complaints -/

/-- What a shell complains about. -/
def Shell.complaint (s : Shell) (text : String) : Effect :=
  .complain (s.name ++ ": " ++ toString s.line ++ ": " ++ text)

/-- What a shell complains about that is not the fault of a command of its own. The command for
which it runs a script is named. -/
def Shell.plainComplaint (s : Shell) (text : String) : Effect :=
  let calling := s.frames.findSome? fun
    | .calling name => some (name ++ ": ")
    | _ => none
  s.complaint (calling.getD "" ++ text)

/-- What a command of the shell itself comes to. -/
inductive Reply where
  /-- It has ended. -/
  | done (process : Proc) (shell : Shell) (code : Nat) (effects : List Effect)
  /-- It cannot do its work, for a reason. -/
  | fault (text : String)

/-- A reply that leaves the process as it is. -/
def Reply.after (p : Proc) (s : Shell) (code : Nat) : Reply := .done p s code []

/-! ## Numbers and names -/

/-- The count that a text is. -/
def count? (text : String) : Option Nat :=
  if text.isEmpty || !text.toList.all Char.isDigit then none
  else text.toNat?.filter (· < 2147483648)

/-- A text in quotes that a script may hold. Quotes inside it are put into quotes of the other
kind. -/
def quoted (text : String) : String :=
  let rec go : (fuel : Nat) → List Char → List Char
    | 0, _ => []
    | fuel + 1, cs =>
      let (plain, rest) := cs.span (· != '\'')
      let (quotes, rest) := rest.span (· == '\'')
      '\'' :: plain ++ '\'' ::
        if quotes.isEmpty then []
        else '"' :: quotes ++ '"' :: if rest.isEmpty then [] else go fuel rest
  String.ofList (go (text.length + 1) text.toList)

/-- The assignment, or the mere name, that an argument is. -/
def nameAndValue (arg : String) : String × Option String :=
  match arg.toList.span (· != '=') with
  | (name, _ :: value) => (String.ofList name, some (String.ofList value))
  | (name, []) => (String.ofList name, none)

/-- What is said about a name that no variable can have. -/
def badName (name : String) : String := name ++ ": bad variable name"

end KernelLink.Machine
