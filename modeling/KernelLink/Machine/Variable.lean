import KernelLink.Machine.Life
import KernelLink.Machine.Shell
import KernelLink.Machine.Script.Arithmetic
import KernelLink.Machine.Script.Output
/-!
# The variables of a shell

What names stand for in a shell, how variables are set, and what words become. Setting a variable
that may not be changed and substituting what has no value are faults, with a reason.

Main definitions:
* `Shell.values`: what variables and parameters stand for.
* `Shell.set?`, `Shell.assign`: variables are set.
* `Shell.fields`, `Shell.text`: what words become, and the shell after their substitutions.
* `Shell.former`, `Shell.revert`: variables that are changed for a while.
-/
namespace KernelLink.Machine

open Script (Values Word Part)

namespace Shell

/-! ## Values -/

/-- The characters that divide what is substituted. -/
def dividers (s : Shell) : List Char := ((s.bindings.lookup "IFS").getD " \t\n").toList

/-- What stands between parameters that are joined. -/
def joiner (s : Shell) : String := String.ofList (s.dividers.take 1)

/-- The letters of the settings that are on. -/
def settings (s : Shell) : String :=
  (if s.manner.needsSet then "u" else "") ++ (if s.manner.traced then "x" else "") ++
    (if s.manner.strict then "e" else "")

/-- The value of a variable or parameter. -/
def look (s : Shell) (name : String) : String :=
  match name with
  | "?" => toString s.last
  | "$" => toString s.number
  | "!" => (s.jobs.getLast?.map toString).getD ""
  | "#" => toString s.parameters.length
  | "@" => String.intercalate " " s.parameters
  | "*" => String.intercalate s.joiner s.parameters
  | "-" => s.settings
  | "0" => s.name
  | name =>
    match name.toNat? with
    | some n => (s.parameters[n - 1]?).getD ""
    | none => (s.bindings.lookup name).getD ""

/-- Has a variable or parameter a value? -/
def isSet (s : Shell) (name : String) : Bool :=
  match name with
  | "?" | "$" | "#" | "-" => true
  | "@" | "*" => !s.parameters.isEmpty
  | "!" => !s.jobs.isEmpty
  | name =>
    match name.toNat? with
    | some n => n ≤ s.parameters.length
    | none => (s.bindings.lookup name).isSome

/-- The value of an expression, as a text, or why it has none. -/
def reckon (s : Shell) (expression : String) : Except String String :=
  (Script.Arithmetic.evaluate s.look expression).map fun (n, _) => toString n

/-- What variables and parameters stand for. -/
def values (s : Shell) : Values :=
  ⟨s.look, s.isSet, s.parameters, s.reckon, s.dividers, s.manner.needsSet⟩

/-- The environment of programs. -/
def environment (s : Shell) : List (String × String) :=
  s.exported.filterMap fun name => (s.bindings.lookup name).map fun value => (name, value)

/-- Does a shell have something to do on a signal or at its end? -/
def hasTraps (s : Shell) : Bool := !s.traps.isEmpty

/-! ## Setting variables -/

/-- A variable has a value from now on. -/
def bind (s : Shell) (name value : String) : Shell :=
  { s with bindings := (name, value) :: s.bindings.filter (·.1 != name) }

/-- A variable has no value from now on, and programs do not see it. -/
def unbind (s : Shell) (name : String) : Shell :=
  { s with
    bindings := s.bindings.filter (·.1 != name), exported := s.exported.filter (· != name) }

/-- Programs see a variable from now on. -/
def expose (s : Shell) (name : String) : Shell :=
  { s with exported := name :: s.exported.filter (· != name) }

/-- Why a variable may not be changed. -/
def readOnly (name : String) : String := name ++ ": is read only"

/-- Sets a variable. -/
def set? (s : Shell) (name value : String) : Except String Shell :=
  if s.fixed.contains name then .error (readOnly name) else .ok (s.bind name value)

/-- Sets variables, one after the other. -/
def setAll (s : Shell) : List (String × String) → Except String Shell
  | [] => .ok s
  | (name, value) :: rest =>
    match s.set? name value with
    | .ok s => s.setAll rest
    | .error reason => .error reason

/-- What a variable is now. -/
def former (s : Shell) (name : String) : Former :=
  ⟨name, s.bindings.lookup name, s.exported.contains name⟩

/-- A variable is again what it was. -/
def revert (s : Shell) (f : Former) : Shell :=
  let s := s.unbind f.name
  let s := match f.value with | some value => s.bind f.name value | none => s
  if f.isExported then s.expose f.name else s

/-! ## Words -/

/-- The variables that the expressions in a word set. -/
def reckonings (s : Shell) (w : Word) : List (String × String) :=
  w.flatMap fun
    | .arithmetic expression _ =>
      match Script.Arithmetic.evaluate s.look (s.values.joined expression) with
      | .ok (_, settings) => settings.reverse.map fun v => (v.1, toString v.2)
      | .error _ => []
    | _ => []

/-- The shell after the substitutions in a word. -/
def settle (s : Shell) (w : Word) : Except String Shell :=
  match s.values.fault? w with
  | some reason => .error reason
  | none => s.setAll (s.values.settings w ++ s.reckonings w)

/-- The single text that a word becomes. -/
def text (s : Shell) (w : Word) : Except String (String × Shell) :=
  (s.settle w).map fun after => (s.values.joined w, after)

/-- The arguments that words become. Those for which `isWhole` holds become one each. -/
def fields (s : Shell) (isWhole : Word → Bool) : List Word → Except String (List String × Shell)
  | [] => .ok ([], s)
  | w :: rest =>
    match s.settle w with
    | .error reason => .error reason
    | .ok after =>
      let first := if isWhole w then [s.values.joined w] else s.values.fieldsOf w
      (after.fields isWhole rest).map fun (others, after) => (first ++ others, after)

/-- Sets variables from assignments, each of which sees the ones before it. -/
def assign (s : Shell) : List (String × Word) → Except String Shell
  | [] => .ok s
  | (name, w) :: rest =>
    match s.text w with
    | .error reason => .error reason
    | .ok (value, after) =>
      match after.set? name value with
      | .error reason => .error reason
      | .ok s => s.assign rest

end Shell
end KernelLink.Machine
