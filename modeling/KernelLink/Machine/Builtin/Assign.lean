import KernelLink.Machine.Builtin.Leave
/-!
# Variables, parameters and settings

The commands that mark, set and unset variables, that set parameters, and that say how the shell
goes about its scripts.

Main definitions:
* `Shell.marking`, `Shell.localizing`, `Shell.unsetting`: variables.
* `Shell.setting`, `Shell.shifting`: parameters and settings.
* `Shell.reading`: a line that is read into variables.
-/
namespace KernelLink.Machine

open Script (illegalNumber)

/-- The function that is being carried out gives a variable back what it was. -/
def noteFormer (f : Former) : List Frame → List Frame
  | [] => []
  | .leave parameters former :: rest => .leave parameters (former ++ [f]) :: rest
  | frame :: rest => frame :: noteFormer f rest

namespace Shell

/-- Variables that are shown by what would set them. -/
def shown (s : Shell) (command : String) (names : List String) : Effect :=
  let names := names.mergeSort fun a b => a ≤ b
  .say (String.join (names.map fun name =>
    match s.bindings.lookup name with
    | some value => command ++ name ++ "=" ++ quoted value ++ "\n"
    | none => command ++ name ++ "\n"))

/-- Marks variables, which are set if there are values. -/
def marking (s : Shell) (p : Proc) (mark : Shell → String → Shell) : List String → Reply
  | [] => .after p s 0
  | arg :: rest =>
    let (name, value) := nameAndValue arg
    if !Script.Token.isName name then .fault (badName name)
    else
      match value with
      | none => (mark s name).marking p mark rest
      | some value =>
        match s.set? name value with
        | .ok s => (mark s name).marking p mark rest
        | .error reason => .fault reason

/-- Makes variables belong to the function that is being carried out. -/
def localizing (s : Shell) (p : Proc) (args : List String) : Reply :=
  if s.frames.any Frame.isLeave then
    let s := args.foldl (fun s arg =>
      { s with frames := noteFormer (s.former (nameAndValue arg).1) s.frames }) s
    s.marking p (fun s _ => s) args
  else .fault "not in a function"

/-- Unsets variables. -/
def unsetting (s : Shell) (p : Proc) : List String → Reply
  | [] => .after p s 0
  | name :: rest =>
    if !Script.Token.isName name then .fault (badName name)
    else if s.fixed.contains name then .fault (readOnly name)
    else (s.unbind name).unsetting p rest

/-- Sets parameters and how scripts are gone about. -/
def setting (s : Shell) (p : Proc) (args : List String) : Reply :=
  match args with
  | [] => .done p s 0 [s.shown "" (s.bindings.map (·.1))]
  | args =>
    match Orders.read "" ⟨s.manner, [], none⟩ args with
    | .error option => .fault ("Illegal option -" ++ option)
    | .ok o =>
      .after p { s with manner := o.manner, parameters := o.operands.getD s.parameters } 0

/-- Leaves out the first parameters. -/
def shifting (s : Shell) (p : Proc) (args : List String) : Reply :=
  let text := args.head?.getD "1"
  match count? text with
  | none => .fault (illegalNumber text)
  | some n =>
    if s.parameters.length < n then .fault "can't shift that many"
    else .after p { s with parameters := s.parameters.drop n } 0

/-- Reads a line into variables. -/
def reading (s : Shell) (p : Proc) (asIs : Bool) : List String → Reply
  | "-r" :: rest => s.reading p true rest
  | "-p" :: _ :: rest => s.reading p asIs rest
  | [] => .fault "arg count"
  | names =>
    match names.find? (! Script.Token.isName ·) with
    | some name => .fault (badName name)
    | none => .after p { s with frames := .read asIs names [] :: s.frames } s.last

end Shell
end KernelLink.Machine
