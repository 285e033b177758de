import KernelLink.Machine.Program
import KernelLink.Machine.Script.Grammar
/-!
# A shell before it does anything

What a shell is given to begin with: its variables, what its options ask for, and the script that it
is to run.

Main definitions:
* `Frame.ofScript`: what is to be done for a script.
* `Shell.new`: a shell before it does anything.
* `Orders`: what options ask for.
* `World.loadShell`: a shell with some arguments.
-/
namespace KernelLink.Machine

open Control (Pid)
open Script (Parsed)

/-- What a shell says of a file that it cannot open. -/
def cannotOpen : StreamFault → String
  | .os 2 | .os 20 => "No such file"
  | .os number => Host.Refusal.text number
  | fault => fault.message

/-- What is to be done for a script that begins on a line. -/
def Frame.ofScript (line : Nat) (script : String) : List Frame :=
  let p := Parsed.ofScript line script
  p.commands.map .run ++ p.mistake.toList.map .mistake

/-- The variables that every shell has, besides its environment. -/
def Shell.usual (directory : List UInt8) : List (String × String) :=
  [("IFS", " \t\n"), ("OPTIND", "1"), ("PS1", "# "), ("PS2", "> "), ("PS4", "+ "),
    ("PWD", Text.Utf8.lossy directory)]

/-- A variable as a shell takes it over: its name ends at the first equals sign. -/
def Shell.imported (v : String × String) : String × String :=
  let (name, value) := (v.1 ++ "=" ++ v.2).toList.span (· != '=')
  (String.ofList name, String.ofList (value.drop 1))

/-- Where a shell is at home, unless the environment says something else. -/
def standardHome : String := "/root"

/-- A shell before it does anything. What its environment does not say about the search for programs
and about the home directory is the usual. -/
def Shell.new (name : String) (parameters : List String) (directory : List UInt8)
    (environment : List (String × String)) (number : Pid) (frames : List Frame) : Shell :=
  let environment := (environment.map Shell.imported).filter fun v =>
    Script.Token.isName v.1 && v.1 != "IFS"
  let missing := [(searchVariable, standardSearch), ("HOME", standardHome)].filter fun v =>
    (environment.lookup v.1).isNone
  let environment := missing ++ environment
  let usual := (Shell.usual directory).filter fun v => (environment.lookup v.1).isNone
  ⟨name, parameters, environment ++ usual, environment.map (·.1), [], [], ⟨false, false, false⟩, 1,
    0, 0, [], [], number, [], [], frames, false⟩

/-- The paths under which a name may be found. -/
def Shell.pathsFor (s : Shell) (name : String) : List String :=
  (((s.bindings.lookup searchVariable).getD "").splitOn ":").map fun place =>
    if place.isEmpty then name else place ++ "/" ++ name

/-- The directories in which a shell looks for programs. -/
def Shell.places (s : Shell) : List (List UInt8) :=
  match s.bindings.lookup searchVariable with
  | some search => searched search
  | none => []

/-- A setting of how a shell goes about its scripts. -/
def Manner.set (m : Manner) (letter : Char) (value : Bool) : Manner :=
  match letter with
  | 'e' => { m with strict := value }
  | 'u' => { m with needsSet := value }
  | 'x' => { m with traced := value }
  | _ => m

/-- The settings of a shell, by their letters. -/
def settingLetters : String := "efnuvxabmCIVE"

/-- The names of some settings. -/
def settingNames : List (String × Char) :=
  [("errexit", 'e'), ("nounset", 'u'), ("xtrace", 'x'), ("noglob", 'f'), ("verbose", 'v'),
    ("noclobber", 'C'), ("allexport", 'a'), ("monitor", 'm'), ("notify", 'b')]

/-- What the options of a shell ask for. -/
structure Orders where
  /-- How it is to go about its scripts. -/
  manner : Manner
  /-- The letters that are no settings. -/
  others : List Char
  /-- The arguments after the options, if there is anything after them. -/
  operands : Option (List String)

/-- Reads options, of which the letters in `others` are known besides the settings; the option that
makes no sense otherwise. -/
def Orders.read (others : String) (o : Orders) : List String → Except String Orders
  | [] => .ok o
  | "--" :: rest => .ok { o with operands := some rest }
  | arg :: rest =>
    let value := arg.startsWith "-"
    let letters := arg.toList.drop 1
    if arg = "-" then .ok { o with operands := if rest.isEmpty then none else some rest }
    else if !(value || arg.startsWith "+") then .ok { o with operands := some (arg :: rest) }
    else
      match letters.find? fun c => !(settingLetters.contains c || others.contains c || c = 'o') with
      | some c => .error (String.singleton c)
      | none =>
        let kept := letters.filter (others.contains ·)
        let manner := letters.foldl (fun manner c => manner.set c value) o.manner
        if letters.contains 'o' then
          match rest with
          | [] => .ok { o with manner := manner }
          | name :: rest =>
            match settingNames.lookup name with
            | none => .error ("o " ++ name)
            | some c => read others ⟨manner.set c value, o.others ++ kept, none⟩ rest
        else read others ⟨manner, o.others ++ kept, none⟩ rest

/-- What a shell is about to do. -/
def World.loadShell (m : World) (pid : Pid) (called : String) (directory : List UInt8)
    (environment : List (String × String)) (args : List String) : Work × List Effect :=
  let refuse (text : String) : Work × List Effect :=
    (.nothing, [.complain (called ++ ": 0: " ++ text), .exit 2])
  match Orders.read "csil" ⟨⟨false, false, false⟩, [], none⟩ args with
  | .error option => refuse ("Illegal option -" ++ option)
  | .ok o =>
    let run (name : String) (parameters : List String) (frames : List Frame) :
        Work × List Effect :=
      let s := Shell.new name parameters directory environment pid frames
      (.shell { s with manner := o.manner }, [])
    let operands := o.operands.getD []
    if o.others.contains 'c' then
      match operands with
      | [] => refuse "-c requires an argument"
      | script :: rest =>
        run (rest.head?.getD called) (rest.drop 1) (Frame.ofScript 1 script)
    else
      match operands with
      | [] => run called [] [.interact 1 []]
      | file :: rest =>
        if o.others.contains 's' then run called (file :: rest) [.interact 1 []]
        else
          match m.contents directory (bytesOf file) with
          | .ok bytes => run file rest (Frame.ofScript 1 (Text.Utf8.lossy bytes))
          | .error (.os 21) => (.nothing, [.exit 0])
          | .error fault => refuse ("cannot open " ++ file ++ ": " ++ cannotOpen fault)

end KernelLink.Machine
