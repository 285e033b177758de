import KernelLink.Machine.Basic
import KernelLink.Machine.Script.Format
import KernelLink.Mock.Program
/-!
# Programs of a machine

How a program is found by its name, and what those programs are about to do that need no more than
their arguments and some files.

Main definitions:
* `World.resolve`: the program that a name means, or the operating system's refusal.
* `World.contents`: what a file holds.
* `sleepEffects`, `World.catEffects`, `echoEffects`: what programs are about to do.
-/
namespace KernelLink.Machine

open Control (Pid)
open Host (Files)

/-- Bytes of a text. -/
abbrev bytesOf (s : String) : List UInt8 := Text.Utf8.bytes s

/-- A write to the output. -/
def Effect.say (s : String) : Effect := .write false (bytesOf s)

/-- A write of a line to the error output. -/
def Effect.complain (s : String) : Effect := .write true (bytesOf (s ++ "\n"))

/-! ## Finding a program -/

/-- A path as seen from a directory. -/
abbrev pathFrom (directory : List UInt8) (path : List UInt8) : List UInt8 :=
  Host.Path.under directory path

/-- The program at a place. -/
def World.toolAt? (m : World) (place : Host.Place) : Option Tool :=
  let programs := m.installed ++
    Tool.standard.map fun entry => (bytesOf (Files.programDirectory ++ entry.1), entry.2)
  (programs.map fun entry => (Host.Path.parts entry.1, entry.2)).lookup place

/-- The program under a path. A file that is none is refused, and so is a directory. -/
def World.programAt (m : World) (directory path : List UInt8) : Except StreamFault Tool :=
  match m.files.locate directory path with
  | .error fault => .error fault
  | .ok (place, .file _ true) =>
    match m.toolAt? place with
    | some tool => .ok tool
    | none => .error (.os 8)
  | .ok _ => .error StreamFault.denied

/-- The variable that names the directories in which programs are looked for. -/
def searchVariable : String := "PATH"

/-- The directories in which programs are looked for, unless the variable names others. -/
def standardSearch : String := "/usr/local/sbin:/usr/local/bin:/usr/sbin:/usr/bin:/sbin:/bin"

/-- Refusals after which the next directory is tried. -/
def passedOver : List StreamFault := [StreamFault.denied, StreamFault.missing, .os 20]

/-- Looks for a program in directories, in order; an empty one stands for the one in which the
search is made. If there is none, the last refusal is reported, but one for something that is not to
be run wins over the others. -/
def World.search (m : World) (directory name : List UInt8) (refused : StreamFault) :
    List (List UInt8) → Except StreamFault Tool
  | [] => .error refused
  | place :: rest =>
    let path := if place.isEmpty then name else place ++ [Host.Path.slash] ++ name
    match m.programAt directory path with
    | .ok tool => .ok tool
    | .error fault =>
      if passedOver.contains fault then
        m.search directory name (if refused = StreamFault.denied then refused else fault) rest
      else .error fault

/-- The directories that the text of the variable names. -/
def searched (search : String) : List (List UInt8) := (search.splitOn ":").map bytesOf

/-- The program that a name means. A name with a slash is a path; for any other, directories are
searched. -/
def World.resolve (m : World) (directory : List UInt8) (places : List (List UInt8))
    (name : String) : Except StreamFault Tool :=
  if name.isEmpty then .error StreamFault.missing
  else if name.toList.contains '/' then m.programAt directory (bytesOf name)
  else m.search directory (bytesOf name) StreamFault.missing places

/-! ## What a program is about to do -/

/-- The milliseconds that a number with a unit means, such as `30`, `0.5` or `2m`. -/
def measured? (s : String) : Option Nat :=
  let cs := s.toList
  let (cs, unit) :=
    match cs.getLast? with
    | some 's' => (cs.dropLast, 1000)
    | some 'm' => (cs.dropLast, 60000)
    | some 'h' => (cs.dropLast, 3600000)
    | some 'd' => (cs.dropLast, 86400000)
    | _ => (cs, 1000)
  let (whole, rest) := cs.span Char.isDigit
  let digits :=
    match rest with
    | '.' :: digits =>
      if digits.all Char.isDigit && !(whole.isEmpty && digits.isEmpty) then some digits else none
    | [] => if whole.isEmpty then none else some []
    | _ => none
  digits.map fun digits =>
    let n := (String.ofList (whole ++ digits)).toNat?.getD 0
    n * unit / Nat.pow 10 digits.length

/-- A duration that nobody sees the end of. -/
def forever : Nat := Nat.pow 10 15

/-- The milliseconds that a duration means; it may have no end. -/
def milliseconds? (s : String) : Option Nat :=
  if s = "inf" || s = "infinity" then some forever else measured? s

/-- What is said about a missing or wrong argument. -/
def hint (tool : String) : String := "Try '" ++ tool ++ " --help' for more information."

/-- What is said about the first option among some arguments that is none of the known letters. -/
def badOption (called letters : String) : List String → List Effect
  | [] | "--" :: _ => []
  | arg :: rest =>
    if !arg.startsWith "-" || arg = "-" then badOption called letters rest
    else
      let refuse (text : String) : List Effect :=
        [.complain (called ++ ": " ++ text), .complain (hint called), .exit 1]
      if arg.startsWith "--" then refuse ("unrecognized option '" ++ arg ++ "'")
      else
        match (arg.toList.drop 1).find? (! letters.contains ·) with
        | some c => refuse ("invalid option -- '" ++ String.singleton c ++ "'")
        | none => badOption called letters rest

/-- Characters that have a meaning in scripts. -/
def meaningful : String := " \t\n!\"$&'()*;<=>?[\\^`|"

/-- The name of a file as it is shown in complaints: in quotes if it is empty or would mean
something else in a script. -/
def shownName (name : String) : String :=
  if name.isEmpty || name.startsWith "#" || name.startsWith "~" ||
      name.toList.any (meaningful.contains ·) then
    let quote := if name.toList.contains '\'' then "\"" else "'"
    quote ++ name ++ quote
  else name

/-- The operands among some arguments. -/
def operands : List String → List String
  | [] => []
  | "--" :: rest => rest
  | arg :: rest => if arg.startsWith "-" && arg != "-" then operands rest else arg :: operands rest

/-- What a program says that waits for a while, for a duration that is none. -/
def badDuration (called duration : String) : Effect :=
  .complain (called ++ ": invalid time interval '" ++ duration ++ "'")

/-- What a program is about to do that waits for a while. -/
def sleepEffects (called : String) (args : List String) : List Effect :=
  let usage (complaints : List Effect) : List Effect :=
    complaints ++ [.complain (hint called), .exit 1]
  match args with
  | [] => usage [.complain (called ++ ": missing operand")]
  | args =>
    match args.filter fun a => (milliseconds? a).isNone with
    | [] => [.sleep (args.foldl (fun n a => n + (milliseconds? a).getD 0) 0), .exit 0]
    | bad => usage (bad.map (badDuration called))

/-- What a program is about to do that copies files, or its input, to its output. -/
def World.catEffects (m : World) (called : String) (directory : List UInt8) :
    (code : Nat) → List String → List Effect
  | code, [] => [.exit code]
  | code, "-" :: rest => .copy :: m.catEffects called directory code rest
  | code, path :: rest =>
    let refuse (reason : String) : List Effect :=
      .complain (called ++ ": " ++ shownName path ++ ": " ++ reason) ::
        m.catEffects called directory 1 rest
    match m.files.lookFrom directory (bytesOf path) with
    | .ok (.file bytes _) => .write false bytes :: m.catEffects called directory code rest
    | .ok .directory => refuse (Host.Refusal.text 21)
    | .error (.os number) => refuse (Host.Refusal.text number)
    | .error fault => refuse fault.message

/-- What a program is about to do that writes its arguments. -/
def echoEffects (args : List String) : List Effect :=
  let isOption (arg : String) : Bool :=
    arg.startsWith "-" && arg.length != 1 && (arg.toList.drop 1).all fun c => "neE".contains c
  let (options, words) := args.span isOption
  let letters := options.flatMap String.toList
  let lineEnd := if letters.contains 'n' then "" else "\n"
  let text := String.intercalate " " words
  match (letters.filter (· != 'n')).getLast? with
  | some 'e' => [.say (Script.spoken text lineEnd), .exit 0]
  | _ => [.say (text ++ lineEnd), .exit 0]

/-- What a program is about to do that puts its arguments into a pattern. -/
def formatEffects (called : String) (args : List String) : List Effect :=
  let said (text : String) : Effect := .complain (called ++ ": " ++ text)
  match Script.formatted args with
  | some f =>
    let unused :=
      match f.args with
      | arg :: _ =>
        if f.ended then []
        else [said ("warning: ignoring excess arguments, starting with '" ++ arg ++ "'")]
      | [] => []
    let complaints := f.complaints.map fun c => said c.programMessage
    .say f.text :: complaints ++ unused ++ [.exit (if f.complaints.isEmpty then 0 else 1)]
  | none => [said "missing operand", .complain (hint called), .exit 1]

/-- What a program is about to do that writes its directory. -/
def World.directoryEffects (m : World) (directory : List UInt8) : List Effect :=
  let path :=
    match m.files.locate Files.working directory with
    | .ok (place, _) => Host.Path.text place
    | .error _ => directory
  [.say (Text.Utf8.lossy path ++ "\n"), .exit 0]

/-- An effect of the stand-in kernel. -/
def Effect.ofKernel : Mock.Effect → Effect
  | .out text => .write false (bytesOf text)
  | .err text => .write true (bytesOf text)
  | .sleep ms => .sleep ms
  | .exit code => .exit code

/-- The contents of a file. -/
def World.contents (m : World) (directory path : List UInt8) : Except StreamFault (List UInt8) :=
  match m.files.lookFrom directory path with
  | .ok (.file bytes _) => .ok bytes
  | .ok .directory => .error (.os 21)
  | .error fault => .error fault

end KernelLink.Machine
