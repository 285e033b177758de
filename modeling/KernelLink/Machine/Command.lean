import KernelLink.Machine.Builtin
/-!
# Commands

How a shell begins a command: the output of other scripts is put into its words, its redirections
are put into effect, and then it is a function, a command of the shell itself or a program, or it
leaves something behind that the shell has yet to do.

Main definitions:
* `World.load`, `World.create`: what a program is about to do, and a new process.
* `Hindrance`, `World.redirect`: redirections, and what stands in their way.
* `World.fork`, `World.become`: another shell, and a program in the place of this one.
* `World.runSimple`: a command with a name.
* `World.runCommand`: any command.
-/
namespace KernelLink.Machine

open Control (Pid)
open Script (Command Word Redirect)

/-! ## Processes -/

/-- What a program with some arguments is about to do; it goes by the name it is called by. -/
def World.load (m : World) (pid : Pid) (tool : Tool) (called : String) (args : List String)
    (directory : List UInt8) (environment : List (String × String)) : Work × List Effect :=
  match tool with
  | .shell => m.loadShell pid called directory environment args
  | .cat =>
    match badOption called "AbeEnstTuv" args, operands args with
    | [], [] => (.nothing, [.copy, .exit 0])
    | [], files => (.nothing, m.catEffects called directory 0 files)
    | complaints, _ => (.nothing, complaints)
  | .sleep =>
    match badOption called "" args with
    | [] => (.nothing, sleepEffects called (operands args))
    | complaints => (.nothing, complaints)
  | .succeed => (.nothing, [.exit 0])
  | .fail => (.nothing, [.exit 1])
  | .format => (.nothing, formatEffects called args)
  | .echo => (.nothing, echoEffects args)
  | .directory => (.nothing, m.directoryEffects directory)
  | .kernel =>
    let artifact := args.head?.map fun a => (a, m.contents directory (bytesOf a))
    let path := pathFrom directory (bytesOf (args.head?.getD ""))
    (.kernel path .empty, (Mock.begin artifact).map Effect.ofKernel)

/-- A process with a number of its own. The group is the process's own unless one is given. -/
def World.create (m : World) (parent : Pid) (group : Option Pid) (ignored : List Signal)
    (streams : Streams) (directory : List UInt8) (environment : List (String × String))
    (f : Pid → Work × List Effect) : Pid × World :=
  let pid := m.nextPid
  let (work, effects) := f pid
  let p : Proc :=
    ⟨pid, parent, group.getD pid, ignored, streams, directory, environment, effects, none, work,
      none⟩
  (pid, { m with procs := m.procs ++ [p], nextPid := pid + 1 })

/-! ## Redirections -/

/-- What stands in the way of a command. -/
inductive Hindrance where
  /-- The command is not run. -/
  | refused (text : String)
  /-- The shell ends. -/
  | fatal (text : String)

/-- What a shell says of a file that it cannot make. -/
def cannotCreate : StreamFault → String
  | .os 2 | .os 20 => "Directory nonexistent"
  | fault => cannotOpen fault

/-- Opens a file to write to it, which is made if it is missing. -/
def World.openToWrite (m : World) (directory : List UInt8) (atEnd : Bool) (target : String) :
    Except String (World × Stream) :=
  let path := bytesOf target
  let refuse (text : String) : Except String (World × Stream) :=
    .error ("cannot create " ++ target ++ ": " ++ text)
  match m.files.locate directory path with
  | .ok (_, .directory) => refuse (Host.Refusal.text 21)
  | .ok (place, .file ..) =>
    let path := Host.Path.text place
    .ok (if atEnd then m else { m with files := m.files.add path [] }, .file path)
  | .error fault =>
    let path := pathFrom directory path
    let above := (path.reverse.dropWhile (· != Host.Path.slash)).reverse
    match fault, target.isEmpty, m.files.look above with
    | .os 2, false, .ok .directory => .ok ({ m with files := m.files.add path [] }, .file path)
    | fault, _, _ => refuse (cannotCreate fault)

/-- A stream that gives some bytes and ends. -/
def World.streamOf (m : World) (bytes : List UInt8) : World × Stream :=
  let (n, m) := m.addPipe { Host.Pipe.new with bytes := bytes, writing := false }
  (m, .pipe n)

/-- The stream that a redirection asks for. -/
def World.streamFor (m : World) (p : Proc) (direction : Script.Direction) (target : String) :
    Except Hindrance (World × Stream) :=
  match direction, target with
  | .fromText, text => .ok (m.streamOf (bytesOf text))
  | .duplicate, "-" => .ok (m, .closed)
  | .duplicate, target =>
    match count? target with
    | none => .error (.fatal "Syntax error: Bad fd number")
    | some n =>
      if p.streams.get n == .closed then .error (.refused (target ++ ": Bad file descriptor"))
      else .ok (m, p.streams.get n)
  | _, "/dev/null" => .ok (m, .nothing)
  | .fromFile, "/dev/stdin" => .ok (m, p.streams.input)
  | .fromFile, target =>
    match m.contents p.directory (bytesOf target) with
    | .ok bytes => .ok (m.streamOf bytes)
    | .error (.os 21) => .ok (m, .nothing)
    | .error fault => .error (.refused ("cannot open " ++ target ++ ": " ++ cannotOpen fault))
  | _, "/dev/stdout" => .ok (m, p.streams.output)
  | _, "/dev/stderr" => .ok (m, p.streams.errors)
  | direction, target =>
    (m.openToWrite p.directory (direction == .atEnd) target).mapError .refused

/-- Puts redirections into effect, in order. -/
def World.redirect (m : World) (p : Proc) (s : Shell) :
    List Redirect → Except Hindrance (World × Proc × Shell)
  | [] => .ok (m, p, s)
  | r :: rest =>
    match s.text r.target with
    | .error reason => .error (.fatal reason)
    | .ok (target, s) =>
      match m.streamFor p r.direction target with
      | .error hindrance => .error hindrance
      | .ok (m, stream) =>
        m.redirect { p with streams := p.streams.set r.stream stream } s rest

/-! ## Shells -/

/-- Does it look at whether the command before it succeeds? -/
def Frame.tests : Frame → Bool
  | .ifSucceeded _ | .ifFailed _ | .negate | .loopTest .. | .branch .. => true
  | _ => false

/-- Does anything look at whether the next command succeeds? -/
def Shell.isTested (s : Shell) : Bool := s.frames.any Frame.tests

/-- Another shell that does some things in a process of its own. A failure there is looked at if it
is looked at here. -/
def World.fork (m : World) (p : Proc) (s : Shell) (streams : Streams) (frames : List Frame) :
    Pid × World :=
  m.create p.pid (some p.group) p.ignored streams p.directory p.environment fun _ =>
    let manner := { s.manner with strict := s.manner.strict && !s.isTested }
    let s : Shell :=
      { s with
        frames := frames, replaceable := true, traps := [], caught := [], ended := []
        manner := manner }
    (.shell s, [])

/-- Goes on with a shell. -/
def World.goOn (m : World) (p : Proc) (s : Shell) : World :=
  m.update p.pid fun q => { q with streams := p.streams, ignored := p.ignored, work := .shell s }

/-- Goes on with a shell after an effect. -/
def World.goOnAfter (m : World) (p : Proc) (s : Shell) (effects : List Effect) : World :=
  (m.goOn p s).update p.pid fun q => { q with effects := q.effects ++ effects }

/-- A complaint of a shell, and how the command ended. -/
def World.complain (m : World) (p : Proc) (s : Shell) (code : Nat) (text : String) : World :=
  m.goOnAfter p { s with last := code } [s.plainComplaint text]

/-- A complaint of a shell that ends with it. -/
def World.abandon (m : World) (p : Proc) (s : Shell) (text : String) : World :=
  m.goOnAfter p { s with last := 2, frames := [.quit 2] } [s.plainComplaint text]

/-- A command cannot be run. -/
def World.hinder (m : World) (p : Proc) (s : Shell) (isSpecial : Bool) : Hindrance → World
  | .fatal text => m.abandon p s text
  | .refused text => if isSpecial then m.abandon p s text else m.complain p s 2 text

/-- A program takes the place of a process. -/
def World.become (m : World) (p : Proc) (s : Shell) (tool : Tool) (called : String)
    (args : List String) : World :=
  let environment := s.environment
  let (work, effects) := m.load p.pid tool called args p.directory environment
  m.update p.pid fun q =>
    { q with
      streams := p.streams
      environment := environment
      effects := q.effects ++ effects
      work := work }

/-! ## Commands with a name -/

/-- How a command ends that names no program, and what is said about it. -/
def refusal (name : String) : StreamFault → Nat × String
  | .os 2 | .os 20 => (127, name ++ ": not found")
  | fault =>
    (if name.toList.contains '/' && fault != .os 36 then 126 else 127,
      name ++ ": " ++ cannotOpen fault)

/-- The program that a name means to a shell. -/
def World.programFor (m : World) (p : Proc) (s : Shell) (name : String) : Except StreamFault Tool :=
  if name.isEmpty then .error StreamFault.denied else m.resolve p.directory s.places name

/-- Runs a program with the variables of the shell `inner`, in a process of its own unless it may
take the shell's place. The streams of `before` are put back afterwards. -/
def World.runTool (m : World) (before p : Proc) (s inner : Shell) (name : String)
    (args : List String) : World :=
  match m.programFor p inner name with
  | .error fault =>
    let (code, text) := refusal name fault
    m.complain p { s with frames := .restore before.streams :: s.frames } code text
  | .ok tool =>
    if s.frames.isEmpty && s.replaceable && !s.hasTraps then m.become p inner tool name args
    else
      let environment := inner.environment
      let (pid, m) :=
        m.create p.pid (some p.group) p.ignored p.streams p.directory environment fun pid =>
          m.load pid tool name args p.directory environment
      m.goOn before { s with frames := .child pid :: s.frames }

/-- The name and the arguments of a command without the words that only ask for functions to be
passed over, and whether there are any such words. -/
def withoutCommand : List String → Bool × List String
  | "command" :: "-v" :: rest => (false, "command" :: "-v" :: rest)
  | "command" :: "-V" :: rest => (false, "command" :: "-V" :: rest)
  | "command" :: "--" :: name :: rest => (true, (withoutCommand (name :: rest)).2)
  | "command" :: name :: rest => (true, (withoutCommand (name :: rest)).2)
  | fields => (false, fields)

/-- Sets variables that programs get to see. -/
def Shell.assignExposed (s : Shell) (assignments : List (String × Word)) : Except String Shell :=
  (s.assign assignments).map fun s => assignments.foldl (fun s a => s.expose a.1) s

/-- Runs a command whose words and redirections are done: `p` is the process with its redirections,
`before` the process without them. -/
def World.runNamed (m : World) (before p : Proc) (s : Shell) (assignments : List (String × Word))
    (name : String) (args : List String) (passesFunctions : Bool) : World :=
  let restored (s : Shell) : Shell :=
    if before.streams == p.streams then s
    else { s with frames := .restore before.streams :: s.frames }
  let rebound (s : Shell) : Shell :=
    if assignments.isEmpty then s
    else { s with frames := .rebind (assignments.map fun a => s.former a.1) :: s.frames }
  let withAssigned (s : Shell) (assigned : Except String Shell) (go : Shell → World) : World :=
    match assigned with
    | .ok s => go s
    | .error reason => m.abandon p s reason
  match specialBuiltins.contains name, s.functions.lookup name with
  | true, _ =>
    if name = "exec" then
      match args with
      | [] => withAssigned s (s.assign assignments) fun s => m.goOn p { s with last := 0 }
      | program :: args =>
        withAssigned s (s.assignExposed assignments) fun s =>
          match m.programFor p s program with
          | .ok tool => m.become p s tool program args
          | .error fault =>
            let (code, text) := refusal program fault
            m.goOnAfter p { s with last := code, frames := [.quit code] }
              [s.complaint ("exec: " ++ text)]
    else
      withAssigned s (s.assign assignments) fun s =>
        let s := restored s
        (m.goOn p s).builtin p s (!passesFunctions) name args
  | false, function =>
    match if passesFunctions then none else function with
    | some body =>
      let s := rebound (restored s)
      withAssigned s (s.assignExposed assignments) fun s =>
        let leave := Frame.leave s.parameters []
        m.goOn p { s with parameters := args, frames := .run body :: leave :: s.frames }
    | none =>
      if builtins.contains name then
        let s := rebound (restored s)
        withAssigned s (s.assignExposed assignments) fun s =>
          (m.goOn p s).builtin p s false name args
      else
        withAssigned s (s.assignExposed assignments) fun inner =>
          m.runTool before p s inner name args

/-- Is a command's first word the name of a command whose arguments may be assignments? -/
def takesAssignments : List Word → Bool
  | [.text name false] :: rest =>
    if name = "command" then takesAssignments rest else assigningBuiltins.contains name
  | _ => false

/-- A command as it is shown before it runs. -/
def Shell.trace (s : Shell) (assignments : List (String × Word)) (fields : List String) : Effect :=
  let set := assignments.map fun a => a.1 ++ "=" ++ s.values.joined a.2
  .complain (s.look "PS4" ++ String.intercalate " " (set ++ fields))

/-- Runs a simple command into whose words all output has been put. -/
def World.runSimple (m : World) (p : Proc) (s : Shell) (c : Command) (shown : Bool)
    (assignments : List (String × Word)) (words : List Word) (redirects : List Redirect) : World :=
  let isWhole (w : Word) : Bool :=
    takesAssignments words && (Script.Grammar.assignment? w).isSome
  match s.fields isWhole words with
  | .error reason => m.abandon p s reason
  | .ok (fields, after) =>
    if s.manner.traced && !shown && !(fields.isEmpty && assignments.isEmpty) then
      m.goOnAfter p { s with frames := .shown c :: s.frames } [s.trace assignments fields]
    else
      let (passesFunctions, fields) := withoutCommand fields
      let isSpecial :=
        !passesFunctions && (fields.head?.map specialBuiltins.contains).getD false
      match m.redirect p after redirects with
      | .error hindrance => m.hinder p after isSpecial hindrance
      | .ok (m, q, s) =>
        match fields with
        | [] =>
          match s.assign assignments with
          | .error reason => m.abandon p s reason
          | .ok s =>
            let taken := Script.isFilled (words ++ assignments.map (·.2))
            m.goOn p { s with last := if taken then s.lastOutput else 0 }
        | name :: args => m.runNamed p q s assignments name args passesFunctions

/-! ## All commands -/

/-- The commands of a pipeline. -/
def stagesOf : Command → List Command
  | .pipe first second => first :: stagesOf second
  | c => [c]

/-- Runs the commands of a pipeline, each in a process of its own that reads what the one before it
writes. -/
def World.forkStages (m : World) (p : Proc) (s : Shell) (source : Stream) :
    List Command → List Pid × World
  | [] => ([], m)
  | [c] =>
    let (pid, m) := m.fork p s { p.streams with input := source } [.run c]
    ([pid], m)
  | c :: rest =>
    let (n, m) := m.addPipe .new
    let (pid, m) := m.fork p s { p.streams with input := source, output := .pipe n } [.run c]
    let (pids, m) := m.forkStages p s (.pipe n) rest
    (pid :: pids, m)

/-- The command in the first case that has a pattern for a text. -/
def Shell.chosen (s : Shell) (text : String) (cases : List (List Word × Command)) :
    Option Command :=
  (cases.find? fun c => c.1.any fun w => (s.values.pattern w).fits text.toList).map (·.2)

/-- Begins to run a command; one that is `shown` is not shown again. -/
def World.runCommand (m : World) (p : Proc) (s : Shell) (c : Command) (shown : Bool) : World :=
  let go (frames : List Frame) : World := m.goOn p { s with frames := frames ++ s.frames }
  let within (redirects : List Redirect) (f : Shell → Except String (Shell × List Frame)) : World :=
    match m.redirect p s redirects with
    | .error hindrance => m.hinder p s false hindrance
    | .ok (m, q, s) =>
      match f s with
      | .error reason => m.abandon q s reason
      | .ok (s, frames) =>
        let back := if redirects.isEmpty then [] else [Frame.restore p.streams]
        m.goOn q { s with frames := frames ++ back ++ s.frames }
  let checked (s : Shell) : Shell :=
    if s.manner.strict && !s.frames.isEmpty then { s with frames := .checked :: s.frames } else s
  let s := match c with | .simple line .. => { s with line := line } | _ => s
  match s.values.outputOf? c with
  | some script =>
    let (n, m) := m.addPipe .new
    let frames := Frame.ofScript s.line script
    let (pid, m) := m.fork p { s with frames := [] } { p.streams with output := .pipe n } frames
    m.goOn p { s with frames := .collect n pid [] c :: s.frames }
  | none =>
    match c with
    | .simple _ assignments words redirects =>
      m.runSimple p (if shown then s else checked s) c shown assignments words redirects
    | .sequence first second => go [.run first, .run second]
    | .both first second => go [.run first, .ifSucceeded second]
    | .either first second => go [.run first, .ifFailed second]
    | .negate c => go [.run c, .negate]
    | .background c =>
      let ignored := Signal.interrupt :: Signal.leave :: p.ignored
      let streams := { p.streams with input := .nothing }
      let (pid, m) := m.fork { p with ignored := ignored } s streams [.run c]
      m.goOn p { s with last := 0, jobs := s.jobs ++ [pid] }
    | .pipe first second =>
      let (pids, m) := m.forkStages p s p.streams.input (first :: stagesOf second)
      let s := checked s
      m.goOn p { s with frames := .pipeline pids :: s.frames }
    | .group body redirects => within redirects fun s => .ok (s, [.run body])
    | .subshell body redirects =>
      match m.redirect p s redirects with
      | .error hindrance => m.hinder p s false hindrance
      | .ok (m, q, s) =>
        if s.frames.isEmpty && s.replaceable && !s.hasTraps then
          m.goOn q { s with frames := [.run body] }
        else
          let (pid, m) := m.fork p s q.streams [.run body]
          let s := checked s
          m.goOn p { s with frames := .child pid :: s.frames }
    | .loop untilSuccess condition body redirects =>
      within redirects fun s =>
        .ok (s, [.run condition, .loopTest untilSuccess condition body 0])
    | .branch condition yes no redirects =>
      within redirects fun s => .ok (s, [.run condition, .branch yes no])
    | .each name words body redirects =>
      within redirects fun s =>
        (s.fields (fun _ => false) words).map fun (values, s) =>
          ({ s with last := if values.isEmpty then 0 else s.last }, [.each name values body])
    | .choose word cases redirects =>
      within redirects fun s =>
        (s.text word).map fun (text, s) =>
          match s.chosen text cases with
          | some body => (s, [.run body])
          | none => ({ s with last := 0 }, [])
    | .define name body =>
      let others := s.functions.filter (·.1 != name)
      m.goOn p { s with last := 0, functions := (name, body) :: others }

end KernelLink.Machine
