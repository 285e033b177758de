import KernelLink.Machine.Condition
import KernelLink.Machine.Builtin.Assign
import KernelLink.Machine.Builtin.Names
import KernelLink.Machine.Builtin.Signals
/-!
# Commands of a shell itself

The commands that a shell carries out without another process, by their names. Some are special: a
fault in one of them ends the shell, and assignments in front of them last.

Main definitions:
* `World.reply`: what each of them comes to.
* `World.builtin`: a command of the shell is carried out.
-/
namespace KernelLink.Machine

/-- Runs a script in this shell. -/
def Shell.evaluating (s : Shell) (p : Proc) (called script : String) (more : List Frame) : Reply :=
  let frames := Frame.ofScript 1 script
  .after p { s with frames := frames ++ .calling called :: more ++ s.frames }
    (if frames.isEmpty then 0 else s.last)

/-- What a command of the shell itself comes to. The shell has the command already behind it. -/
def World.reply (m : World) (p : Proc) (s : Shell) (name : String) (args : List String) : Reply :=
  let done (code : Nat) (effects : List Effect) : Reply := .done p s code effects
  match name with
  | "false" => done 1 []
  | "echo" => done 0 [.say (Script.echoed args)]
  | "printf" =>
    match Script.formatted args with
    | some f =>
      let code :=
        if f.complaints.any (·.isFinal) then 2 else if f.complaints.isEmpty then 0 else 1
      let complaints := f.complaints.map fun c => s.complaint ("printf: " ++ c.message)
      done code (.say f.text :: complaints)
    | none => .fault "usage: printf format [arg ...]"
  | "pwd" =>
    match args, m.files.locate Host.Files.working p.directory with
    | "-P" :: _, .ok (place, _) => done 0 [.say (Text.Utf8.lossy (Host.Path.text place) ++ "\n")]
    | _, _ => done 0 [.say (Text.Utf8.lossy p.directory ++ "\n")]
  | "cd" => m.going p s false args
  | "umask" => done 0 (if args.isEmpty then [.say "0022\n"] else [])
  | "read" => s.reading p false args
  | "wait" => s.waiting p args
  | "trap" => trapping p s args
  | "test" =>
    match m.condition p.directory args with
    | .ok truth => done (if truth then 0 else 1) []
    | .error reason => .fault reason
  | "[" =>
    if args.getLast? = some "]" then
      match m.condition p.directory args.dropLast with
      | .ok truth => done (if truth then 0 else 1) []
      | .error reason => .fault reason
    else .fault "missing ]"
  | "type" => m.naming p s described args
  | "command" =>
    match args with
    | "-v" :: names => m.naming p s denoted names
    | "-V" :: names => m.naming p s described names
    | _ => done 0 []
  | "export" | "readonly" =>
    let marked := if name = "export" then s.exported else s.fixed
    let mark (s : Shell) (v : String) : Shell :=
      if name = "export" then s.expose v
      else { s with fixed := v :: s.fixed.filter (· != v) }
    match args with
    | [] | "-p" :: _ => done 0 [s.shown (name ++ " ") marked]
    | args => s.marking p mark args
  | "local" => s.localizing p args
  | "unset" =>
    match args with
    | "-f" :: names =>
      .after p { s with functions := s.functions.filter fun f => !names.contains f.1 } 0
    | "-v" :: names => s.unsetting p names
    | names => s.unsetting p names
  | "set" => s.setting p args
  | "shift" => s.shifting p args
  | "eval" => s.evaluating p "eval" (String.intercalate " " args) []
  | "." =>
    match args with
    | [] => done 0 []
    | file :: _ =>
      match m.scriptOf p s file with
      | .ok (path, script) => s.evaluating p path script [.leave s.parameters []]
      | .error reason => .fault reason
  | "break" => s.breakOut p false args
  | "continue" => s.breakOut p true args
  | "exit" => s.leaving p args fun code => [.quit (code % 256)]
  | "return" => s.leaving p args fun code => leaveFunction code s.frames
  | _ => done 0 []

/-- Does it write to the output? -/
def Effect.isOutput : Effect → Bool
  | .write false bytes => !bytes.isEmpty
  | _ => false

/-- A command of the shell is carried out. A fault in one that is special ends the shell. -/
def World.builtin (m : World) (p : Proc) (s : Shell) (isSpecial : Bool) (name : String)
    (args : List String) : World :=
  let put (q : Proc) (s : Shell) (effects : List Effect) : World :=
    m.update p.pid fun r =>
      { r with
        ignored := q.ignored, directory := q.directory, effects := r.effects ++ effects
        work := .shell s }
  let failed (code : Nat) (text : String) : World :=
    put p { s with last := code, frames := if isSpecial then [.quit 2] else s.frames }
      [s.complaint (name ++ ": " ++ text)]
  if name = "kill" then m.killing p s args
  else
    match m.reply p s name args with
    | .fault text => failed 2 text
    | .done q s code effects =>
      if p.streams.output == .closed && effects.any Effect.isOutput then
        put q { s with last := 1 } [s.complaint (name ++ ": " ++ name ++ ": I/O error")]
      else put q { s with last := code } effects

end KernelLink.Machine
