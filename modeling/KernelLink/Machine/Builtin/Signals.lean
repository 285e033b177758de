import KernelLink.Machine.Builtin.Basic
/-!
# Signals and jobs

The commands that arrange for signals, send them, and wait for processes in the background.

Main definitions:
* `trapping`: arrangements for signals.
* `killArguments`, `World.killing`: signals that are sent.
* `Shell.waiting`: processes that are waited for.
-/
namespace KernelLink.Machine

open Control (Pid)
open Script (illegalNumber)

/-! ## Jobs -/

namespace Shell

/-- The process in the background that a text with a percent sign means: by its number, or the last
one. -/
def job? (s : Shell) (text : String) : Option Pid :=
  match (text.drop 1).toString with
  | "" | "%" | "+" => s.jobs.getLast?
  | number => (count? number).bind fun n => if n = 0 then none else s.jobs[n - 1]?

/-- The process that a text means, or what is said if it means none. -/
def awaitable (s : Shell) (text : String) : Except String Pid :=
  if text.startsWith "%" then
    match s.job? text with
    | some pid => .ok pid
    | none => .error ("No such job: " ++ text)
  else
    match count? text with
    | some pid => .ok pid
    | none => .error (illegalNumber text)

/-- Waits for processes in the background. -/
def waiting (s : Shell) (p : Proc) (args : List String) : Reply :=
  match args.mapM s.awaitable with
  | .error reason => .fault reason
  | .ok [] => .after p { s with frames := .job none :: s.frames } s.last
  | .ok pids =>
    let jobs := pids.map fun pid => Frame.job (some pid)
    .after p { s with frames := jobs ++ s.frames } s.last

end Shell

/-! ## Signals -/

/-- The signal that the text in an arrangement names; 0 stands for the end of the shell. -/
def arranged? (name : String) : Option Signal :=
  if name.toList.map Char.toUpper = "EXIT".toList then some 0 else Signal.ofName? name

/-- Makes one arrangement for some signals. -/
def arrange (p : Proc) (s : Shell) (action : String) :
    List String → Proc × Shell × List String
  | [] => (p, s, [])
  | name :: rest =>
    match arranged? name with
    | none => (p, s, [name])
    | some n =>
      let traps := s.traps.filter (·.1 != n)
      let ignored := p.ignored.filter (· != n)
      let (p, s) : Proc × Shell :=
        match action with
        | "-" => ({ p with ignored := ignored }, { s with traps := traps })
        | "" => ({ p with ignored := n :: ignored }, { s with traps := traps })
        | action => ({ p with ignored := ignored }, { s with traps := (n, action) :: traps })
      arrange p s action rest

/-- The arrangements, in the order of the signals. -/
def arrangements (p : Proc) (s : Shell) : String :=
  String.join ((List.range 65).flatMap fun n =>
    let name := if n = 0 then "EXIT" else Signal.name n
    let line (action : String) : String := "trap -- " ++ quoted action ++ " " ++ name ++ "\n"
    match s.traps.lookup n with
    | some action => [line action]
    | none => if p.ignored.contains n then [line ""] else [])

/-- What `trap` does. -/
def trapping (p : Proc) (s : Shell) (args : List String) : Reply :=
  let args := if args.head? = some "--" then args.drop 1 else args
  let arrangedBy (action : String) (names : List String) : Reply :=
    let (p, s, bad) := arrange p s action names
    .done p s (if bad.isEmpty then 0 else 1)
      (bad.map fun name => .complain ("trap: " ++ name ++ ": bad trap"))
  match args with
  | [] => .done p s 0 [.say (arrangements p s)]
  | [name] => arrangedBy "-" [name]
  | action :: names => arrangedBy action names

/-- How `kill` is used. -/
def killUsage : String :=
  "Usage: kill [-s sigspec | -signum | -sigspec] [pid | job]... or\nkill -l [exitstatus]"

/-- The signal that `kill` is to send, and to whom. -/
def killArguments : List String → Except String (Signal × List String)
  | [] => .error killUsage
  | ["-s"] => .error "No arg for -s option"
  | "-s" :: name :: rest =>
    match Signal.ofName? name with
    | some signal => .ok (signal, rest)
    | none => .error ("invalid signal number or name: " ++ name)
  | "--" :: rest => .ok (Signal.terminate, rest)
  | first :: rest =>
    if first.startsWith "-" && first != "-" then
      match Signal.ofName? (first.drop 1).toString with
      | some signal => .ok (signal, rest)
      | none => .error ("Illegal option " ++ (first.take 2).toString)
    else .ok (Signal.terminate, first :: rest)

/-- The name of the signal that an exit status stands for. -/
def signalOfStatus (text : String) : Except String String :=
  match count? text with
  | none => .error (illegalNumber text)
  | some n =>
    let n := if 128 < n then n - 128 else n
    if 0 < n && n < 65 then .ok (Signal.name n)
    else .error ("invalid signal number or exit status: " ++ text)

/-- The process, or with a minus sign the group, that a text means, or what is said if it means
none. A process in the background leads no group that could be meant. -/
def Shell.recipient (s : Shell) (text : String) : Except String (Option Int) :=
  if text.startsWith "%" then (s.awaitable text).map fun _ => none
  else if text.startsWith "-" then
    (s.awaitable (text.drop 1).toString).map fun pid => some (-(pid : Int))
  else (s.awaitable text).map fun pid => some (pid : Int)

/-- Sends a signal to processes, in order; a complaint for each that is not there, and the reason
for which it stops. -/
def World.killAll (m : World) (s : Shell) (group : Pid) (signal : Signal) :
    List String → List String × Option String × World
  | [] => ([], none, m)
  | text :: rest =>
    match s.recipient text with
    | .error reason => ([], some reason, m)
    | .ok recipient =>
      let (found, m) :=
        match recipient with
        | none => (false, m)
        | some i =>
          if i = 0 then m.deliverGroup group signal
          else if i < 0 then m.deliverGroup i.natAbs signal
          else m.deliver i.toNat signal
      let (missing, stopped, m) := m.killAll s group signal rest
      (if found then missing else "No such process\n" :: missing, stopped, m)

/-- What `kill` does. -/
def World.killing (m : World) (p : Proc) (s : Shell) (args : List String) : World :=
  let say (text : String) : Effect := s.complaint ("kill: " ++ text)
  let ended (m : World) (code : Nat) (effects : List Effect) : World :=
    (m.updateShell p.pid fun s => { s with last := code }).update p.pid fun q =>
      { q with effects := q.effects ++ effects }
  match args with
  | "-l" :: text :: _ =>
    match signalOfStatus text with
    | .ok name => ended m 0 [.say (name ++ "\n")]
    | .error reason => ended m 2 [say reason]
  | args =>
    match killArguments args with
    | .error reason => ended m 2 [say reason]
    | .ok (_, []) => ended m 2 [say killUsage]
    | .ok (signal, targets) =>
      let (missing, stopped, m) := m.killAll s p.group signal targets
      match stopped with
      | some reason => ended m 2 (missing.map say ++ [say reason])
      | none => ended m (if missing.isEmpty then 0 else 1) (missing.map say)

end KernelLink.Machine
