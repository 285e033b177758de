import KernelLink.Machine.Command
/-!
# One step of a shell

What a shell does next, if it can do anything at this instant: it deals with a signal that came, or
with what it has yet to do. A shell that waits for bytes or for another process does nothing.

Main definitions:
* `World.awaited`: how a child ended that is waited for.
* `World.attend`: a shell deals with a signal.
* `World.shellStep`: the next thing that a shell does.
-/
namespace KernelLink.Machine

open Control (Pid Status)
open Script (Command)
open Session (Wires)

/-! ## Children -/

/-- The exit status that stands for how a process has ended. -/
def statusCode : Status → Nat
  | .code n => n
  | .signal n => 128 + n
  | .terminated => 0

/-- What is said of a command that a signal ended. -/
def farewell : Status → List Effect
  | .signal n => (Signal.farewell n).toList.map Effect.complain
  | _ => []

/-- Asks for a child that has ended, if there is one. -/
def World.reapOne (m : World) (p : Proc) (s : Shell) : Option World :=
  match m.procs.find? fun c => c.parent == p.pid && c.status.isSome with
  | some c =>
    let ended := s.ended ++ (c.status.map fun status => (c.pid, status)).toList
    some ((m.remove c.pid).goOn p { s with ended := ended })
  | none => none

/-- Has a process no children? -/
def World.isChildless (m : World) (p : Proc) : Bool := !(m.procs.any (·.parent == p.pid))

/-- Is a process a child of another one? -/
def World.isChild (m : World) (p : Proc) (pid : Pid) : Bool :=
  m.procs.any fun c => c.parent == p.pid && c.pid == pid

/-- How a child ended that is waited for, once it has. A process that was never a child of the shell
is taken to have ended at once. -/
def World.awaited (m : World) (p : Proc) (s : Shell) (pid : Pid) : Option Status :=
  match s.ended.lookup pid with
  | some status => some status
  | none => if m.isChild p pid then none else some (.code 127)

/-- How the processes of a pipeline ended, once all have. -/
def World.awaitedAll (m : World) (p : Proc) (s : Shell) : List Pid → Option (List Status)
  | [] => some []
  | pid :: rest =>
    match m.awaited p s pid, m.awaitedAll p s rest with
    | some status, some statuses => some (status :: statuses)
    | _, _ => none

/-- Does a shell wait for children? -/
def Frame.awaitsChildren : Frame → Bool
  | .child _ | .pipeline _ | .job _ | .collect .. => true
  | _ => false

/-- Is the shell waiting for something that a signal does not interrupt? -/
def Frame.holdsSignals : Frame → Bool
  | .child _ | .pipeline _ | .collect .. => true
  | _ => false

/-! ## Signals -/

/-- A shell deals with a signal that came. -/
def World.attend (m : World) (p : Proc) (s : Shell) : Option World :=
  match s.caught with
  | [] => none
  | signal :: caught =>
    if (s.frames.head?.map Frame.holdsSignals).getD false then none
    else
      let action := (s.traps.lookup signal).getD ""
      let (last, frames) :=
        match s.frames with
        | .job _ :: rest => (128 + signal, rest)
        | .read .. :: rest => (1, rest)
        | frames => (s.last, frames)
      let frames := Frame.ofScript 1 action ++ .status last :: frames
      some (m.goOn p { s with caught := caught, last := last, frames := frames })

/-! ## Input -/

/-- The shortest beginning of some bytes that is whole lines and a finished script, and what follows
it. -/
def finishedLines : (fuel : Nat) → (before : List UInt8) → List UInt8 →
    Option (List UInt8 × List UInt8)
  | 0, _, _ => none
  | fuel + 1, before, bytes =>
    match bytes.span (· != 10) with
    | (line, nl :: rest) =>
      let script := before ++ line ++ [nl]
      if Script.Parsed.isUnfinished (Text.Utf8.lossy script) then finishedLines fuel script rest
      else some (script, rest)
    | (_, []) => none

/-- The text that some output becomes: without line ends at its end. -/
def withoutLineEnds (bytes : List UInt8) : String :=
  Text.Utf8.lossy ((bytes.reverse.dropWhile (· == 10)).reverse)

/-- A line that was read goes into variables. -/
def World.assignLine (m : World) (p : Proc) (s : Shell) (asIs : Bool) (names : List String)
    (taken : List UInt8) (code : Nat) : World :=
  let line := (Text.Utf8.lossy (taken.filter fun b => b != 10 && b != 0)).toList
  match s.setAll (Script.lineShares s.dividers (Script.shown asIs line) names) with
  | .ok s => m.goOn p { s with last := code }
  | .error reason => m.goOnAfter p { s with last := 2 } [s.complaint ("read: " ++ reason)]

/-! ## Steps -/

/-- The next thing that a shell does when it reads its script from its input. -/
def World.interactStep (w : Wires) (m : World) (p : Proc) (s : Shell) (line : Nat)
    (taken : List UInt8) : Option (Wires × World) :=
  match finishedLines (taken.length + 1) [] taken with
  | some (script, rest) =>
    let next := Frame.interact (line + script.count 10) rest
    let frames := Frame.ofScript line (Text.Utf8.lossy script)
    some (w, m.goOn p { s with frames := frames ++ [next] })
  | none =>
    match m.read w p.streams.input with
    | .data bytes w m => some (w, m.goOn p { s with frames := [.interact line (taken ++ bytes)] })
    | .nothing => none
    | .ended =>
      some (w, m.goOn p { s with frames := Frame.ofScript line (Text.Utf8.lossy taken) })

/-- The next thing that a shell does which has a frame, and then the ones in `s`, before it. -/
def World.frameStep (w : Wires) (m : World) (p : Proc) (s : Shell) (frame : Frame) :
    Option (Wires × World) :=
  let rest := s.frames
  let just (m : World) : Option (Wires × World) := some (w, m)
  match frame with
  | .run c => just (m.runCommand p s c false)
  | .shown c => just (m.runCommand p s c true)
  | .ifSucceeded c =>
    just (m.goOn p (if s.last = 0 then { s with frames := .run c :: rest } else s))
  | .ifFailed c =>
    just (m.goOn p (if s.last = 0 then s else { s with frames := .run c :: rest }))
  | .negate => just (m.goOn p { s with last := if s.last = 0 then 1 else 0 })
  | .loopTest untilSuccess condition body status =>
    if (s.last = 0) = untilSuccess then just (m.goOn p { s with last := status })
    else
      let again := Frame.loopAgain untilSuccess condition body
      just (m.goOn p { s with frames := .run body :: again :: rest })
  | .loopAgain untilSuccess condition body =>
    let test := Frame.loopTest untilSuccess condition body s.last
    just (m.goOn p { s with frames := .run condition :: test :: rest })
  | .branch yes no =>
    if s.last = 0 then just (m.goOn p { s with frames := .run yes :: rest })
    else just (m.goOn p { s with last := 0, frames := .run no :: rest })
  | .each _ [] _ => just (m.goOn p s)
  | .each name (v :: values) body =>
    match s.set? name v with
    | .ok s =>
      just (m.goOn p { s with frames := .run body :: .each name values body :: rest })
    | .error reason => just (m.abandon p s reason)
  | .child pid =>
    (m.awaited p s pid).map fun status =>
      let ended := s.ended.filter (·.1 != pid)
      let s := { s with last := statusCode status, ended := ended }
      (w, m.goOnAfter p s (farewell status))
  | .pipeline pids =>
    (m.awaitedAll p s pids).map fun statuses =>
      let ended := s.ended.filter (! pids.contains ·.1)
      let last := (statuses.getLast?.map statusCode).getD 0
      (w, m.goOnAfter p { s with last := last, ended := ended } (statuses.flatMap farewell))
  | .job (some pid) =>
    (m.awaited p s pid).map fun status =>
      (w, m.goOnAfter p { s with last := statusCode status } (farewell status))
  | .job none => if m.isChildless p then just (m.goOn p { s with last := 0 }) else none
  | .collect n pid taken c =>
    match m.read w (.pipe n) with
    | .data bytes w m =>
      some (w, m.goOn p { s with frames := .collect n pid (taken ++ bytes) c :: rest })
    | .nothing => none
    | .ended =>
      (m.awaited p s pid).map fun status =>
        let c := s.values.filled (withoutLineEnds taken) c
        let ended := s.ended.filter (·.1 != pid)
        let s := { s with lastOutput := statusCode status, ended := ended }
        (w, m.goOnAfter p { s with frames := .run c :: rest } (farewell status))
  | .read asIs names taken =>
    match m.readLine w p.streams.input with
    | .data bytes w m =>
      let all := taken ++ bytes
      if all.getLast? = some 10 then
        if !asIs && (all.dropLast.reverse.takeWhile (· == 92)).length % 2 = 1 then
          some (w, m.goOn p { s with frames := .read asIs names all.dropLast.dropLast :: rest })
        else some (w, m.assignLine p s asIs names all 0)
      else some (w, m.goOn p { s with frames := .read asIs names all :: rest })
    | .nothing => none
    | .ended => just (m.assignLine p s asIs names taken 1)
  | .restore streams => just (m.goOn { p with streams := streams } s)
  | .rebind former => just (m.goOn p (former.foldr (fun f s => s.revert f) s))
  | .leave parameters former =>
    just (m.goOn p { former.foldr (fun f s => s.revert f) s with parameters := parameters })
  | .calling _ => just (m.goOn p s)
  | .checked =>
    if s.last = 0 || s.isTested || !s.manner.strict then just (m.goOn p s)
    else just (m.goOn p { s with frames := [.quit s.last] })
  | .status code => just (m.goOn p { s with last := code })
  | .quit code =>
    match s.traps.lookup 0 with
    | some action =>
      let traps := s.traps.filter (·.1 != 0)
      let frames := Frame.ofScript 1 action ++ [.quit code]
      just (m.goOn p { s with traps := traps, last := code, frames := frames })
    | none =>
      just (m.update p.pid fun q =>
        { q with effects := q.effects ++ [.exit code], work := .nothing })
  | .interact line taken => m.interactStep w p s line taken
  | .mistake mistake =>
    let s := { s with line := mistake.line.getD s.line }
    just (m.abandon p s ("Syntax error: " ++ mistake.text))

/-- The next thing that a shell does. -/
def World.shellStep (w : Wires) (m : World) (p : Proc) (s : Shell) : Option (Wires × World) :=
  match m.attend p s with
  | some m => some (w, m)
  | none =>
    match s.frames with
    | [] => some (w, m.goOn p { s with frames := [.quit s.last] })
    | frame :: rest =>
      match if frame.awaitsChildren then m.reapOne p s else none with
      | some m => some (w, m)
      | none => m.frameStep w p { s with frames := rest } frame

end KernelLink.Machine
