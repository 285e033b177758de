import KernelLink.Machine.Builtin.Basic
/-!
# Leaving loops, functions and shells

Leaving something drops what it has yet to do. What puts streams or variables back stays, so that
whatever goes on afterwards finds them as they were.

Main definitions:
* `leaveLoops`, `leaveFunction`: what is left to do.
* `Shell.breakOut`, `Shell.leaving`: the commands that leave.
-/
namespace KernelLink.Machine

open Script (illegalNumber)

/-- Does it put something back that was changed for a while? -/
def Frame.putsBack : Frame → Bool
  | .restore _ | .rebind _ => true
  | _ => false

/-- Is it a loop? -/
def Frame.isLoop : Frame → Bool
  | .loopTest .. | .loopAgain .. | .each .. => true
  | _ => false

/-- Does it leave a function or a script that was read in? -/
def Frame.isLeave : Frame → Bool
  | .leave .. => true
  | _ => false

/-- How many loops are under way since a function was called. -/
def loopCount (frames : List Frame) : Nat :=
  (frames.takeWhile (!·.isLeave)).countP Frame.isLoop

/-- A loop begins its next round. -/
def Frame.nextRound : Frame → List Frame
  | .loopTest untilSuccess condition body code =>
    [.run condition, .loopTest untilSuccess condition body code]
  | frame => [frame]

/-- What is left when some loops are left: `depth` loops entirely, and the next one too unless it
goes on. What puts something back stays. -/
def leaveLoops (goesOn : Bool) : (depth : Nat) → List Frame → List Frame
  | _, [] => []
  | depth, frame :: rest =>
    if frame.isLoop then
      match depth with
      | 0 => if goesOn then frame.nextRound ++ rest else rest
      | depth + 1 => leaveLoops goesOn depth rest
    else if frame.putsBack then frame :: leaveLoops goesOn depth rest
    else leaveLoops goesOn depth rest

/-- What is left when the function that is being carried out, or else the shell, is left. -/
def leaveFunction (code : Nat) : List Frame → List Frame
  | [] => [.quit code]
  | frame :: rest =>
    if frame.isLeave then frame :: rest
    else if frame.putsBack then frame :: leaveFunction code rest
    else leaveFunction code rest

namespace Shell

/-- Leaves some loops, or begins the next round of one. -/
def breakOut (s : Shell) (p : Proc) (goesOn : Bool) (args : List String) : Reply :=
  let text := args.head?.getD "1"
  match count? text with
  | none | some 0 => .fault (illegalNumber text)
  | some n =>
    let loops := loopCount s.frames
    if loops = 0 then .after p s 0
    else .after p { s with frames := leaveLoops goesOn (min n loops - 1) s.frames } 0

/-- Leaves the shell or a function with a status. -/
def leaving (s : Shell) (p : Proc) (args : List String) (frames : Nat → List Frame) : Reply :=
  match args with
  | [] => .after p { s with frames := frames s.last } s.last
  | text :: _ =>
    match count? text with
    | some code => .after p { s with frames := frames code } code
    | none => .fault (illegalNumber text)

end Shell
end KernelLink.Machine
