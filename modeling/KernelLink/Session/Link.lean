import KernelLink.Control.Routine
import KernelLink.Session.Wires
import KernelLink.Wire.Greeting
import KernelLink.Launch.Timing
/-!
# A link to a running kernel

One conversation, shared by any number of callers. A call waits for its turn, writes one line to the
kernel, and reads one line back; there is nothing in a reply that tells which request it answers, so
the pairing rests on the turns and on the phase of the conversation. Closing ends all of it.

The link is a machine of small steps. Every step is one of the `Event`s: what the kernel does, the
clock, what callers do, and one poll of one task. `World.apply` is total; an event that is not
possible in a state changes nothing. A run is a list of events, so a statement about all runs is one
about all schedules, all kernels and all callers.

Main definitions:
* `Phase`, `Desync`: whether the conversation can go on, and why not.
* `Stage`, `CloseStage`, `Task`: how far a call or a closing has got.
* `World`, `World.pollCall`, `World.pollClose`: the state and one poll of a task.
* `Event`, `World.apply`, `World.run`.
-/
namespace KernelLink.Session

open Control (Routine)
open Host (Pipe)

/-! ## The phase of a conversation -/

/-- Why requests and replies can no longer be matched. -/
inductive Desync where
  /-- The link was closed while a reply was due. -/
  | cancelled
  /-- A line of the kernel is not UTF-8. -/
  | unreadable (fault : Text.Utf8.Fault)
  /-- No reply came in time. -/
  | noResponse (limit : Nat)
  /-- The reply to an earlier request never came. -/
  | lateReplyMissing
  /-- A line of the kernel is no document. -/
  | unparseable (line : String)
  deriving Repr, DecidableEq

/-- How many characters of a line are shown in messages. -/
def previewLength : Nat := 120

/-- The wording of a reason. -/
def Desync.reason : Desync → String
  | .cancelled => "request cancelled by close"
  | .unreadable fault => "failed to read kernel stdout: " ++ fault.message
  | .noResponse limit => s!"no response within {limit}ms"
  | .lateReplyMissing => "reply to an earlier request never arrived"
  | .unparseable line => "unparseable kernel output: " ++ Text.preview previewLength line

/-- Whether and how the conversation can go on. -/
inductive Phase where
  /-- No reply is due. -/
  | ready
  /-- A call gave up on its reply, which may still come. -/
  | replyOutstanding
  /-- Requests and replies can no longer be matched. -/
  | poisoned (why : Desync)
  /-- The kernel is gone, or is told to go. -/
  | exited
  deriving Repr, DecidableEq

/-- The error of a call that finds the conversation in a phase that admits no calls. -/
def Phase.refusal : Phase → Option LinkError
  | .ready | .replyOutstanding => none
  | .poisoned why => some (.poisoned why.reason)
  | .exited => some .closed

/-! ## Tasks -/

/-- What a call gives: the payload of the reply. -/
abbrev Result := Except LinkError Json

/-- How far a call has got. -/
inductive Stage where
  /-- It waits for its turn. -/
  | queued
  /-- It waits for the late reply to an earlier call. -/
  | discarding (deadline : Nat)
  /-- It writes its line, of which these bytes are still to go. -/
  | writing (rest : List UInt8)
  /-- It waits for its reply. Once there is error output, only until the end of the grace. -/
  | awaiting (deadline : Nat) (graceEnd : Option Nat)
  /-- The kernel is gone, and the call waits for its last words. -/
  | leaving (endsAt : Nat)
  /-- It has a result. -/
  | finished (result : Result)

/-- How far a closing has got. -/
inductive CloseStage where
  /-- The link is marked as closed. -/
  | marked
  /-- The tasks that wait have been told, and the closing waits for its turn. -/
  | queued
  /-- The conversation is over, and the process is to be taken. -/
  | taking
  /-- The process is being shut down. -/
  | stopping (rest : Routine (Except LinkError Unit))
  /-- It has a result. -/
  | finished (result : Except LinkError Unit)

/-- A call with its line, or a closing. -/
inductive Task where
  /-- A call. -/
  | call (line : List UInt8) (stage : Stage)
  /-- A closing. -/
  | close (stage : CloseStage)

/-- The state of a link. Tasks are known by numbers that whoever begins them chooses. -/
structure World where
  /-- The time limits. -/
  timing : Timing
  /-- The clock, the pipes and the captured error output. -/
  wires : Wires
  /-- Has a closing begun? -/
  closed : Bool
  /-- Have the tasks that wait been told of it? -/
  cancelled : Bool
  /-- The phase of the conversation. -/
  phase : Phase
  /-- The task whose turn it is. -/
  holder : Option Nat
  /-- The tasks that wait for their turn, in order. -/
  queue : List Nat
  /-- Is the process still here, not taken by a closing? -/
  hasProcess : Bool
  /-- All tasks. -/
  tasks : List (Nat × Task)

namespace World

/-- The link after the greeting, over wires that still hold what the kernel wrote behind it. -/
def new (timing : Timing) (wires : Wires) : World :=
  ⟨timing, wires, false, false, .ready, none, [], true, []⟩

/-! ## Small changes -/

/-- The task with a number. -/
def task? (w : World) (id : Nat) : Option Task := w.tasks.lookup id

/-- Puts a task in the place of the one with its number. -/
def setTask (w : World) (id : Nat) (t : Task) : World :=
  { w with tasks := w.tasks.map fun entry => if entry.1 = id then (id, t) else entry }

/-- Adds a task. -/
def addTask (w : World) (id : Nat) (t : Task) : World := { w with tasks := w.tasks ++ [(id, t)] }

/-- Ends the turn of a task. -/
def release (w : World) (id : Nat) : World :=
  { w with
    holder := if w.holder = some id then none else w.holder
    queue := w.queue.filter (· ≠ id) }

/-- Is it this task's turn to take the conversation? -/
def isNext (w : World) (id : Nat) : Bool := w.holder.isNone && w.queue.head? == some id

/-- The task takes its turn. -/
def acquire (w : World) (id : Nat) : World :=
  { w with holder := some id, queue := w.queue.filter (· ≠ id) }

/-- A call goes on to another stage. -/
def goOn (w : World) (id : Nat) (line : List UInt8) (stage : Stage) : World :=
  w.setTask id (.call line stage)

/-- A call is finished and ends its turn. -/
def finish (w : World) (id : Nat) (line : List UInt8) (result : Result) : World :=
  (w.goOn id line (.finished result)).release id

/-- The conversation can no longer be trusted. -/
def poison (w : World) (why : Desync) : World := { w with phase := .poisoned why }

/-- The conversation is over, and the kernel's input ends. -/
def exit (w : World) : World :=
  { w with phase := .exited, wires := { w.wires with input := w.wires.input.closeWriting } }

/-- With what reading a line left of the kernel's output. -/
def withOutput (w : World) (p : Pipe) : World := { w with wires := { w.wires with output := p } }

/-! ## Calls -/

/-- The kernel is gone. The call waits for the grace and then reports what it said on its error
output. -/
def kernelGone (w : World) (id : Nat) (line : List UInt8) : World :=
  w.exit.goOn id line (.leaving (w.wires.now + w.timing.stderrGrace))

/-- The call begins to write; older error output has nothing to do with it. -/
def beginWriting (w : World) (id : Nat) (line : List UInt8) : World :=
  { w with wires := w.wires.clearErrors }.goOn id line (.writing line)

/-- The call has its turn and looks at the phase. -/
def enter (w : World) (id : Nat) (line : List UInt8) : World :=
  let w := w.acquire id
  match w.phase with
  | .ready => w.beginWriting id line
  | .replyOutstanding => w.goOn id line (.discarding (w.wires.now + w.timing.responseTimeout))
  | .poisoned why => w.finish id line (.error (.poisoned why.reason))
  | .exited => w.finish id line (.error .closed)

/-- The call is cut short because the link is closed. -/
def cancel (w : World) (id : Nat) (line : List UInt8) : World :=
  (w.poison .cancelled).finish id line (.error .cancelled)

/-- The kernel's output cannot be read. -/
def streamFailed (w : World) (id : Nat) (line : List UInt8) (fault : Text.Utf8.Fault) : World :=
  (w.poison (.unreadable fault)).finish id line (.error (.stream (.unreadable fault)))

/-- The result of a call whose reply is the line `text`, and the phase it leaves. -/
def accept (w : World) (id : Nat) (line : List UInt8) (text : String) : World :=
  match Envelope.decodeLine text with
  | .ok envelope => w.finish id line envelope.payload
  | .error _ =>
    let why := Desync.unparseable text
    (w.poison why).finish id line (.error (.poisoned why.reason))

/-- One poll of a call that waits for a late reply. -/
def pollDiscarding (w : World) (id : Nat) (line : List UInt8) (deadline : Nat) : Option World :=
  if w.cancelled then some (w.cancel id line)
  else
    match w.wires.output.nextLine? with
    | some (.line text, output) =>
      let w := w.withOutput output
      if Text.isBlankText text then some w
      else some ({ w with phase := .ready }.beginWriting id line)
    | some (.unreadable fault, output) => some ((w.withOutput output).streamFailed id line fault)
    | some (.ended, _) => some (w.kernelGone id line)
    | none =>
      match w.wires.output.fill? with
      | some output => some (w.withOutput output)
      | none =>
        if deadline ≤ w.wires.now then
          let why := Desync.lateReplyMissing
          some ((w.poison why).finish id line (.error (.poisoned why.reason)))
        else none

/-- One poll of a call that writes. -/
def pollWriting (w : World) (id : Nat) (line rest : List UInt8) : Option World :=
  let input := w.wires.input
  if rest.isEmpty then
    some (w.goOn id line (.awaiting (w.wires.now + w.timing.responseTimeout) none))
  else if ¬ (input.writing && input.reading) then some (w.kernelGone id line)
  else if input.room = 0 then none
  else
    let w := { w with wires := { w.wires with input := input.put (rest.take input.room) } }
    some (w.goOn id line (.writing (rest.drop input.room)))

/-- One poll of a call that waits for its reply, after its output and its error output have had
nothing new: the end of the grace, then the deadline. -/
def pollTimers (w : World) (id : Nat) (line : List UInt8) (deadline : Nat) (graceEnd : Option Nat) :
    Option World :=
  let overdue : Option World :=
    if deadline ≤ w.wires.now then
      some ((w.poison (.noResponse w.timing.responseTimeout)).finish id line (.error .noResponse))
    else none
  match graceEnd with
  | none => overdue
  | some graceAt =>
    if graceAt ≤ w.wires.now then
      let (text, wires) := w.wires.takeErrors
      let w := { w with wires := wires }
      if text.isEmpty then some (w.goOn id line (.awaiting deadline none))
      else some ({ w with phase := .replyOutstanding }.finish id line (.error (.kernelStderr text)))
    else overdue

/-- One poll of a call that waits for its reply, after its output has had nothing new: error output,
unless the grace has begun, then the timers. -/
def pollQuiet (w : World) (id : Nat) (line : List UInt8) (deadline : Nat) (graceEnd : Option Nat) :
    Option World :=
  if graceEnd.isNone && w.wires.buffer.permit then
    let w := { w with wires := { w.wires with buffer := w.wires.buffer.poll.2 } }
    if w.wires.buffer.isEmpty then some w
    else some (w.goOn id line (.awaiting deadline (some (w.wires.now + w.timing.stderrGrace))))
  else w.pollTimers id line deadline graceEnd

/-- One poll of a call that waits for its reply. What is looked at first wins: closing, the kernel's
output, its error output, the end of the grace, the deadline. -/
def pollAwaiting (w : World) (id : Nat) (line : List UInt8) (deadline : Nat)
    (graceEnd : Option Nat) : Option World :=
  if w.cancelled then some (w.cancel id line)
  else
    match w.wires.output.nextLine? with
    | some (.line text, output) =>
      let w := w.withOutput output
      if Text.isBlankText text then some w else some (w.accept id line text)
    | some (.unreadable fault, output) => some ((w.withOutput output).streamFailed id line fault)
    | some (.ended, _) => some (w.kernelGone id line)
    | none =>
      match w.wires.output.fill? with
      | some output => some (w.withOutput output)
      | none => w.pollQuiet id line deadline graceEnd

/-- One poll of a call that waits for the last words of a kernel that is gone. -/
def pollLeaving (w : World) (id : Nat) (line : List UInt8) (endsAt : Nat) : Option World :=
  if endsAt ≤ w.wires.now then
    let (text, wires) := w.wires.takeErrors
    let w := { w with wires := wires }
    some (w.finish id line (.error (if text.isEmpty then .noResponse else .kernelStderr text)))
  else none

/-- One poll of a call; `none` if it has to wait on. -/
def pollCall (w : World) (id : Nat) (line : List UInt8) : Stage → Option World
  | .queued => if w.isNext id then some (w.enter id line) else none
  | .discarding deadline => w.pollDiscarding id line deadline
  | .writing rest => w.pollWriting id line rest
  | .awaiting deadline graceEnd => w.pollAwaiting id line deadline graceEnd
  | .leaving endsAt => w.pollLeaving id line endsAt
  | .finished _ => none

/-! ## Closing -/

/-- One poll of a closing; `none` if it has to wait on. -/
def pollClose (w : World) (id : Nat) : CloseStage → Option World
  | .marked =>
    some ({ w with cancelled := true, queue := w.queue ++ [id] }.setTask id (.close .queued))
  | .queued => if w.isNext id then some ((w.exit.setTask id (.close .taking)).release id) else none
  | .taking =>
    if w.hasProcess then
      let plan := Control.shutDown w.timing.shutdownGrace
      some ({ w with hasProcess := false }.setTask id (.close (.stopping plan)))
    else some (w.setTask id (.close (.finished (.ok ()))))
  | .stopping (.done result) => some (w.setTask id (.close (.finished result)))
  | .stopping (.ask _ _) | .finished _ => none

/-- One poll of a task; `none` if it has to wait on. -/
def poll (w : World) (id : Nat) : Option World :=
  match w.task? id with
  | some (.call line stage) => w.pollCall id line stage
  | some (.close stage) => w.pollClose id stage
  | none => none

/-! ## Beginnings and ends -/

/-- A call begins. -/
def beginCall (w : World) (id : Nat) (line : List UInt8) : World :=
  if w.closed then w.addTask id (.call line (.finished (.error .closed)))
  else { w with queue := w.queue ++ [id] }.addTask id (.call line .queued)

/-- A closing begins. Only the first has anything to do. -/
def beginClose (w : World) (id : Nat) : World :=
  if w.closed then w.addTask id (.close (.finished (.ok ())))
  else { w with closed := true }.addTask id (.close .marked)

/-- A call that waits for its turn gives up because the link is closed. -/
def giveUp (w : World) (id : Nat) : Option World :=
  match w.task? id with
  | some (.call line .queued) =>
    if w.cancelled then some (w.finish id line (.error .closed)) else none
  | _ => none

/-- The caller of a task goes away and the task with it. Whatever it did to the conversation
stays. -/
def abandon (w : World) (id : Nat) : World :=
  { w.release id with tasks := w.tasks.filter (·.1 ≠ id) }

/-- The manager of the process answers what a closing asked. -/
def answer (w : World) (id : Nat) (e : Plan.Exchange Control.Command.Answer) : Option World :=
  match w.task? id with
  | some (.close (.stopping (.ask c next))) =>
    if h : e.command = c then some (w.setTask id (.close (.stopping (next (h ▸ e.answer)))))
    else none
  | _ => none

/-- The result of a call that is finished. -/
def callResult? (w : World) (id : Nat) : Option Result :=
  match w.task? id with
  | some (.call _ (.finished result)) => some result
  | _ => none

/-- The result of a closing that is finished. -/
def closeResult? (w : World) (id : Nat) : Option (Except LinkError Unit) :=
  match w.task? id with
  | some (.close (.finished result)) => some result
  | _ => none

end World

/-! ## Runs -/

/-- What can happen. -/
inductive Event where
  /-- Time passes. -/
  | pass (ms : Nat)
  /-- The kernel writes to its output. -/
  | kernelWrites (bytes : List UInt8)
  /-- The kernel writes to its error output. -/
  | kernelReports (bytes : List UInt8)
  /-- The kernel takes bytes from its input. -/
  | kernelTakes (count : Nat)
  /-- The kernel closes its input. -/
  | kernelClosesInput
  /-- The kernel closes its output. -/
  | kernelClosesOutput
  /-- The kernel closes its error output. -/
  | kernelClosesErrors
  /-- The background reader does one thing. -/
  | capture
  /-- A call begins. -/
  | call (id : Nat) (line : List UInt8)
  /-- A closing begins. -/
  | close (id : Nat)
  /-- A task is polled. -/
  | poll (id : Nat)
  /-- A call that waits for its turn notices that the link is closed. -/
  | giveUp (id : Nat)
  /-- The caller of a task goes away. -/
  | abandon (id : Nat)
  /-- The manager of the process answers. -/
  | answer (id : Nat) (exchange : Plan.Exchange Control.Command.Answer)

namespace World

/-- With other wires. -/
def onWires (w : World) (f : Wires → Wires) : World := { w with wires := f w.wires }

/-- What an event does. An event that is not possible changes nothing. -/
def apply (w : World) : Event → World
  | .pass ms => w.onWires fun v => { v with now := v.now + ms }
  | .kernelWrites bytes =>
    w.onWires fun v => if v.output.writing then { v with output := v.output.put bytes } else v
  | .kernelReports bytes =>
    w.onWires fun v => if v.errors.writing then { v with errors := v.errors.put bytes } else v
  | .kernelTakes count =>
    w.onWires fun v => { v with input := { v.input with bytes := v.input.bytes.drop count } }
  | .kernelClosesInput => w.onWires fun v => { v with input := v.input.closeReading }
  | .kernelClosesOutput => w.onWires fun v => { v with output := v.output.closeWriting }
  | .kernelClosesErrors => w.onWires fun v => { v with errors := v.errors.closeWriting }
  | .capture => w.onWires fun v => v.captureStep.getD v
  | .call id line => if (w.task? id).isSome then w else w.beginCall id line
  | .close id => if (w.task? id).isSome then w else w.beginClose id
  | .poll id => (w.poll id).getD w
  | .giveUp id => (w.giveUp id).getD w
  | .abandon id => w.abandon id
  | .answer id exchange => (w.answer id exchange).getD w

/-- A run. -/
def run (w : World) (events : List Event) : World := events.foldl apply w

end World
end KernelLink.Session
