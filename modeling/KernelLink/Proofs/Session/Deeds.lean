import KernelLink.Proofs.Host.TextLines
import KernelLink.Session.Link
/-!
# What an onlooker sees of a run

A run leaves a log: the bytes that went over the pipes, whose turn came, who began to write, and who
took which line. The log is read off the states before and after each event, so it says what
happened and not which rule the link followed. What a property says about a whole run, "the first
line that was taken" or "what was captured since then", it says about the log.

Main definitions:
* `Deed`, `World.deeds`: what one event lets an onlooker see.
* `Log`, `World.log`: all of a run.
* `Log.spoken`, `Log.heard`, `Log.written`, `Log.captured`, `Log.begun`, `Log.taken`: parts of it.

Main results:
* `World.run_append`, `World.log_append`: a run may be cut anywhere.
-/
namespace KernelLink.Session

open Host (Pipe Delivery)
open Stderr (Buffer)

/-! ## Deeds -/

/-- What an onlooker can see. -/
inductive Deed where
  /-- The kernel wrote to its output. -/
  | spoke (bytes : List UInt8)
  /-- The kernel took bytes from its input. -/
  | heard (bytes : List UInt8)
  /-- The background reader took error output over. -/
  | captured (bytes : List UInt8)
  /-- A call got its turn. -/
  | entered (id : Nat)
  /-- A call took a line that is not blank. -/
  | took (id : Nat) (line : Delivery)
  /-- A call began to write. -/
  | began (id : Nat)
  /-- A call put bytes into the kernel's input. -/
  | wrote (id : Nat) (bytes : List UInt8)
  /-- A call has written its line and began to wait for its reply. -/
  | waited (id : Nat)
  deriving Repr, DecidableEq

/-- Is this the deed of a call? -/
def Deed.ofCall : Deed → Bool
  | .spoke _ | .heard _ | .captured _ => false
  | .entered _ | .took _ _ | .began _ | .wrote _ _ | .waited _ => true

/-- Does a call in this stage read the kernel's output? -/
def Stage.waits : Stage → Bool
  | .discarding _ | .awaiting _ _ => true
  | .queued | .writing _ | .leaving _ | .finished _ => false

/-- What shows when a call gets from one stage to another. -/
def Stage.deeds (id : Nat) : (before after : Stage) → List Deed
  | .queued, .writing _ => [.entered id, .began id]
  | .queued, _ => [.entered id]
  | .discarding _, .writing _ => [.began id]
  | .writing _, .awaiting _ _ => [.waited id]
  | _, _ => []

namespace World

/-- The line that a call in some stage takes when it is polled. -/
def takenBy (w : World) (id : Nat) (stage : Stage) : List Deed :=
  match w.wires.output.nextLine? with
  | some (line, _) =>
    if stage.waits && !w.cancelled && !line.isBlank then [.took id line] else []
  | none => []

/-- The bytes that have come into the kernel's input from one state to another. -/
def writtenBy (w w' : World) (id : Nat) : List Deed :=
  match w'.wires.input.bytes.drop w.wires.input.bytes.length with
  | [] => []
  | bytes => [.wrote id bytes]

/-- What the poll of a call shows. -/
def pollDeeds (w w' : World) (id : Nat) : List Deed :=
  match w.task? id, w'.task? id with
  | some (.call _ before), some (.call _ after) =>
    w.takenBy id before ++ before.deeds id after ++ w.writtenBy w' id
  | _, _ => []

/-- What an event shows. -/
def deeds (w : World) : Event → List Deed
  | .kernelWrites bytes => if w.wires.output.writing then [.spoke bytes] else []
  | .kernelTakes count => [.heard (w.wires.input.bytes.take count)]
  | .capture =>
    if w.wires.capture = .reading ∧ w.wires.errors.bytes ≠ [] then
      [.captured (w.wires.errors.bytes.take Buffer.readSize)]
    else []
  | .poll id => ((w.poll id).map fun w' => w.pollDeeds w' id).getD []
  | _ => []

end World

/-! ## Logs -/

/-- What a run showed, in order. -/
abbrev Log := List Deed

namespace World

/-- What a run shows. -/
def log (w : World) : List Event → Log
  | [] => []
  | e :: events => w.deeds e ++ (w.apply e).log events

/-- A run in two parts: the later events start from the world that the earlier ones have led to. -/
theorem run_append (w : World) (past events : List Event) :
    w.run (past ++ events) = (w.run past).run events := List.foldl_append

/-- One more event is applied to the world after the others; most inductions over runs take this
step. -/
theorem run_concat (w : World) (past : List Event) (e : Event) :
    w.run (past ++ [e]) = (w.run past).apply e := w.run_append past [e]

/-- The log of a run in two parts is one log behind the other. Induction on the earlier events. -/
theorem log_append (w : World) (past events : List Event) :
    w.log (past ++ events) = w.log past ++ (w.run past).log events := by
  induction past generalizing w with
  | nil => rfl
  | cons e past ih =>
    rw [List.cons_append, log, log, ih, List.append_assoc]
    rfl

theorem log_concat (w : World) (past : List Event) (e : Event) :
    w.log (past ++ [e]) = w.log past ++ (w.run past).deeds e := by
  rw [log_append]
  congr 1
  exact List.append_nil _

end World

namespace Log

/-- All that the kernel wrote to its output. -/
def spoken (log : Log) : List UInt8 := log.flatMap fun | .spoke bytes => bytes | _ => []

/-- All that the kernel took from its input. -/
def heard (log : Log) : List UInt8 := log.flatMap fun | .heard bytes => bytes | _ => []

/-- All error output that was captured. -/
def captured (log : Log) : List UInt8 := log.flatMap fun | .captured bytes => bytes | _ => []

/-- All that was put into the kernel's input. -/
def written (log : Log) : List UInt8 := log.flatMap fun | .wrote _ bytes => bytes | _ => []

/-- The calls that began to write, in order. -/
def begun (log : Log) : List Nat := log.filterMap fun | .began id => some id | _ => none

/-- The lines that were taken, in order, and who took them. -/
def taken (log : Log) : List (Nat × Delivery) :=
  log.filterMap fun | .took id line => some (id, line) | _ => none

@[simp] theorem spoken_append (log more : Log) : spoken (log ++ more) = spoken log ++ spoken more :=
  List.flatMap_append

@[simp] theorem heard_append (log more : Log) : heard (log ++ more) = heard log ++ heard more :=
  List.flatMap_append

@[simp] theorem captured_append (log more : Log) :
    captured (log ++ more) = captured log ++ captured more := List.flatMap_append

@[simp] theorem written_append (log more : Log) :
    written (log ++ more) = written log ++ written more := List.flatMap_append

@[simp] theorem begun_append (log more : Log) : begun (log ++ more) = begun log ++ begun more :=
  List.filterMap_append

@[simp] theorem taken_append (log more : Log) : taken (log ++ more) = taken log ++ taken more :=
  List.filterMap_append

theorem begun_of_calm {log : Log} (h : ∀ d ∈ log, d.ofCall = false) : begun log = [] := by
  refine List.filterMap_eq_nil_iff.mpr fun d hd => ?_
  have hc := h d hd
  cases d with
  | began id => exact absurd hc.symm Bool.false_ne_true
  | _ => rfl

theorem taken_of_calm {log : Log} (h : ∀ d ∈ log, d.ofCall = false) : taken log = [] := by
  refine List.filterMap_eq_nil_iff.mpr fun d hd => ?_
  have hc := h d hd
  cases d with
  | took id line => exact absurd hc.symm Bool.false_ne_true
  | _ => rfl

theorem written_of_calm {log : Log} (h : ∀ d ∈ log, d.ofCall = false) : written log = [] := by
  refine List.flatMap_eq_nil_iff.mpr fun d hd => ?_
  have hc := h d hd
  cases d with
  | wrote id bytes => exact absurd hc.symm Bool.false_ne_true
  | _ => rfl

end Log
end KernelLink.Session
