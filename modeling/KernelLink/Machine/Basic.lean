import KernelLink.Control.Routine
import KernelLink.Host.Standard
import KernelLink.Host.Pipe
import KernelLink.Machine.Script.Syntax
import KernelLink.Machine.Signal
import KernelLink.Mock.Store
/-!
# A machine with processes

As much of an operating system as launching and ending kernels touches: processes with parents,
groups, streams and signals, the pipes between them, and a few programs. The three pipes of the
first process go to whoever created it and are not part of the machine.

Main definitions:
* `Tool`: the programs.
* `Stream`, `Streams`: what a process reads and writes.
* `Frame`, `Shell`: a shell in the middle of a script.
* `Proc`, `World`: a process and all of them.
-/
namespace KernelLink.Machine

open Control (Pid Status)
open Host (Files Pipe)
open Script (Command)

/-! ## Programs -/

/-- A program. -/
inductive Tool where
  /-- Runs scripts. -/
  | shell
  /-- Copies files or its input to its output. -/
  | cat
  /-- Does nothing for a while. -/
  | sleep
  /-- Succeeds. -/
  | succeed
  /-- Fails. -/
  | fail
  /-- Writes its arguments in a pattern. -/
  | format
  /-- Writes its arguments. -/
  | echo
  /-- Writes its directory. -/
  | directory
  /-- The stand-in kernel. -/
  | kernel
  deriving Repr, DecidableEq

/-- The programs that every machine has, by name. -/
def Tool.standard : List (String × Tool) :=
  [("sh", .shell), ("dash", .shell), ("bash", .shell), ("cat", .cat), ("sleep", .sleep),
    ("true", .succeed), ("false", .fail), ("printf", .format), ("echo", .echo), ("pwd", .directory)]

/-! ## Streams -/

/-- What a process reads from or writes to. -/
inductive Stream where
  /-- Nothing can be read, and what is written is lost. -/
  | nothing
  /-- It is closed. -/
  | closed
  /-- The pipe from whoever created the first process. -/
  | input
  /-- The pipe for the output of the first process. -/
  | output
  /-- The pipe for its error output. -/
  | errors
  /-- A pipe inside the machine. -/
  | pipe (number : Nat)
  /-- A file that is written to. -/
  | file (path : List UInt8)
  deriving Repr, DecidableEq

/-- The streams of a process. -/
structure Streams where
  /-- What it reads. -/
  input : Stream
  /-- What it writes. -/
  output : Stream
  /-- Where it complains. -/
  errors : Stream
  /-- The others, by number. -/
  others : List (Nat × Stream)
  deriving Repr, DecidableEq

namespace Streams

/-- A stream by its number. -/
def get (s : Streams) : Nat → Stream
  | 0 => s.input
  | 1 => s.output
  | 2 => s.errors
  | n => (s.others.lookup n).getD .closed

/-- With another stream in a place. -/
def set (s : Streams) (n : Nat) (stream : Stream) : Streams :=
  match n with
  | 0 => { s with input := stream }
  | 1 => { s with output := stream }
  | 2 => { s with errors := stream }
  | n => { s with others := (n, stream) :: s.others.filter (·.1 != n) }

/-- All streams. -/
def toList (s : Streams) : List Stream := s.input :: s.output :: s.errors :: s.others.map (·.2)

/-- Is a stream among them? -/
def has (s : Streams) (stream : Stream) : Bool := s.toList.contains stream

end Streams

/-! ## Shells -/

/-- What a variable was before it was changed for a while. -/
structure Former where
  /-- Its name. -/
  name : String
  /-- Its value, if it had one. -/
  value : Option String
  /-- Did programs get to see it? -/
  isExported : Bool

/-- What a shell has yet to do. -/
inductive Frame where
  /-- Run a command. -/
  | run (command : Command)
  /-- Run a command that has been shown already. -/
  | shown (command : Command)
  /-- Run a command if the last one succeeded. -/
  | ifSucceeded (command : Command)
  /-- Run a command if the last one failed. -/
  | ifFailed (command : Command)
  /-- Turn success and failure around. -/
  | negate
  /-- Decide whether a loop goes on; its status would be `status`. -/
  | loopTest (untilSuccess : Bool) (condition body : Command) (status : Nat)
  /-- The body of a loop is over. -/
  | loopAgain (untilSuccess : Bool) (condition body : Command)
  /-- Decide which branch to take. -/
  | branch (yes no : Command)
  /-- Run the body for the values that are left. -/
  | each (name : String) (values : List String) (body : Command)
  /-- Wait for a process in the foreground. -/
  | child (pid : Pid)
  /-- Wait for the processes of a pipeline; the last one counts. -/
  | pipeline (pids : List Pid)
  /-- Wait for a process in the background, or for all. -/
  | job (pid : Option Pid)
  /-- Take the output of a process for a command. -/
  | collect (number : Nat) (pid : Pid) (taken : List UInt8) (command : Command)
  /-- Read a line into variables. -/
  | read (asIs : Bool) (names : List String) (taken : List UInt8)
  /-- Put streams back. -/
  | restore (streams : Streams)
  /-- Make variables what they were. -/
  | rebind (former : List Former)
  /-- Leave a function or a script that was read in: parameters and variables are what they were. -/
  | leave (parameters : List String) (former : List Former)
  /-- What a command of the shell itself had to be run is over; complaints name the command. -/
  | calling (name : String)
  /-- Exit if the last command failed and nothing asks whether it did. -/
  | checked
  /-- The status is what it was. -/
  | status (code : Nat)
  /-- Exit. -/
  | quit (code : Nat)
  /-- Read the next command, which begins on a line, from the input. -/
  | interact (line : Nat) (taken : List UInt8)
  /-- A mistake in the script. -/
  | mistake (mistake : Script.Mistake)

/-- How a shell has been told to go about its scripts. -/
structure Manner where
  /-- Does a failure that nothing asks about end it? -/
  strict : Bool
  /-- Is it a fault to use a variable that is not set? -/
  needsSet : Bool
  /-- Does it show commands before it runs them? -/
  traced : Bool

/-- A shell in the middle of a script. -/
structure Shell where
  /-- The name that it goes by. -/
  name : String
  /-- Its parameters. -/
  parameters : List String
  /-- Its variables. -/
  bindings : List (String × String)
  /-- The variables that programs get to see. -/
  exported : List String
  /-- The variables that may not be changed. -/
  fixed : List String
  /-- The commands that names stand for. -/
  functions : List (String × Command)
  /-- How it goes about its scripts. -/
  manner : Manner
  /-- The line of the script that it is at. -/
  line : Nat
  /-- How the last command ended. -/
  last : Nat
  /-- How the last command ended whose output was put into another one. -/
  lastOutput : Nat
  /-- The processes in the background, by when they were started. -/
  jobs : List Pid
  /-- Its children that have ended and that it has asked for, with how they ended. -/
  ended : List (Pid × Status)
  /-- The number that it gives out as its own. -/
  number : Pid
  /-- What is to be done on signals; 0 stands for the end. -/
  traps : List (Nat × String)
  /-- The signals that came and are still to be dealt with. -/
  caught : List Signal
  /-- What is still to be done. -/
  frames : List Frame
  /-- May the last command take its place? -/
  replaceable : Bool

/-! ## Processes -/

/-- Something that a process is about to do. -/
inductive Effect where
  /-- Write to the output or to the error output. -/
  | write (toErrors : Bool) (bytes : List UInt8)
  /-- Copy the input to the output. -/
  | copy
  /-- Do nothing for a while. -/
  | sleep (ms : Nat)
  /-- Exit. -/
  | exit (code : Nat)

/-- What a process does when it has nothing else to do. -/
inductive Work where
  /-- Nothing. -/
  | nothing
  /-- Serves as a kernel. -/
  | kernel (artifact : List UInt8) (store : Mock.Store)
  /-- Runs a script. -/
  | shell (shell : Shell)

/-- A process. -/
structure Proc where
  /-- Its number. -/
  pid : Pid
  /-- The number of its parent. -/
  parent : Pid
  /-- The number of its group. -/
  group : Pid
  /-- The signals that do nothing to it. -/
  ignored : List Signal
  /-- Its streams. -/
  streams : Streams
  /-- Its directory. -/
  directory : List UInt8
  /-- Its environment. -/
  environment : List (String × String)
  /-- What it is about to do. -/
  effects : List Effect
  /-- When it goes on. -/
  wakeAt : Option Nat
  /-- What it does otherwise. -/
  work : Work
  /-- How it ended, until its parent asks. -/
  status : Option Status

/-- What stands in for the program that ends processes on one of the platforms. -/
structure Killer where
  /-- Its exit code. -/
  code : Nat
  /-- Does it signal the process? -/
  kills : Bool

/-- The process that was created last for a link, as its creator sees it. -/
structure Handle where
  /-- Its number. -/
  pid : Pid
  /-- How it ended, once its creator has asked. -/
  reaped : Option Status
  /-- Have its pipes been taken? -/
  taken : Bool
  /-- Is its input still in the hands of the creator? -/
  inputKept : Bool

/-- A machine. -/
structure World where
  /-- The file system. -/
  files : Files
  /-- Programs that are installed under a path of their own. -/
  installed : List (List UInt8 × Tool)
  /-- All processes, also those that have ended and have not been asked for. -/
  procs : List Proc
  /-- The pipes inside the machine. -/
  pipes : List (Nat × Pipe)
  /-- The number of the next process. -/
  nextPid : Pid
  /-- The number of the next pipe. -/
  nextPipe : Nat
  /-- The process created for a link. -/
  handle : Option Handle
  /-- What stands in for the program that ends processes. -/
  killer : Option Killer
  /-- The arguments that it was given, the last ones first. -/
  killings : List (List String)

namespace World

/-- The process that all orphans are handed to. -/
def firstPid : Pid := 1

/-- Whoever creates processes for links. -/
def creatorPid : Pid := 2

/-- A machine without processes. -/
def new (files : Files) (installed : List (List UInt8 × Tool)) : World :=
  let files := installed.foldl (fun files entry => files.install entry.1 Files.programBytes) files
  ⟨files, installed, [], [], 1001, 0, none, none, []⟩

/-- The process with a number. -/
def find? (m : World) (pid : Pid) : Option Proc := m.procs.find? (·.pid == pid)

/-- Changes the process with a number. -/
def update (m : World) (pid : Pid) (f : Proc → Proc) : World :=
  { m with procs := m.procs.map fun p => if p.pid == pid then f p else p }

/-- Removes the process with a number. -/
def remove (m : World) (pid : Pid) : World :=
  { m with procs := m.procs.filter fun p => !(p.pid == pid) }

/-- All processes with their parents. -/
def table (m : World) : List (Pid × Option Pid) := m.procs.map fun p => (p.pid, some p.parent)

/-- A pipe inside the machine. -/
def pipe? (m : World) (n : Nat) : Option Pipe := m.pipes.lookup n

/-- Changes a pipe inside the machine. -/
def setPipe (m : World) (n : Nat) (pipe : Pipe) : World :=
  { m with pipes := m.pipes.map fun entry => if entry.1 == n then (n, pipe) else entry }

/-- A new pipe, perhaps with something in it. -/
def addPipe (m : World) (pipe : Pipe) : Nat × World :=
  (m.nextPipe, { m with pipes := (m.nextPipe, pipe) :: m.pipes, nextPipe := m.nextPipe + 1 })

/-- Changes the shell that a process is. -/
def updateShell (m : World) (pid : Pid) (f : Shell → Shell) : World :=
  m.update pid fun p =>
    match p.work with
    | .shell s => { p with work := .shell (f s) }
    | _ => p

end World

/-! ## Who holds a stream -/

/-- The streams that a shell keeps to put them back. -/
def Shell.kept (s : Shell) : List Streams :=
  s.frames.filterMap fun
    | .restore streams => some streams
    | _ => none

/-- Does a process hold a stream? -/
def Proc.holds (p : Proc) (stream : Stream) : Bool :=
  p.status.isNone &&
    (p.streams.has stream ||
      match p.work with
      | .shell s => s.kept.any (·.has stream)
      | _ => false)

/-- Does a process hold the writing end of a pipe? -/
def Proc.writesTo (p : Proc) (n : Nat) : Bool :=
  let writes (s : Streams) : Bool := s.output == .pipe n || s.errors == .pipe n ||
    s.others.any (·.2 == .pipe n)
  p.status.isNone &&
    (writes p.streams ||
      match p.work with
      | .shell s => s.kept.any writes
      | _ => false)

/-- Does a process hold the reading end of a pipe? -/
def Proc.readsFrom (p : Proc) (n : Nat) : Bool :=
  let reads (s : Streams) : Bool := s.input == .pipe n
  p.status.isNone &&
    (reads p.streams ||
      match p.work with
      | .shell s =>
        s.kept.any reads || s.frames.any fun
          | .collect m .. => m == n
          | _ => false
      | _ => false)

end KernelLink.Machine
