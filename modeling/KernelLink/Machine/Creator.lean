import KernelLink.Machine.Step
import KernelLink.Platform.Call
import KernelLink.Session.Engine
/-!
# Creating processes and asking for them

The machine seen from outside: processes are created for a link, calls of the platforms are
answered, and plans are carried out in the machine's time. A machine with a platform is a `Backend`,
the other side of a link.

Main definitions:
* `World.spawn`: a process is created.
* `agent`, `clockwork`: calls are answered, in time.
* `Site`, `Site.backend`: a machine with a platform.
-/
namespace KernelLink.Machine

open Control (Pid)
open Host (Files)
open Plan (patience)
open Platform (Call Delivered)
open Session (Wires Backend)

namespace World

/-! ## Creation -/

/-- Does any of some texts hold a NUL byte? -/
def hasNul (texts : List String) : Bool := texts.any fun s => s.toList.contains '\x00'

/-- Arguments and variables longer than this are refused. -/
def longestText : Nat := 131071

/-- Is an argument or a variable too long? -/
def tooLong (program : String) (args : List String) (env : List (String × String)) : Bool :=
  (program :: args ++ env.map fun v => v.1 ++ "=" ++ v.2).any fun s =>
    longestText < (bytesOf s).length

/-- Why a process cannot be created, if it cannot; otherwise its directory and its program. -/
def examine (m : World) (program : String) (args : List String) (directory : Option String)
    (env : List (String × String)) : Except StreamFault (List UInt8 × Tool) :=
  if hasNul (program :: args ++ directory.toList ++ env.flatMap fun v => [v.1, v.2]) then
    .error StreamFault.nulByte
  else
    let path := match directory with | some path => bytesOf path | none => Files.working
    match m.files.locate Files.working path with
    | .error fault => .error fault
    | .ok (_, .file ..) => .error (.os 20)
    | .ok (place, .directory) =>
      let path := Host.Path.text place
      let places := searched ((env.lookup searchVariable).getD standardSearch)
      match m.resolve path places program with
      | .error fault => .error fault
      | .ok tool => if tooLong program args env then .error (.os 7) else .ok (path, tool)

/-- Creates a process that leads a group and has a pipe for each stream. -/
def spawn (m : World) (program : String) (args : List String) (directory : Option String)
    (env : List (String × String)) : Except Chain Unit × World :=
  match m.examine program args directory env with
  | .error fault =>
    (.error (Chain.single ("Failed to spawn " ++ program ++ ": " ++ fault.message)), m)
  | .ok (path, tool) =>
    let streams : Streams := ⟨.input, .output, .errors, []⟩
    let (pid, m) := m.create creatorPid none [] streams path env fun pid =>
      m.load pid tool program args path env
    (.ok (), { m with handle := some ⟨pid, none, false, true⟩ })

/-! ## The handle -/

/-- Changes the handle. -/
def onHandle (m : World) (f : Handle → Handle) : World := { m with handle := m.handle.map f }

/-- The number of the process that was created, unless it has been reaped. -/
def handlePid? (m : World) : Option Pid :=
  match m.handle with
  | some h => if h.reaped.isNone then some h.pid else none
  | none => none

/-- How the process that was created ended, if it has. It is reaped if it has not been. -/
def reapHandle (m : World) : Option Control.Status × World :=
  match m.handle with
  | none => (none, m)
  | some h =>
    match h.reaped with
    | some status => (some status, m)
    | none =>
      match (m.find? h.pid).bind (·.status) with
      | none => (none, m)
      | some status =>
        (some status, (m.remove h.pid).onHandle fun h => { h with reaped := some status })

/-- The creator's end of the input is closed unless it has been given away. -/
def dropInput (w : Wires) (m : World) : Wires × World :=
  match m.handle with
  | some h =>
    if h.inputKept then
      ({ w with input := w.input.closeWriting }, m.onHandle fun h => { h with inputKept := false })
    else (w, m)
  | none => (w, m)

/-- The pipes are given away, once, as long as none of them has been closed. -/
def takePipes (m : World) : Bool × World :=
  match m.handle with
  | some h =>
    if h.taken || !h.inputKept then (false, m)
    else (true, m.onHandle fun h => { h with taken := true, inputKept := false })
  | none => (false, m)

/-- Kills the process that was created, unless it has been reaped. -/
def slay (w : Wires) (m : World) : Wires × World :=
  match m.handlePid? with
  | none => (w, m)
  | some pid =>
    let (_, m) := m.deliver pid Signal.kill
    let (w, m) := dropInput w m
    let (_, m) := m.reapHandle
    m.close w

/-! ## Calls -/

/-- What sending a signal gives. -/
def delivered : Bool → Delivered
  | true => .sent
  | false => .nobody

/-- The process that the program is told to end, and whether with force. -/
def target? (args : List String) : Option Pid × Bool :=
  let pid :=
    match args with
    | "/PID" :: n :: _ => n.toNat?
    | _ => none
  (pid, args.contains "/F")

/-- Runs the program that ends processes, if there is one. -/
def runKiller (m : World) (args : List String) : Except StreamFault Nat × World :=
  match m.killer with
  | none => (.error StreamFault.missing, m)
  | some killer =>
    let m := { m with killings := args :: m.killings }
    let m :=
      match killer.kills, target? args with
      | true, (some pid, force) =>
        (m.deliver pid (if force then Signal.kill else Signal.terminate)).2
      | _, _ => m
    (.ok killer.code, m)

end World

/-- Begins a call. -/
def startCall (_now : Nat) (c : Call) (s : Wires × World) : Wires × World :=
  match c with
  | .wait _ => World.dropInput s.1 s.2
  | _ => s

/-- The answer to a call, if there is one yet. -/
def lookCall (since now : Nat) (c : Call) (s : Wires × World) : Option c.Answer × Wires × World :=
  let (w, m) := s
  match c with
  | .handle => (some m.handlePid?, w, m)
  | .signal pid signal =>
    let (found, m) := m.deliver pid signal
    (some (World.delivered found), m.close w)
  | .signalGroup group signal =>
    let (found, m) := m.deliverGroup group signal
    (some (World.delivered found), m.close w)
  | .isThere pid => (some (m.find? pid).isSome, w, m)
  | .sleep ms => (if since + ms ≤ now then some () else none, w, m)
  | .now => (some now, w, m)
  | .table => (some (some m.table), w, m)
  | .searchOn => (none, w, m)
  | .wait limit =>
    match m.reapHandle with
    | (some status, m) => (some (.left status), w, m)
    | (none, m) => (if limit.any (since + · ≤ now) then some .timedOut else none, w, m)
  | .slay => let (w, m) := m.slay w; (some (), w, m)
  | .runKiller args =>
    let (ended, m) := m.runKiller args
    (some ended, m.close w)

/-- The calls of the platforms are answered. -/
def agent : Plan.Agent Call.Answer (Wires × World) := ⟨startCall, lookCall⟩

/-- The instants at which a call that was begun at `since` may be answered. -/
def callDues (since : Nat) : Call → List Nat
  | .sleep ms => [since + ms]
  | .wait (some limit) => [since + limit]
  | _ => []

/-- Everything that the processes can do at this instant. -/
def settle : (fuel : Nat) → Wires × World → Wires × World
  | 0, s => s
  | fuel + 1, s =>
    match s.2.act s.1 with
    | some s => settle fuel s
    | none => s

/-- Calls are answered in time. -/
def clockwork : Plan.Clockwork Call.Answer (Wires × World) where
  agent := agent
  settle := settle patience
  now := fun s => s.1.now
  moveTo := fun t s => (Session.moveTo t s.1, s.2)
  dues := fun since c s => callDues since c ++ s.2.dues

/-! ## A machine with a platform -/

/-- A command that is being carried out. -/
structure Busy where
  /-- The command. -/
  command : Control.Command
  /-- How far it has got. -/
  progress : Plan.Progress Call.Answer command.Answer

/-- A machine with a platform. -/
structure Site where
  /-- The platform. -/
  platform : Platform.Manager
  /-- The machine. -/
  machine : World
  /-- The command that is being carried out. -/
  busy : Option Busy

namespace Site

/-- Begins a command. -/
def start (now : Nat) (c : Control.Command) (s : Wires × Site) : Wires × Site :=
  let (progress, w, m) := (s.2.platform.carryOut c).carry agent now (s.1, s.2.machine)
  (w, { s.2 with machine := m, busy := some ⟨c, progress⟩ })

/-- The answer to a command, if there is one yet. -/
def look (_since now : Nat) (c : Control.Command) (s : Wires × Site) :
    Option c.Answer × Wires × Site :=
  match s.2.busy with
  | none => (none, s)
  | some busy =>
    if h : busy.command = c then
      let (progress, sides, _) := busy.progress.poll agent now (s.1, s.2.machine)
      let site : Site := { s.2 with machine := sides.2, busy := some ⟨busy.command, progress⟩ }
      match progress.result? with
      | some answer => (some (h ▸ answer), sides.1, { site with busy := none })
      | none => (none, sides.1, site)
    else (none, s)

/-- The instants at which anything may happen. -/
def dues (s : Site) : List Nat :=
  let call :=
    match s.busy with
    | some ⟨_, .under since c _⟩ => callDues since c
    | _ => []
  call ++ s.machine.dues

/-- Changes the files of the machine. -/
def onFiles (f : Files → Files) (s : Site) : Site :=
  { s with machine := { s.machine with files := f s.machine.files } }

/-- Makes a new file. -/
def createFile (suffix : String) (s : Site) : Except StreamFault (List UInt8) × Site :=
  match s.machine.files.create suffix with
  | .ok (path, files) => (.ok path, s.onFiles fun _ => files)
  | .error fault => (.error fault, s)

/-- Writes to a file. -/
def writeFile (path bytes : List UInt8) (s : Site) : Except StreamFault Unit × Site :=
  (.ok (), s.onFiles (·.append path bytes))

/-- Creates a process, whose pipes are taken at once. -/
def spawn (_now : Nat) (program : String) (args : List String) (directory : Option String)
    (env : List (String × String)) (s : Site) : Except Chain Unit × Site :=
  let (result, m) := s.machine.spawn program args directory env
  (result, { s with machine := m.takePipes.2 })

/-- The other side of a link. -/
def backend : Backend Site where
  act := fun w s => (s.machine.act w).map fun (w, m) => (w, { s with machine := m })
  manager := ⟨start, look⟩
  dues := dues
  commandDues := fun _ _ _ => []
  look := fun path s => (s.machine.files.look path).map fun _ => ()
  createFile := createFile
  writeFile := writeFile
  spawn := spawn
  hasPipes := fun _ => true
  removeFile := fun path s => s.onFiles (·.remove path)
  isRunning := fun s => s.machine.handlePid?.isSome

end Site
end KernelLink.Machine
