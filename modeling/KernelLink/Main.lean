import KernelLink.Mock.Program
/-!
# The stand-in kernel at the command line

The only argument is the path of the artifact. The program reads its input a byte at a time, so that
a request is answered as soon as its line is complete. What to write and when to end is decided by
the effects of `KernelLink.Mock.Program`; here they are only carried out.
-/
namespace KernelLink.CommandLine

open Mock (Effect Store)

/-- The operating system's refusal with a number, which may come with its sign turned around. -/
def refusal (number : UInt32) : StreamFault := .os number.toInt32.toInt.natAbs

/-- The failure of a file operation. -/
def faultOf : IO.Error → StreamFault
  | .alreadyExists _ code _ | .interrupted _ code _ | .noFileOrDirectory _ code _
  | .invalidArgument _ code _ | .permissionDenied _ code _ | .resourceExhausted _ code _
  | .inappropriateType _ code _ | .noSuchThing _ code _ => refusal code
  | .otherError code _ | .resourceBusy code _ | .resourceVanished code _
  | .unsupportedOperation code _ | .hardwareFault code _ | .unsatisfiedConstraints code _
  | .illegalOperation code _ | .protocolError code _ | .timeExpired code _ => refusal code
  | .unexpectedEof => .kind .unexpectedEnd none
  | .userError text => .kind .other (some text)

/-- The artifact that the arguments name, with what reading it gave. -/
def artifact : List String → IO (Option (String × Except StreamFault (List UInt8)))
  | [] => pure none
  | path :: _ => do
    try return some (path, .ok (← IO.FS.readBinFile path).toList)
    catch e => return some (path, .error (faultOf e))

/-- Does the first argument name anything? -/
def isThere : List String → IO Bool
  | [] => pure false
  | path :: _ => do
    try discard (IO.FS.realPath path); return true
    catch _ => return false

/-- Carries out effects, up to the first that ends the program, and tells its exit code. -/
def perform (output errors : IO.FS.Stream) : List Effect → IO (Option UInt32)
  | [] => pure none
  | .out text :: rest => do
    output.putStr text
    output.flush
    perform output errors rest
  | .err text :: rest => do
    errors.putStr text
    perform output errors rest
  | .sleep ms :: rest => do
    IO.sleep ms.toUInt32
    perform output errors rest
  | .exit code :: _ => pure (some code.toUInt32)

/-- The bytes up to a line feed, and the line feed; fewer if the input ends before. -/
partial def nextBytes (input : IO.FS.Stream) (taken : ByteArray) : IO ByteArray := do
  let bytes ← input.read 1
  if bytes.isEmpty then return taken
  let taken := taken ++ bytes
  if bytes.toList.getLast? == some 10 then return taken
  nextBytes input taken

/-- Serves the lines of the input. `pipe` holds what was read and not yet served. -/
partial def serve (arguments : List String) (input output errors : IO.FS.Stream) (s : Store)
    (pipe : Host.Pipe) : IO UInt32 := do
  match pipe.nextLine? with
  | some (line, pipe) =>
    let (effects, s) := Mock.onLine (← isThere arguments) s line
    match ← perform output errors effects with
    | some code => return code
    | none => serve arguments input output errors s pipe
  | none =>
    match pipe.fill? with
    | some pipe => serve arguments input output errors s pipe
    | none =>
      let bytes ← nextBytes input .empty
      serve arguments input output errors s
        (if bytes.isEmpty then pipe.closeWriting else pipe.put bytes.toList)

end KernelLink.CommandLine

open KernelLink in
/-- Runs the stand-in kernel. -/
def main (arguments : List String) : IO UInt32 := do
  let output ← IO.getStdout
  let errors ← IO.getStderr
  match ← CommandLine.perform output errors (Mock.begin (← CommandLine.artifact arguments)) with
  | some code => return code
  | none => CommandLine.serve arguments (← IO.getStdin) output errors .empty .new
