import KernelLink.Mock.Kernel
import KernelLink.Mock.Manifest
import KernelLink.Host.Pipe
import KernelLink.Error
/-!
# The stand-in kernel as a program

The program is started with the path of its artifact. It reads the artifact, greets, and serves the
lines of its input until the input ends. It does everything through effects, one batch at the
beginning and one for each line, so the same definitions run it as a program, among simulated
processes, and in one go.

Main definitions:
* `begin`: what the program does before it reads.
* `onLine`: what it does with a line.
* `run`: everything it writes for a given input, and how it ends.
-/
namespace KernelLink.Mock

open Host (Delivery)

/-- How a program fails that is given something wrong. -/
inductive Failure where
  /-- It was not told where its artifact is. -/
  | noArtifact
  /-- Its artifact is no manifest. -/
  | badManifest (cause : Json.ReadError)
  /-- A line of its input is not UTF-8. -/
  | badInput
  deriving Repr, DecidableEq

/-- The wording of a failure, with its kind and all its parts. -/
def Failure.report : Failure → String
  | .noArtifact => "Custom \x7b kind: InvalidInput, error: \"missing artifact path\" \x7d"
  | .badManifest cause =>
    let place := cause.place.getD ⟨0, 0⟩
    "Custom \x7b kind: InvalidData, error: Error(" ++ Text.quoted cause.cause.message ++
      ", line: " ++ toString place.line ++ ", column: " ++ toString place.column ++ ") \x7d"
  | .badInput =>
    "Error \x7b kind: InvalidData, message: \"stream did not contain valid UTF-8\" \x7d"

/-- What a failure does. -/
def Failure.effects (f : Failure) : List Effect := [.err (lineOf ("Error: " ++ f.report)), .exit 1]

/-- How a program ends that cannot read its artifact. -/
def unreadableArtifact : Nat := 2

/-- What a manifest makes the kernel do before it reads. -/
def Manifest.effects (m : Manifest) : List Effect :=
  (m.startupStderr.map fun text => Effect.err (lineOf text)).toList ++
    (if m.skipGreeting then []
    else
      let greeting := m.greeting.getD Manifest.usualGreeting
      [.out (lineOf (only "hello" (.str greeting)).text)])

/-- What the program does before it reads. `artifact` is the path it was told, with what reading the
file gave. -/
def begin (artifact : Option (String × Except StreamFault (List UInt8))) : List Effect :=
  match artifact with
  | none => Failure.noArtifact.effects
  | some (path, .error fault) =>
    [.err (lineOf ("cannot read artifact " ++ path ++ ": " ++ fault.message)),
      .exit unreadableArtifact]
  | some (_, .ok bytes) =>
    match Manifest.read bytes with
    | .error cause => (Failure.badManifest cause).effects
    | .ok m => m.effects

/-- What the program does when it reads, and the objects after it. -/
def onLine (artifactThere : Bool) (s : Store) : Delivery → List Effect × Store
  | .line text => serve artifactThere s text
  | .unreadable _ => (Failure.badInput.effects, s)
  | .ended => ([.exit 0], s)

/-- All that the program does for given lines, in order, as if nothing ended it before. -/
def onLines (artifactThere : Bool) (s : Store) : List Delivery → List Effect
  | [] => [.exit 0]
  | line :: rest =>
    let (effects, s) := onLine artifactThere s line
    effects ++ onLines artifactThere s rest

/-- What a program has written, and how it ended. -/
structure Transcript where
  /-- The output. -/
  output : String
  /-- The error output. -/
  errors : String
  /-- The exit code. -/
  code : Nat
  deriving Repr, DecidableEq

/-- What effects leave, up to the first that ends the program. -/
def Transcript.of : List Effect → Transcript
  | [] => ⟨"", "", 0⟩
  | .exit code :: _ => ⟨"", "", code⟩
  | .out text :: rest => let t := of rest; { t with output := text ++ t.output }
  | .err text :: rest => let t := of rest; { t with errors := text ++ t.errors }
  | .sleep _ :: rest => of rest

/-- Runs the program on an input. -/
def run (artifact : Option (String × Except StreamFault (List UInt8))) (input : List UInt8) :
    Transcript :=
  Transcript.of (begin artifact ++ onLines true .empty (Host.linesOf input))

end KernelLink.Mock
