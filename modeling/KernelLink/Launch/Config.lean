import KernelLink.Launch.Timing
import KernelLink.Text.Blank
/-!
# How a kernel is launched

A configuration names the program that runs the kernel and the artifact that the program loads. The
artifact is either a file that is already there or bytes that are written to a file for each launch;
its path is always the last argument of the program.

Main definitions:
* `Artifact`, `LaunchConfig`.
* `LaunchConfig.validate`: which configurations can be launched.
* `LaunchConfig.launchArgs`: the arguments of the program.
* `LaunchDraft`: a configuration in the making, and `LaunchDraft.build`.
-/
namespace KernelLink

/-- What the program loads. A path is a list of bytes, since file systems demand no encoding. -/
inductive Artifact where
  /-- Bytes that are written to a new file, whose name ends in `suffix`, for each launch. -/
  | embedded (bytes : List UInt8) (suffix : String)
  /-- A file that is already there and is left there. -/
  | path (path : List UInt8)
  deriving Repr, DecidableEq

/-- The suffix of bytes that are built into the program. -/
def Artifact.builtin (bytes : List UInt8) : Artifact := .embedded bytes ".js"

/-- How a kernel is launched. -/
structure LaunchConfig where
  /-- A name for messages. -/
  name : String
  /-- The program that runs the kernel. -/
  program : String
  /-- Its arguments before the artifact. -/
  args : List String
  /-- Variables of its environment, sorted by name. -/
  env : List (String × String)
  /-- What it loads. -/
  artifact : Artifact
  /-- The directory in which it starts. -/
  workingDirectory : Option String
  /-- The limits of the conversation. -/
  timing : Timing
  deriving Repr, DecidableEq

namespace LaunchConfig

/-- The first rule that a configuration breaks. -/
def validate (c : LaunchConfig) : Except LinkError Unit :=
  if (Text.trim c.program.toList).isEmpty then .error (.configuration "program must not be empty")
  else
    match c.artifact with
    | .embedded [] _ => .error (.configuration "embedded kernel artifact is empty")
    | _ => c.timing.validate

/-- The arguments of the program: the configured ones, and the artifact's path read as text. -/
def launchArgs (c : LaunchConfig) (artifactPath : List UInt8) : List String :=
  c.args ++ [Text.Utf8.lossy artifactPath]

end LaunchConfig

/-! ## Drafts -/

/-- Sets a variable in an environment sorted by name. -/
def setVariable (name value : String) : List (String × String) → List (String × String)
  | [] => [(name, value)]
  | (n, v) :: rest =>
    if name < n then (name, value) :: (n, v) :: rest
    else if name = n then (name, value) :: rest
    else (n, v) :: setVariable name value rest

/-- A configuration in the making. Name and artifact have no standard value. -/
structure LaunchDraft where
  /-- The name, once given. -/
  name : Option String := none
  /-- The program. -/
  program : String := "node"
  /-- The arguments before the artifact. -/
  args : List String := []
  /-- The environment. -/
  env : List (String × String) := []
  /-- The artifact, once given. -/
  artifact : Option Artifact := none
  /-- The directory. -/
  workingDirectory : Option String := none
  /-- The limits. -/
  timing : Timing := Timing.standard
  deriving Repr, DecidableEq

namespace LaunchDraft

/-- Adds variables, a later value of a name in the place of an earlier one. -/
def addVariables (d : LaunchDraft) (pairs : List (String × String)) : LaunchDraft :=
  { d with env := pairs.foldl (fun env p => setVariable p.1 p.2 env) d.env }

/-- What a draft lacks. -/
inductive Lack where
  /-- It has no name. -/
  | name
  /-- It has no artifact. -/
  | artifact
  deriving Repr, DecidableEq

/-- The wording of a lack. -/
def Lack.message : Lack → String
  | .name => "`name` must be initialized"
  | .artifact => "`artifact` must be initialized"

/-- The finished configuration, or the first thing that is missing. -/
def build (d : LaunchDraft) : Except Lack LaunchConfig :=
  match d.name, d.artifact with
  | none, _ => .error .name
  | some _, none => .error .artifact
  | some name, some artifact =>
    .ok ⟨name, d.program, d.args, d.env, artifact, d.workingDirectory, d.timing⟩

end LaunchDraft
end KernelLink
