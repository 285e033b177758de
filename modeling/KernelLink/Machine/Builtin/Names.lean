import KernelLink.Machine.Builtin.Basic
/-!
# Names, files and directories

What a name stands for, where a script is found by its name, and how a shell goes from one
directory to another.

Main definitions:
* `Meaning`, `World.meaning?`: what a name stands for.
* `World.going`: to another directory.
* `World.scriptOf`: a script by its name.
-/
namespace KernelLink.Machine

/-! ## Commands by name -/

/-- The words with a meaning of their own and the commands that a name may stand for. -/
inductive Meaning where
  /-- A word of the grammar. -/
  | word
  /-- A special command of the shell. -/
  | special
  /-- A function. -/
  | function
  /-- A command of the shell. -/
  | builtin
  /-- A program under a path. -/
  | program (path : String)

/-- What a name stands for. -/
def World.meaning? (m : World) (p : Proc) (s : Shell) (name : String) : Option Meaning :=
  if Script.reservedWords.contains name then some .word
  else if specialBuiltins.contains name then some .special
  else if (s.functions.lookup name).isSome then some .function
  else if builtins.contains name then some .builtin
  else
    let isProgram (path : String) : Bool :=
      match m.files.locate p.directory (bytesOf path) with
      | .ok (_, .file _ executable) => executable
      | _ => false
    if name.toList.contains '/' then if isProgram name then some (.program name) else none
    else ((s.pathsFor name).find? isProgram).map .program

/-- A name and what it stands for, in words. -/
def described (name : String) : Option Meaning → String
  | none => name ++ ": not found\n"
  | some .word => name ++ " is a shell keyword\n"
  | some .special => name ++ " is a special shell builtin\n"
  | some .function => name ++ " is a shell function\n"
  | some .builtin => name ++ " is a shell builtin\n"
  | some (.program path) => name ++ " is " ++ path ++ "\n"

/-- A name and what it stands for, as short as possible. -/
def denoted (name : String) : Option Meaning → String
  | none => ""
  | some (.program path) => path ++ "\n"
  | some _ => name ++ "\n"

/-- Says what names stand for. -/
def World.naming (m : World) (p : Proc) (s : Shell) (words : String → Option Meaning → String)
    (names : List String) : Reply :=
  let found := names.map fun name => (name, m.meaning? p s name)
  let code := if found.all (·.2.isSome) then 0 else 127
  .done p s code [.say (String.join (found.map fun f => words f.1 f.2))]

/-! ## Directories and files -/

/-- Goes to a directory. -/
def World.going (m : World) (p : Proc) (s : Shell) (physical : Bool) : List String → Reply
  | "-P" :: rest => m.going p s true rest
  | "-L" :: rest => m.going p s false rest
  | "--" :: rest => go rest
  | args => go args
where
  /-- Goes to the directory that the first argument is. -/
  go (args : List String) : Reply :=
    let asked := args.head?.getD (s.look "HOME")
    let target := if asked = "-" then s.look "OLDPWD" else asked
    let path := pathFrom p.directory (bytesOf target)
    match m.files.locate p.directory path with
    | .ok (place, .directory) =>
      let place := if physical then place else Host.Path.place [] (Host.Path.parts path)
      let directory := Host.Path.text place
      let here := Text.Utf8.lossy directory
      let s := (s.bind "OLDPWD" (Text.Utf8.lossy p.directory)).bind "PWD" here
      let s := (s.expose "OLDPWD").expose "PWD"
      let effects := if asked = "-" then [.say (here ++ "\n")] else []
      .done { p with directory := directory } s 0 effects
    | _ => .fault ("can't cd to " ++ target)

/-- The script that a file holds; a name without a slash is looked for like a program. -/
def World.scriptOf (m : World) (p : Proc) (s : Shell) (name : String) :
    Except String (String × String) :=
  let read (path : String) : Except StreamFault String :=
    (m.contents p.directory (bytesOf path)).map Text.Utf8.lossy
  if name.toList.contains '/' then
    match read name with
    | .ok script => .ok (name, script)
    | .error fault => .error ("cannot open " ++ name ++ ": " ++ cannotOpen fault)
  else
    match (s.pathsFor name).findSome? fun path => (read path).toOption.map (path, ·) with
    | some found => .ok found
    | none => .error (name ++ ": not found")

end KernelLink.Machine
