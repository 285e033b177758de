import KernelLink.Machine.Script.Token
/-!
# The grammar of scripts

Tokens are put together to commands by recursive descent. A script is a list of complete commands,
each of which ends with its line; a shell runs the ones before a mistake before it notices the
mistake.

Main definitions:
* `Parsed`: the complete commands of a script, and the mistake that follows them, if any.
* `Parsed.ofScript`.
-/
namespace KernelLink.Machine.Script

/-- The words that end a list of commands. -/
def closingWords : List String :=
  ["then", "do", "done", "fi", "else", "elif", "esac", "\x7d"]

/-- All words with a meaning of their own. -/
def reservedWords : List String :=
  closingWords ++ ["!", "case", "for", "if", "in", "until", "while", "\x7b"]

namespace Grammar

/-- How a mistake names a token. -/
def nameOf : Symbol → String
  | .word _ (some text) =>
    if reservedWords.contains text then "\"" ++ text ++ "\"" else "word"
  | .word _ none => "word"
  | .operator "\n" => "newline"
  | .operator text => "\"" ++ text ++ "\""
  | .redirect .. => "redirection"
  | .documents .. | .fault _ => "newline"

/-- The mistake that the next token is, where something else was expected. -/
def unexpected {α : Type} (expected : Option String) (ts : List Token) : Except Mistake α :=
  let expecting :=
    match expected with
    | some text => " (expecting \"" ++ text ++ "\")"
    | none => ""
  match ts with
  | [] => .error ⟨none, "end of file unexpected" ++ expecting⟩
  | ⟨.fault reason, line⟩ :: _ => .error ⟨some line, reason⟩
  | ⟨symbol, line⟩ :: _ => .error ⟨some line, nameOf symbol ++ " unexpected" ++ expecting⟩

/-- Leaves out line ends. -/
def skipLines : List Token → List Token
  | ⟨.operator "\n", _⟩ :: rest => skipLines rest
  | ts => ts

/-- Does a list of commands end here? -/
def isClosed : List Token → Bool
  | [] => true
  | ⟨.operator ")", _⟩ :: _ | ⟨.operator ";;", _⟩ :: _ => true
  | ⟨.word _ (some text), _⟩ :: _ => closingWords.contains text
  | _ => false

/-- What follows a reserved word, if it comes here. -/
def after? (text : String) : List Token → Option (List Token)
  | ⟨.word _ (some found), _⟩ :: rest => if found = text then some rest else none
  | _ => none

/-- What follows a reserved word that has to come here. -/
def expect (text : String) (ts : List Token) : Except Mistake (List Token) :=
  match after? text ts with
  | some rest => .ok rest
  | none => unexpected (some text) ts

/-- The stream that a redirection is about if none is written. -/
def usualStream (text : String) : Nat := if text.startsWith "<" then 0 else 1

/-- What a redirection operator does. -/
def directionOf : String → Direction
  | "<" => .fromFile
  | "<<" => .fromText
  | ">" => .toFile
  | ">>" => .atEnd
  | _ => .duplicate

/-- The redirections that come next. -/
def redirects : List Token → List Redirect × List Token
  | ⟨.redirect stream text, _⟩ :: ⟨.word w _, _⟩ :: rest =>
    let (others, rest) := redirects rest
    (⟨stream.getD (usualStream text), directionOf text, w⟩ :: others, rest)
  | ts => ([], ts)

/-- The assignment that a word is. -/
def assignment? : Word → Option (String × Word)
  | .text content false :: rest =>
    let (name, value) := content.toList.span (· != '=')
    match value with
    | _ :: value =>
      let name := String.ofList name
      if Token.isName name then
        let start : Word := if value.isEmpty then [] else [.text (String.ofList value) false]
        some (name, Token.withHome (start ++ rest))
      else none
    | [] => none
  | _ => none

/-- A simple command on a line. -/
def simple (line : Nat) : List Token → Except Mistake (Command × List Token)
  | ⟨.word w _, _⟩ :: rest =>
    match simple line rest with
    | .ok (.simple _ assignments words reds, rest') =>
      match assignment? w with
      | some a => .ok (.simple line (a :: assignments) words reds, rest')
      | none =>
        -- What looks like an assignment after the program is an argument.
        let late : List Word := assignments.map fun a => .text (a.1 ++ "=") false :: a.2
        .ok (.simple line [] (w :: (late ++ words)) reds, rest')
    | other => other
  | ⟨.redirect stream text, _⟩ :: ⟨.word w _, _⟩ :: rest =>
    match simple line rest with
    | .ok (.simple _ assignments words reds, rest') =>
      let r : Redirect := ⟨stream.getD (usualStream text), directionOf text, w⟩
      .ok (.simple line assignments words (r :: reds), rest')
    | other => other
  | ⟨.redirect .., _⟩ :: ts | ts@(⟨.fault _, _⟩ :: _) => unexpected none ts
  | ts => .ok (.simple line [] [] [], ts)

/-- The words of a `for`, up to the end of its line. -/
def wordsOf : List Token → List Word × List Token
  | ⟨.word w _, _⟩ :: rest => let (ws, rest) := wordsOf rest; (w :: ws, rest)
  | ts => ([], ts)

/-- Leaves out one divider and the line ends after it. -/
def skipDivider : List Token → List Token
  | ⟨.operator ";", _⟩ :: rest => skipLines rest
  | ts => skipLines ts

/-- The patterns of a case, up to the bracket after them. -/
def patterns : List Token → Except Mistake (List Word × List Token)
  | ⟨.word w _, _⟩ :: ⟨.operator "|", _⟩ :: rest =>
    (patterns rest).map fun (ws, rest) => (w :: ws, rest)
  | ⟨.word w _, _⟩ :: ⟨.operator ")", _⟩ :: rest => .ok ([w], rest)
  | ⟨.word .., _⟩ :: ts => unexpected (some ")") ts
  | ts => unexpected none ts

mutual

/-- A list of commands up to what closes it. -/
def list (fuel : Nat) (ts : List Token) : Except Mistake (Command × List Token) :=
  match fuel with
  | 0 => unexpected none ts
  | fuel + 1 =>
    match andOr fuel (skipLines ts) with
    | .error e => .error e
    | .ok (first, rest) =>
      let (first, rest, more) : Command × List Token × Bool :=
        match rest with
        | ⟨.operator "&", _⟩ :: rest => (.background first, skipLines rest, true)
        | ⟨.operator ";", _⟩ :: rest => (first, skipLines rest, true)
        | ⟨.operator "\n", _⟩ :: rest => (first, skipLines rest, true)
        | rest => (first, rest, false)
      if !more || isClosed rest then .ok (first, rest)
      else (list fuel rest).map fun (others, rest) => (.sequence first others, rest)

/-- Pipelines joined by `&&` and `||`. -/
def andOr (fuel : Nat) (ts : List Token) : Except Mistake (Command × List Token) :=
  match fuel with
  | 0 => unexpected none ts
  | fuel + 1 =>
    match pipeline fuel ts with
    | .error e => .error e
    | .ok (first, rest) => andOrRest fuel first rest

/-- What follows a first pipeline. -/
def andOrRest (fuel : Nat) (first : Command) (ts : List Token) :
    Except Mistake (Command × List Token) :=
  match fuel with
  | 0 => unexpected none ts
  | fuel + 1 =>
    match ts with
    | ⟨.operator "&&", _⟩ :: rest =>
      match pipeline fuel (skipLines rest) with
      | .error e => .error e
      | .ok (second, rest) => andOrRest fuel (.both first second) rest
    | ⟨.operator "||", _⟩ :: rest =>
      match pipeline fuel (skipLines rest) with
      | .error e => .error e
      | .ok (second, rest) => andOrRest fuel (.either first second) rest
    | ts => .ok (first, ts)

/-- Commands joined by pipes, perhaps negated. -/
def pipeline (fuel : Nat) (ts : List Token) : Except Mistake (Command × List Token) :=
  match fuel with
  | 0 => unexpected none ts
  | fuel + 1 =>
    match after? "!" ts with
    | some rest => (pipeline fuel rest).map fun (c, rest) => (.negate c, rest)
    | none =>
      match command fuel ts with
      | .ok (first, ⟨.operator "|", _⟩ :: rest) =>
        (pipeline fuel (skipLines rest)).map fun (second, rest) => (.pipe first second, rest)
      | other => other

/-- What follows the condition of an `if`. -/
def branches (fuel : Nat) (ts : List Token) :
    Except Mistake (Command × Command × Command × List Token) :=
  match fuel with
  | 0 => unexpected none ts
  | fuel + 1 => do
    let (condition, rest) ← list fuel ts
    let rest ← expect "then" rest
    let (yes, rest) ← list fuel rest
    match after? "elif" rest with
    | some rest =>
      let (condition', yes', no', rest) ← branches fuel rest
      return (condition, yes, .branch condition' yes' no' [], rest)
    | none =>
      match after? "else" rest with
      | some rest =>
        let (no, rest) ← list fuel rest
        let rest ← expect "fi" rest
        return (condition, yes, no, rest)
      | none =>
        let rest ← expect "fi" rest
        return (condition, yes, Command.nothing, rest)

/-- The cases of a `case`, up to its end. -/
def cases (fuel : Nat) (ts : List Token) :
    Except Mistake (List (List Word × Command) × List Token) :=
  match fuel with
  | 0 => unexpected none ts
  | fuel + 1 =>
    let ts := skipLines ts
    match after? "esac" ts with
    | some rest => .ok ([], rest)
    | none => do
      let ts :=
        match ts with
        | ⟨.operator "(", _⟩ :: rest => rest
        | ts => ts
      let (words, rest) ← patterns ts
      let rest := skipLines rest
      let (body, rest) ← if isClosed rest then .ok (Command.nothing, rest) else list fuel rest
      match rest with
      | ⟨.operator ";;", _⟩ :: rest =>
        let (others, rest) ← cases fuel rest
        return ((words, body) :: others, rest)
      | rest =>
        match after? "esac" rest with
        | some rest => return ([(words, body)], rest)
        | none => unexpected (some ";;") rest

/-- One command. -/
def command (fuel : Nat) (ts : List Token) : Except Mistake (Command × List Token) :=
  match fuel with
  | 0 => unexpected none ts
  | fuel + 1 =>
    match ts with
    | ⟨.operator "(", _⟩ :: rest => do
      let (body, rest) ← list fuel rest
      match rest with
      | ⟨.operator ")", _⟩ :: rest =>
        let (reds, rest) := redirects rest
        return (.subshell body reds, rest)
      | rest => unexpected (some ")") rest
    | ⟨.word _ (some "\x7b"), _⟩ :: rest => do
      let (body, rest) ← list fuel rest
      let rest ← expect "\x7d" rest
      let (reds, rest) := redirects rest
      return (.group body reds, rest)
    | ⟨.word _ (some "while"), _⟩ :: rest => loop fuel false rest
    | ⟨.word _ (some "until"), _⟩ :: rest => loop fuel true rest
    | ⟨.word _ (some "if"), _⟩ :: rest => do
      let (condition, yes, no, rest) ← branches fuel rest
      let (reds, rest) := redirects rest
      return (.branch condition yes no reds, rest)
    | ⟨.word _ (some "for"), line⟩ :: rest => do
      let (name, rest) ←
        match rest with
        | ⟨.word _ (some name), line⟩ :: rest =>
          if Token.isName name then .ok (name, rest)
          else .error ⟨some line, "Bad for loop variable"⟩
        | _ => .error ⟨some line, "Bad for loop variable"⟩
      let rest := skipLines rest
      let (words, rest) :=
        match after? "in" rest with
        | some rest => wordsOf rest
        | none => ([[.variable "@" true]], rest)
      let rest ← expect "do" (skipDivider rest)
      let (body, rest) ← list fuel rest
      let rest ← expect "done" rest
      let (reds, rest) := redirects rest
      return (.each name words body reds, rest)
    | ⟨.word _ (some "case"), _⟩ :: rest =>
      match rest with
      | ⟨.word w _, _⟩ :: rest => do
        let rest ← expect "in" (skipLines rest)
        let (cs, rest) ← cases fuel rest
        let (reds, rest) := redirects rest
        return (.choose w cs reds, rest)
      | rest => unexpected none rest
    | ⟨.word _ (some name), _⟩ :: ⟨.operator "(", _⟩ :: rest =>
      match rest with
      | ⟨.operator ")", line⟩ :: rest =>
        if Token.isName name then
          (command fuel (skipLines rest)).map fun (body, rest) => (.define name body, rest)
        else .error ⟨some line, "Bad function name"⟩
      | rest => unexpected (some ")") rest
    | ts =>
      if isClosed ts then unexpected none ts
      else
        match simple ((ts.head?.map (·.line)).getD 1) ts with
        | .ok (.simple _ [] [] [], rest) => unexpected none rest
        | other => other

/-- What follows `while` or `until`. -/
def loop (fuel : Nat) (untilSuccess : Bool) (ts : List Token) :
    Except Mistake (Command × List Token) :=
  match fuel with
  | 0 => unexpected none ts
  | fuel + 1 => do
    let (condition, rest) ← list fuel ts
    let rest ← expect "do" rest
    let (body, rest) ← list fuel rest
    let rest ← expect "done" rest
    let (reds, rest) := redirects rest
    return (.loop untilSuccess condition body reds, rest)

end

/-- One complete command: lists joined by dividers up to the end of the line. -/
def complete : (fuel : Nat) → List Token → Except Mistake (Command × List Token)
  | 0, ts => unexpected none ts
  | fuel + 1, ts =>
    match andOr fuel ts with
    | .error e => .error e
    | .ok (first, rest) =>
      let join (first : Command) (rest : List Token) : Except Mistake (Command × List Token) :=
        match rest with
        | [] => .ok (first, [])
        | ⟨.operator "\n", _⟩ :: rest => .ok (first, rest)
        | rest => (complete fuel rest).map fun (others, rest) => (.sequence first others, rest)
      match rest with
      | [] => .ok (first, [])
      | ⟨.operator "\n", _⟩ :: rest => .ok (first, rest)
      | ⟨.operator "&", _⟩ :: rest => join (.background first) rest
      | ⟨.operator ";", _⟩ :: rest => join first rest
      | rest => unexpected none rest

end Grammar

/-- The complete commands of a script, up to a mistake if there is one. -/
structure Parsed where
  /-- The commands. -/
  commands : List Command
  /-- The mistake that follows them. -/
  mistake : Option Mistake
  deriving Inhabited

namespace Parsed

/-- The complete commands in some tokens. -/
def ofTokens (fuel : Nat) : (rounds : Nat) → List Token → Parsed
  | 0, _ => ⟨[], none⟩
  | rounds + 1, ts =>
    match Grammar.skipLines ts with
    | [] => ⟨[], none⟩
    | ts =>
      match Grammar.complete fuel ts with
      | .error mistake => ⟨[], some mistake⟩
      | .ok (c, rest) =>
        let p := ofTokens fuel rounds rest
        { p with commands := c :: p.commands }

/-- Reads a script that begins on a line. -/
def ofScript (line : Nat) (script : String) : Parsed :=
  let ts := Token.ofScript line script
  let p := ofTokens (8 * ts.length + 8) (ts.length + 1) ts
  { p with
    mistake := p.mistake.map fun mistake =>
      let last := line + script.toList.countP (· == '\n')
      { mistake with line := some (mistake.line.getD last) } }

/-- Is the only thing wrong with a script that it ends too early? -/
def isUnfinished (script : String) : Bool :=
  let ts := Token.ofScript 1 script
  match (ofTokens (8 * ts.length + 8) (ts.length + 1) ts).mistake with
  | some mistake => mistake.line.isNone || Token.endsInside script
  | none => Token.endsInside script

end Parsed
end KernelLink.Machine.Script
