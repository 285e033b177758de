import KernelLink.Machine.Script.Syntax
/-!
# The tokens of a script

A script is divided into words and operators. A word is kept with its quotes already taken off and
with its substitutions marked; whether it could be a reserved word is decided by its plain text,
which it has only if nothing in it is quoted or substituted. A text for the input of a command
begins on the line after the one that announces it and is put where it was announced.

Main definitions:
* `Symbol`, `Token`: a word, an operator, or what is wrong.
* `Token.ofScript`.
-/
namespace KernelLink.Machine.Script

/-- A word or an operator. -/
inductive Symbol where
  /-- A word, with its text if it is plain. -/
  | word (word : Word) (plain : Option String)
  /-- An operator that divides commands; a line end is one of them. -/
  | operator (text : String)
  /-- A redirection operator, with the number of the stream if one is written. -/
  | redirect (stream : Option Nat) (text : String)
  /-- The texts for input that were announced on the line before, and whether all of them have come
  to their end. -/
  | documents (bodies : List Word) (ended : Bool)
  /-- Nothing can be read from here on. -/
  | fault (text : String)
  deriving Repr, Inhabited

/-- A symbol on a line. -/
structure Token where
  /-- The symbol. -/
  symbol : Symbol
  /-- The line on which it begins. -/
  line : Nat
  deriving Repr, Inhabited

namespace Token

/-! ## Characters -/

/-- A blank between words. -/
def isSpace (c : Char) : Bool := c == ' ' || c == '\t'

/-- A character that ends a word outside quotes. -/
def endsWord (c : Char) : Bool := isSpace c || "\n;&|<>()".contains c

/-- A character of a name. -/
def isNameChar (c : Char) : Bool := c.isAlphanum || c == '_'

/-- Is a text a name? -/
def isName (s : String) : Bool :=
  match s.toList with
  | c :: rest => isNameChar c && !c.isDigit && rest.all isNameChar
  | [] => false

/-- The parameters that are named by a sign. -/
def signs : String := "?$!#@*-"

/-! ## Words -/

/-- Where the parts of a word are read. -/
inductive Place where
  /-- Outside quotes, up to the end of the word. -/
  | outside
  /-- Up to the closing double quote. -/
  | quotes
  /-- Inside the braces of a substitution, which may itself be quoted. -/
  | braces (quoted : Bool)
  /-- Up to the end, with double quotes that stand for themselves. -/
  | document
  deriving DecidableEq

/-- Is what is read there quoted? -/
def Place.isQuoted : Place → Bool
  | .outside => false
  | .braces quoted => quoted
  | .quotes | .document => true

/-- A backslash protects these characters inside quotes. -/
def Place.protectable : Place → String
  | .document => "$`\\"
  | .braces _ => "$`\"\\\x7d"
  | _ => "$`\"\\"

/-- The text up to the bracket that closes an open one, and what follows it. Quoted brackets do not
count. -/
def upToClosing : (fuel depth : Nat) → (taken : List Char) → List Char → Option (String × List Char)
  | 0, _, _, _ | _, _, _, [] => none
  | fuel + 1, depth, taken, c :: rest =>
    match c with
    | ')' =>
      match depth with
      | 0 => some (String.ofList taken.reverse, rest)
      | depth + 1 => upToClosing fuel depth (c :: taken) rest
    | '(' => upToClosing fuel (depth + 1) (c :: taken) rest
    | '\'' =>
      let (inside, rest) := rest.span (· != '\'')
      upToClosing fuel depth ('\'' :: inside.reverse ++ c :: taken) (rest.drop 1)
    | '"' =>
      let (inside, rest) := rest.span (· != '"')
      upToClosing fuel depth ('"' :: inside.reverse ++ c :: taken) (rest.drop 1)
    | '\\' => upToClosing fuel depth (rest.take 1 ++ c :: taken) (rest.drop 1)
    | c => upToClosing fuel depth (c :: taken) rest

/-- The name in front of a change, and what follows it. A name that begins with a digit is a
number. -/
def changedName (cs : List Char) : String × List Char :=
  match cs with
  | c :: rest =>
    if signs.contains c then (String.singleton c, rest)
    else
      let (name, rest) := cs.span fun d => if c.isDigit then d.isDigit else isNameChar d
      (String.ofList name, rest)
  | [] => ("", [])

/-- The change that some characters ask for, whether an empty variable counts as not set, and what
follows them. -/
def changeOf : List Char → Bool × Change × List Char
  | ':' :: '-' :: rest => (true, .replaced false, rest)
  | ':' :: '+' :: rest => (true, .replaced true, rest)
  | ':' :: '=' :: rest => (true, .assigned, rest)
  | ':' :: '?' :: rest => (true, .demanded, rest)
  | '-' :: rest => (false, .replaced false, rest)
  | '+' :: rest => (false, .replaced true, rest)
  | '=' :: rest => (false, .assigned, rest)
  | '?' :: rest => (false, .demanded, rest)
  | '%' :: '%' :: rest => (false, .trimmed true true, rest)
  | '%' :: rest => (false, .trimmed true false, rest)
  | '#' :: '#' :: rest => (false, .trimmed false true, rest)
  | '#' :: rest => (false, .trimmed false false, rest)
  | rest => (false, .meaningless, rest)

/-- Parts of a word and what follows them, or what is said about the lack of an end. -/
abbrev Reading := Except String (List Part × List Char)

/-- What stands in quotes is an argument even if it is empty, unless it is all the parameters. -/
def kept : List Part → List Part
  | [.variable "@" true] => [.variable "@" true]
  | inside => .text "" true :: inside

/-- The script up to the closing backquote, and what follows it. A backslash protects the characters
that would mean something there. -/
def backquoted (isQuoted : Bool) : List Char → Option (List Char × List Char)
  | [] => none
  | '`' :: rest => some ([], rest)
  | '\\' :: c :: rest =>
    (backquoted isQuoted rest).map fun (script, after) =>
      if "$`\\".contains c || (isQuoted && c == '"') then (c :: script, after)
      else ('\\' :: c :: script, after)
  | c :: rest => (backquoted isQuoted rest).map fun (script, after) => (c :: script, after)

/-- A part in front of others. -/
def Reading.after (part : Part) (r : Reading) : Reading :=
  r.map fun (parts, rest) => (part :: parts, rest)

mutual

/-- What a dollar sign begins, and what follows it; no part if it stands for itself. -/
def substitution (fuel : Nat) (quoted : Bool) (cs : List Char) :
    Except String (Option Part × List Char) :=
  match fuel with
  | 0 => .ok (none, cs)
  | fuel + 1 =>
    match cs with
    | '(' :: '(' :: rest =>
      match upToClosing (rest.length + 1) 0 [] rest with
      | some (expression, ')' :: rest) =>
        (parts fuel .document expression.toList).map fun (expression, _) =>
          (some (.arithmetic expression quoted), rest)
      | _ => .error "Missing '))'"
    | '(' :: rest =>
      match upToClosing (rest.length + 1) 0 [] rest with
      | some (script, rest) => .ok (some (.output script quoted), rest)
      | none => .error "end of file unexpected (expecting \")\")"
    | '\x7b' :: '#' :: '\x7d' :: rest => .ok (some (.variable "#" quoted), rest)
    | '\x7b' :: '#' :: rest =>
      let (name, rest) := changedName rest
      .ok (some (.size name quoted), (rest.dropWhile (· != '\x7d')).drop 1)
    | '\x7b' :: rest =>
      let (name, rest) := changedName rest
      if rest.head? = some '\x7d' && name != "" then
        .ok (some (.variable name quoted), rest.drop 1)
      else
        let (emptyCounts, change, rest) := changeOf rest
        let change := if name = "" then .meaningless else change
        let place := Place.braces (quoted && !change.isTrimming)
        (parts fuel place rest).map fun (other, rest) =>
          (some (.changed name emptyCounts change other quoted), rest)
    | c :: rest =>
      if signs.contains c || c.isDigit then .ok (some (.variable (String.singleton c) quoted), rest)
      else if isNameChar c then
        let (name, rest) := (c :: rest).span isNameChar
        .ok (some (.variable (String.ofList name) quoted), rest)
      else .ok (none, c :: rest)
    | [] => .ok (none, [])

/-- The parts that come next, and what follows them. -/
def parts (fuel : Nat) (place : Place) (cs : List Char) : Reading :=
  match fuel with
  | 0 => .ok ([], cs)
  | fuel + 1 =>
    let text (s : String) (quoted : Bool) (rest : List Char) : Reading :=
      Reading.after (.text s quoted) (parts fuel place rest)
    match cs with
    | [] =>
      match place with
      | .outside | .document => .ok ([], [])
      | .quotes => .error "Unterminated quoted string"
      | .braces _ => .error "Missing '\x7d'"
    | c :: rest =>
      if place = .outside && endsWord c then .ok ([], c :: rest)
      else
        match c, place with
        | '\x7d', .braces _ => .ok ([], rest)
        | '"', .quotes => .ok ([], rest)
        | '"', .document => text "\"" true rest
        | '"', .braces true => parts fuel place rest
        | '"', _ =>
          match parts fuel .quotes rest with
          | .ok (inside, rest) =>
            (parts fuel place rest).map fun (others, rest) => (kept inside ++ others, rest)
          | .error reason => .error reason
        | '\'', place =>
          if place.isQuoted then text "'" true rest
          else
            match rest.span (· != '\'') with
            | (inside, _ :: rest) => text (String.ofList inside) true rest
            | _ => .error "Unterminated quoted string"
        | '\\', place =>
          match rest with
          | '\n' :: rest => parts fuel place rest
          | d :: rest =>
            let isTaken := !place.isQuoted || place.protectable.contains d
            text (String.ofList (if isTaken then [d] else ['\\', d])) true rest
          | [] => text "\\" true []
        | '$', place =>
          match substitution fuel place.isQuoted rest with
          | .ok (some part, rest) => Reading.after part (parts fuel place rest)
          | .ok (none, rest) => text "$" place.isQuoted rest
          | .error reason => .error reason
        | '`', place =>
          match backquoted place.isQuoted rest with
          | some (script, rest) =>
            Reading.after (.output (String.ofList script) place.isQuoted) (parts fuel place rest)
          | none => .error "EOF in backquote substitution"
        | c, place => text (String.singleton c) place.isQuoted rest

end

/-- Joins neighbouring texts that are quoted alike. -/
def joinTexts : List Part → List Part
  | .text a q :: rest =>
    match joinTexts rest with
    | .text b q' :: others =>
      if q = q' then .text (a ++ b) q :: others else .text a q :: .text b q' :: others
    | others => .text a q :: others
  | part :: rest => part :: joinTexts rest
  | [] => []

/-- The text of a word in which nothing is quoted or substituted. -/
def plainText : List Part → Option String
  | [.text s false] => some s
  | _ => none

/-- A tilde at the beginning of a word stands for the home directory. -/
def withHome : List Part → List Part
  | .text s false :: rest =>
    match s.toList with
    | ['~'] => if rest.isEmpty then [.variable "HOME" true] else .text s false :: rest
    | '~' :: '/' :: more =>
      .variable "HOME" true :: .text (String.ofList ('/' :: more)) false :: rest
    | _ => .text s false :: rest
  | parts => parts

/-! ## Texts for input -/

/-- A text for input that has been announced: whether tabs in front of its lines are left out,
whether it is taken as it is, and the line that ends it. -/
structure Announced where
  /-- Are tabs in front of lines left out? -/
  tabless : Bool
  /-- Is it taken as it is? -/
  asIs : Bool
  /-- The line that ends it. -/
  ending : List Char

/-- The lines of a text up to the one that ends it, what follows that line, and whether there is
such a line. -/
def documentLines (a : Announced) : (fuel : Nat) → List Char → List Char × List Char × Bool
  | 0, cs => ([], cs, false)
  | _, [] => ([], [], false)
  | fuel + 1, cs =>
    let (line, rest) := cs.span (· != '\n')
    let line := if a.tabless then line.dropWhile (· == '\t') else line
    if line = a.ending then ([], rest.drop 1, true)
    else
      let (others, after, ended) := documentLines a fuel (rest.drop 1)
      (line ++ rest.take 1 ++ others, after, ended)

/-- The texts that have been announced, what follows them, and whether all of them have come to
their end. -/
def documentBodies : List Announced → List Char → Except String (List Word × List Char × Bool)
  | [], cs => .ok ([], cs, true)
  | a :: others, cs =>
    let (body, rest, ended) := documentLines a (cs.length + 1) cs
    let word : Except String Word :=
      if a.asIs then .ok [.text (String.ofList body) true]
      else (parts (2 * body.length + 2) .document body).map (·.1)
    match word with
    | .error reason => .error reason
    | .ok word =>
      (documentBodies others rest).map fun (words, rest, allEnded) =>
        (joinTexts word :: words, rest, ended && allEnded)

/-- The texts of all announced documents, put in the places where they were announced: goes from the
end to the beginning and keeps the texts that are still to be placed, the last one first. -/
def placed (ts : List Token) : List Token :=
  (ts.foldr (fun t (bodies, others) =>
    match t.symbol, others with
    | .documents words _, _ => (words.reverse, others)
    | .redirect stream "<<", ⟨.word .., line⟩ :: others =>
      match bodies with
      | body :: bodies => (bodies, t :: ⟨.word body none, line⟩ :: others)
      | [] => ([], ⟨.redirect stream "<<", t.line⟩ :: ⟨.word [] none, line⟩ :: others)
    | _, others => (bodies, t :: others)) (([] : List Word), ([] : List Token))).2

/-! ## Symbols -/

/-- The redirection that some characters begin, and what follows its operator. -/
def redirection : List Char → Option (String × List Char)
  | '>' :: '>' :: rest => some (">>", rest)
  | '>' :: '&' :: rest => some (">&", rest)
  | '>' :: '|' :: rest => some (">", rest)
  | '>' :: rest => some (">", rest)
  | '<' :: '<' :: '-' :: rest => some ("<<-", rest)
  | '<' :: '<' :: rest => some ("<<", rest)
  | '<' :: '&' :: rest => some ("<&", rest)
  | '<' :: '>' :: rest => some ("<", rest)
  | '<' :: rest => some ("<", rest)
  | _ => none

/-- The operator that some characters begin, and what follows it. -/
def division : List Char → Option (String × List Char)
  | '&' :: '&' :: rest => some ("&&", rest)
  | '|' :: '|' :: rest => some ("||", rest)
  | ';' :: ';' :: rest => some (";;", rest)
  | c :: rest => if "\n;&|()".contains c then some (String.singleton c, rest) else none
  | [] => none

/-- The text of a part that ends a text for input, and whether it is quoted. -/
def endingOf (word : List Part) : Bool × List Char :=
  (word.any fun
      | .text _ quoted => quoted
      | _ => false,
    word.flatMap fun
      | .text s _ => s.toList
      | .variable name _ => '$' :: name.toList
      | _ => [])

/-- How many lines end in what stands between two places of a script. -/
def linesBetween (before after : List Char) : Nat :=
  (before.take (before.length - after.length)).countP (· == '\n')

/-- All tokens from a line on. The texts for input that have been announced follow the end of the
line. -/
def scan : (fuel line : Nat) → (announced : List Announced) → List Char → List Token
  | 0, _, _, _ | _, _, _, [] => []
  | fuel + 1, line, announced, c :: rest =>
    if isSpace c then scan fuel line announced rest
    else if c = '#' then scan fuel line announced (rest.dropWhile (· != '\n'))
    else if c = '\\' && rest.head? == some '\n' then scan fuel (line + 1) announced (rest.drop 1)
    else if c = '\n' then
      match documentBodies announced.reverse rest with
      | .error reason => [⟨.fault reason, line⟩]
      | .ok (bodies, after, ended) =>
        let more := scan fuel (line + 1 + linesBetween rest after) [] after
        ⟨.operator "\n", line⟩ ::
          if bodies.isEmpty then more else ⟨.documents bodies ended, line⟩ :: more
    else
      let word (cs : List Char) : Except Token (List Part × List Char × Nat) :=
        match parts (2 * cs.length + 2) .outside cs with
        | .error reason => .error ⟨.fault reason, line + cs.countP (· == '\n')⟩
        | .ok (parts, rest) => .ok (joinTexts parts, rest, line + linesBetween cs rest)
      let redirect (stream : Option Nat) (text : String) (rest : List Char) : List Token :=
        if text = "<<" || text = "<<-" then
          match word (rest.dropWhile isSpace) with
          | .error fault => [fault]
          | .ok (ending, rest, line) =>
            let (asIs, lineText) := endingOf ending
            let a : Announced := ⟨text == "<<-", asIs, lineText⟩
            ⟨.redirect stream "<<", line⟩ :: ⟨.word ending none, line⟩ ::
              scan fuel line (a :: announced) rest
        else ⟨.redirect stream text, line⟩ :: scan fuel line announced rest
      match redirection (c :: rest), division (c :: rest) with
      | some (text, rest), _ => redirect none text rest
      | none, some (text, rest) => ⟨.operator text, line⟩ :: scan fuel line announced rest
      | none, none =>
        match c.isDigit, redirection rest with
        | true, some (text, rest) => redirect (some (c.toNat - '0'.toNat)) text rest
        | _, _ =>
          match word (c :: rest) with
          | .error fault => [fault]
          | .ok (parts, rest, last) =>
            ⟨.word (withHome parts) (plainText parts), line⟩ :: scan fuel last announced rest

/-- The tokens of a script that begins on a line, with the texts for input behind the line end after
which they stand. -/
def listed (line : Nat) (script : String) : List Token :=
  let cs := script.toList
  scan (cs.length + 1) line [] cs

/-- The tokens of a script that begins on a line. A text for input that is announced on the last
line is empty. -/
def ofScript (line : Nat) (script : String) : List Token := placed (listed line script)

/-- Does a script end in the middle of a quote, a bracket or a text for input? -/
def endsInside (script : String) : Bool :=
  (listed 1 script).any fun
    | ⟨.fault _, _⟩ | ⟨.documents _ false, _⟩ => true
    | _ => false

end Token
end KernelLink.Machine.Script
