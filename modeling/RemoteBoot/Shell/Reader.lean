import RemoteBoot.Shell.Grammar

/-!
# Reading shell scripts

A script is read from its characters without a separate step for tokens, because what a character
means depends on where it stands.  Every reader takes what it reads off the head of the text.  The
first argument bounds the depth of the recursion.
-/

set_option autoImplicit false

namespace RemoteBoot.Shell

def isNameStart (character : Char) : Bool :=
  character.isAlpha || character == '_'

def isNameCharacter (character : Char) : Bool :=
  character.isAlphanum || character == '_'

/-- Characters that end an unquoted word. -/
def endsWord (character : Char) : Bool :=
  [' ', '\t', '\n', ';', '&', '|', '<', '>', '(', ')'].contains character

/-- One-character parameters. -/
def isSpecial (character : Char) : Bool :=
  ['@', '*', '#', '?', '-', '$', '!'].contains character

/-- Where the parts of a word stand. -/
inductive Context where
  | bare
  | inQuotes
  /-- Inside the braces of a parameter. -/
  | braced (quoted : Bool)
  /-- Inside an arithmetic expression, with so many parentheses open. -/
  | sum (depth : Nat)

def Context.isQuoted : Context → Bool
  | .bare => false
  | .inQuotes => true
  | .braced inner => inner
  | .sum _ => true

/-- The text of a quotation up to its closing apostrophe. -/
def apostrophes? (text : Text) : Option (Text × Text) :=
  match text.dropWhile fun character => character ≠ '\'' with
  | _ :: rest => some (text.takeWhile fun character => character ≠ '\'', rest)
  | [] => none

/-- The text of an old-style substitution up to its closing backquote. -/
def backquoted? : Text → Option (Text × Text)
  | [] => none
  | '\x60' :: rest => some ([], rest)
  | '\\' :: character :: rest => do
    let (text, rest) ← backquoted? rest
    if character = '\x60' ∨ character = '\\' ∨ character = '$' then
      some (character :: text, rest)
    else some ('\\' :: character :: text, rest)
  | character :: rest => do
    let (text, rest) ← backquoted? rest
    some (character :: text, rest)

/-- Drops blanks, joined lines and a comment. -/
def dropBlanks : Text → Text
  | ' ' :: rest => dropBlanks rest
  | '\t' :: rest => dropBlanks rest
  | '\\' :: '\n' :: rest => dropBlanks rest
  | '#' :: rest => rest.dropWhile fun character => character ≠ '\n'
  | text => text

/-- Drops blanks, comments and line ends; the first argument bounds the number of lines. -/
def dropLines : Nat → Text → Text
  | 0, text => text
  | fuel + 1, text =>
    match dropBlanks text with
    | '\n' :: rest => dropLines fuel rest
    | rest => rest

/-- Words that structure commands. -/
def reservedWords : List Text :=
  ["if".toList, "then".toList, "else".toList, "elif".toList, "fi".toList, "do".toList,
    "done".toList, "while".toList, "until".toList, "for".toList, "case".toList, "esac".toList,
    "in".toList, "\x7b".toList, "\x7d".toList, "!".toList]

/-- A reserved word at the head of a text. -/
def reserved? (text : Text) : Option (Text × Text) :=
  let word := text.takeWhile fun character => !endsWord character
  if reservedWords.contains word then some (word, text.drop word.length) else none

/-- Takes one expected reserved word. -/
def expect? (word : String) (text : Text) : Option Text :=
  match reserved? text with
  | some (found, rest) => if found = word.toList then some rest else none
  | none => none

/-- Whether a list of commands ends here. -/
def endsList (text : Text) : Bool :=
  match text with
  | [] => true
  | ')' :: _ => true
  | ';' :: ';' :: _ => true
  | text =>
    match reserved? text with
    | some (word, _) =>
      ["then".toList, "else".toList, "elif".toList, "fi".toList, "do".toList, "done".toList,
        "esac".toList, "\x7d".toList].contains word
    | none => false

/-- A redirection operator with the descriptor it concerns. -/
def redirection? (text : Text) : Option (Nat × RedirectionKind × Text) :=
  let digits := text.takeWhile Char.isDigit
  let descriptor (standard : Nat) : Nat := (Numeral.ofDigits? 10 digits).getD standard
  match text.drop digits.length with
  | '>' :: '>' :: rest => some (descriptor 1, .append, rest)
  | '>' :: '&' :: rest => some (descriptor 1, .duplicate, rest)
  | '>' :: '|' :: rest => some (descriptor 1, .output, rest)
  | '>' :: rest => some (descriptor 1, .output, rest)
  | '<' :: '<' :: _ => none
  | '<' :: '&' :: rest => some (descriptor 0, .duplicate, rest)
  | '<' :: rest => some (descriptor 0, .input, rest)
  | _ => none

/-- The name in front of an equals sign, and what is behind it. -/
def assignment? (text : Text) : Option (Text × Text) :=
  let name := text.takeWhile isNameCharacter
  match name, text.drop name.length with
  | first :: _, '=' :: rest => if isNameStart first then some (name, rest) else none
  | _, _ => none

/-- The text of a word that is one plain name. -/
def plainName? (parts : List Part) : Option Text :=
  parts.foldlM (fun name part =>
    match part with
    | .literal text false => some (name ++ text)
    | _ => none) []

mutual

/-- The parts of a word up to the end of its context. -/
def parts? : Nat → Context → Text → Option (List Part × Text)
  | 0, _, _ => none
  | fuel + 1, context, text =>
    let more (part : Part) (context : Context) (rest : Text) : Option (List Part × Text) := do
      let (parts, rest) ← parts? fuel context rest
      some (part :: parts, rest)
    match context, text with
    | .bare, [] => some ([], [])
    | _, [] => none
    | .inQuotes, '"' :: rest => some ([], rest)
    | .braced _, '\x7d' :: rest => some ([], rest)
    | .sum 0, ')' :: rest =>
      match rest with
      | ')' :: rest => some ([], rest)
      | _ => none
    | .sum (depth + 1), ')' :: rest => more (.literal [')'] true) (.sum depth) rest
    | .sum depth, '(' :: rest => more (.literal ['('] true) (.sum (depth + 1)) rest
    | context, '\\' :: '\n' :: rest => parts? fuel context rest
    | context, '\\' :: character :: rest =>
      if context.isQuoted then
        if ['$', '\x60', '"', '\\', '\x7d'].contains character then
          more (.literal [character] true) context rest
        else more (.literal ['\\', character] true) context rest
      else more (.literal [character] true) context rest
    | context, '$' :: rest => do
      let (part, rest) ← dollar? fuel context.isQuoted rest
      more part context rest
    | context, '\x60' :: rest => do
      let (script, rest) ← backquoted? rest
      let (body, _) ← list? fuel script
      more (.output body context.isQuoted) context rest
    | .sum depth, '"' :: rest => parts? fuel (.sum depth) rest
    | context, '\'' :: rest =>
      if context.isQuoted then more (.literal ['\''] true) context rest
      else do
        let (quoted, rest) ← apostrophes? rest
        more (.literal quoted true) context rest
    | context, '"' :: rest => do
      let (inner, rest) ← parts? fuel .inQuotes rest
      let (parts, rest) ← parts? fuel context rest
      some (.literal [] true :: inner ++ parts, rest)
    | .bare, character :: rest =>
      if endsWord character then some ([], character :: rest)
      else more (.literal [character] false) .bare rest
    | context, character :: rest => more (.literal [character] context.isQuoted) context rest

/-- What stands behind a dollar sign. -/
def dollar? : Nat → Bool → Text → Option (Part × Text)
  | 0, _, _ => none
  | fuel + 1, quoted, text =>
    match text with
    | '(' :: '(' :: rest => do
      let (body, rest) ← parts? fuel (.sum 0) rest
      some (.sum body quoted, rest)
    | '(' :: rest => do
      let (body, rest) ← list? fuel rest
      match rest with
      | ')' :: rest => some (.output body quoted, rest)
      | _ => none
    | '\x7b' :: rest => braced? fuel quoted rest
    | character :: rest =>
      if isSpecial character ∨ character.isDigit then
        some (.parameter [character] .value quoted, rest)
      else if isNameStart character then
        let name := text.takeWhile isNameCharacter
        some (.parameter name .value quoted, text.drop name.length)
      else some (.literal ['$'] quoted, text)
    | [] => some (.literal ['$'] quoted, [])

/-- A parameter in braces, behind the opening one. -/
def braced? : Nat → Bool → Text → Option (Part × Text)
  | 0, _, _ => none
  | fuel + 1, quoted, text =>
    let (counted, text) :=
      match text with
      | '#' :: '\x7d' :: _ => (false, text)
      | '#' :: rest => (true, rest)
      | _ => (false, text)
    let name :=
      match text with
      | character :: _ =>
        if character.isDigit then text.takeWhile Char.isDigit
        else if isNameStart character then text.takeWhile isNameCharacter
        else if isSpecial character then [character]
        else []
      | [] => []
    if name = [] then none
    else
      let word (rest : Text) (use : List Part → Use) : Option (Part × Text) := do
        let (parts, rest) ← parts? fuel (.braced quoted) rest
        some (.parameter name (use parts) quoted, rest)
      let trim (atEnd longest : Bool) (rest : Text) : Option (Part × Text) := do
        let (pattern, rest) ← parts? fuel (.braced false) rest
        some (.parameter name (.trim atEnd longest pattern) quoted, rest)
      match text.drop name.length with
      | '\x7d' :: rest =>
        some (.parameter name (if counted then .length else .value) quoted, rest)
      | ':' :: operator :: rest =>
        if ['-', '=', '+', '?'].contains operator then word rest (.fallback operator true)
        else none
      | '%' :: '%' :: rest => trim true true rest
      | '%' :: rest => trim true false rest
      | '#' :: '#' :: rest => trim false true rest
      | '#' :: rest => trim false false rest
      | operator :: rest =>
        if ['-', '=', '+', '?'].contains operator then word rest (.fallback operator false)
        else none
      | [] => none

/-- The commands up to the end of a list. -/
def list? : Nat → Text → Option (Command × Text)
  | 0, _ => none
  | fuel + 1, text => do
    let text := dropLines fuel text
    if endsList text then some (.sequence [], text)
    else
      let (first, rest) ← joined? fuel text
      let rest := dropBlanks rest
      match rest with
      | ';' :: ';' :: _ => some (first, rest)
      | ';' :: rest => do
        let (others, rest) ← list? fuel rest
        some (.sequence [first, others], rest)
      | '&' :: rest => do
        let (others, rest) ← list? fuel rest
        some (.sequence [first, others], rest)
      | '\n' :: rest => do
        let (others, rest) ← list? fuel rest
        some (.sequence [first, others], rest)
      | rest => if endsList rest then some (first, rest) else none

/-- Pipes joined by `&&` and `||`. -/
def joined? : Nat → Text → Option (Command × Text)
  | 0, _ => none
  | fuel + 1, text => do
    let (first, rest) ← pipe? fuel text
    joints? fuel first rest

/-- What is joined to a command. -/
def joints? : Nat → Command → Text → Option (Command × Text)
  | 0, _, _ => none
  | fuel + 1, first, text =>
    match dropBlanks text with
    | '&' :: '&' :: rest => do
      let (second, rest) ← pipe? fuel (dropLines fuel rest)
      joints? fuel (.join first .onSuccess second) rest
    | '|' :: '|' :: rest => do
      let (second, rest) ← pipe? fuel (dropLines fuel rest)
      joints? fuel (.join first .onFailure second) rest
    | rest => some (first, rest)

/-- Commands joined by `|`. -/
def pipe? : Nat → Text → Option (Command × Text)
  | 0, _ => none
  | fuel + 1, text => do
    match expect? "!" text with
    | some rest => do
      let (body, rest) ← pipe? fuel (dropBlanks rest)
      some (.negate body, rest)
    | none => do
      let (stages, rest) ← stages? fuel text
      match stages with
      | [only] => some (only, rest)
      | stages => some (.pipe stages, rest)

def stages? : Nat → Text → Option (List Command × Text)
  | 0, _ => none
  | fuel + 1, text => do
    let (first, rest) ← command? fuel text
    match dropBlanks rest with
    | '|' :: '|' :: rest => some ([first], '|' :: '|' :: rest)
    | '|' :: rest => do
      let (others, rest) ← stages? fuel (dropLines fuel rest)
      some (first :: others, rest)
    | rest => some ([first], rest)

/-- A command: one that starts with a reserved word or a parenthesis, or a simple one. -/
def command? : Nat → Text → Option (Command × Text)
  | 0, _ => none
  | fuel + 1, text => do
    let finish (body : Command) (rest : Text) : Option (Command × Text) := do
      let (redirections, rest) ← redirections? fuel rest
      some (if redirections.isEmpty then body else .redirect body redirections, rest)
    match text with
    | '(' :: rest => do
      let (body, rest) ← list? fuel rest
      match rest with
      | ')' :: rest => finish (.subshell body) rest
      | _ => none
    | text =>
      match reserved? text with
      | none => simple? fuel [] [] [] text
      | some (word, rest) =>
        if word = "if".toList then do
          let (body, rest) ← branches? fuel rest
          finish body rest
        else if word = "while".toList ∨ word = "until".toList then do
          let (condition, rest) ← list? fuel rest
          let rest ← expect? "do" rest
          let (body, rest) ← list? fuel rest
          let rest ← expect? "done" rest
          finish (.loop (word = "while".toList) condition body) rest
        else if word = "for".toList then do
          let rest := dropBlanks rest
          let name := rest.takeWhile isNameCharacter
          let rest := dropLines fuel (rest.drop name.length)
          let (words, rest) ←
            match expect? "in" rest with
            | some rest => words? fuel rest
            | none =>
              some ([[.parameter ['@'] .value true]],
                match rest with
                | ';' :: rest => rest
                | rest => rest)
          let rest ← expect? "do" (dropLines fuel rest)
          let (body, rest) ← list? fuel rest
          let rest ← expect? "done" rest
          finish (.each name words body) rest
        else if word = "case".toList then do
          let (subject, rest) ← parts? fuel .bare (dropBlanks rest)
          let rest ← expect? "in" (dropLines fuel rest)
          let (arms, rest) ← arms? fuel rest
          finish (.select subject arms) rest
        else if word = "\x7b".toList then do
          let (body, rest) ← list? fuel rest
          let rest ← expect? "\x7d" rest
          finish body rest
        else none

/-- What follows `if` or `elif`. -/
def branches? : Nat → Text → Option (Command × Text)
  | 0, _ => none
  | fuel + 1, text => do
    let (condition, rest) ← list? fuel text
    let rest ← expect? "then" rest
    let (body, rest) ← list? fuel rest
    let (word, rest) ← reserved? rest
    if word = "fi".toList then some (.choose condition body (.sequence []), rest)
    else if word = "elif".toList then do
      let (others, rest) ← branches? fuel rest
      some (.choose condition body others, rest)
    else if word = "else".toList then do
      let (others, rest) ← list? fuel rest
      let rest ← expect? "fi" rest
      some (.choose condition body others, rest)
    else none

/-- The words of a loop, up to the end of the line. -/
def words? : Nat → Text → Option (List (List Part) × Text)
  | 0, _ => none
  | fuel + 1, text =>
    match dropBlanks text with
    | ';' :: rest => some ([], rest)
    | '\n' :: rest => some ([], rest)
    | [] => none
    | rest => do
      let (word, rest) ← parts? fuel .bare rest
      if word.isEmpty then none
      else
        let (words, rest) ← words? fuel rest
        some (word :: words, rest)

/-- The arms of a `case` up to its end. -/
def arms? : Nat → Text → Option (List (List (List Part) × Command) × Text)
  | 0, _ => none
  | fuel + 1, text => do
    let text := dropLines fuel text
    match expect? "esac" text with
    | some rest => some ([], rest)
    | none => do
      let text :=
        match text with
        | '(' :: rest => rest
        | text => text
      let (patterns, rest) ← patterns? fuel text
      let (body, rest) ← list? fuel rest
      match rest with
      | ';' :: ';' :: rest => do
        let (arms, rest) ← arms? fuel rest
        some ((patterns, body) :: arms, rest)
      | rest => do
        let rest ← expect? "esac" rest
        some ([(patterns, body)], rest)

/-- The patterns of an arm up to their parenthesis. -/
def patterns? : Nat → Text → Option (List (List Part) × Text)
  | 0, _ => none
  | fuel + 1, text => do
    let (pattern, rest) ← parts? fuel .bare (dropBlanks text)
    match dropBlanks rest with
    | ')' :: rest => some ([pattern], rest)
    | '|' :: rest => do
      let (patterns, rest) ← patterns? fuel rest
      some (pattern :: patterns, rest)
    | _ => none

def redirections? : Nat → Text → Option (List Redirection × Text)
  | 0, _ => none
  | fuel + 1, text =>
    match redirection? (dropBlanks text) with
    | none => some ([], text)
    | some (descriptor, kind, rest) => do
      let (target, rest) ← parts? fuel .bare (dropBlanks rest)
      let (others, rest) ← redirections? fuel rest
      some (.mk descriptor kind target :: others, rest)

/-- A simple command behind what was read of it, newest first. -/
def simple? : Nat → List (Text × List Part) → List (List Part) → List Redirection → Text →
    Option (Command × Text)
  | 0, _, _, _, _ => none
  | fuel + 1, assignments, words, redirections, text =>
    let text := dropBlanks text
    match redirection? text with
    | some (descriptor, kind, rest) => do
      let (target, rest) ← parts? fuel .bare (dropBlanks rest)
      simple? fuel assignments words (.mk descriptor kind target :: redirections) rest
    | none =>
      let finished : Option (Command × Text) :=
        if assignments.isEmpty && words.isEmpty && redirections.isEmpty then none
        else some (.simple assignments.reverse words.reverse redirections.reverse, text)
      match text with
      | [] => finished
      | '(' :: rest => do
        match words with
        | [word] => do
          let name ← plainName? word
          match dropBlanks rest with
          | ')' :: rest => do
            let (body, rest) ← command? fuel (dropLines fuel rest)
            some (.define name body, rest)
          | _ => none
        | _ => none
      | character :: _ =>
        if endsWord character then finished
        else
          match (if words.isEmpty then assignment? text else none) with
          | some (name, rest) => do
            let (value, rest) ← parts? fuel .bare rest
            simple? fuel ((name, value) :: assignments) words redirections rest
          | none => do
            let (word, rest) ← parts? fuel .bare text
            simple? fuel assignments (word :: words) redirections rest

end

/-- The command that a script is. -/
def script? (text : Text) : Option Command :=
  match list? (32 * text.length + 64) text with
  | some (command, []) => some command
  | _ => none

end RemoteBoot.Shell
