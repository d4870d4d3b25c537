import PyBundle.Shell.Command

/-!
# Reading shell scripts

A script is cut into tokens first, and commands are read from the tokens. Each reader of commands leaves
the tokens that it does not take.
-/

namespace PyBundle.Shell

/-! ## Tokens -/

/-- **A token.** -/
inductive Token where
  | word (w : Word)
  /-- A sign that separates commands, or `(` or `)`. -/
  | sign (text : String)
  | redirect (stream : Stream) (append : Bool)
  | duplicate (stream target : Stream)
  /-- The sign for input, which no command reads. -/
  | input
  deriving DecidableEq, Repr, Inhabited

/-- Whether a character belongs to the name of a variable. -/
def isNameChar (c : Char) : Bool := c.isAlphanum || c == '_'

/-- Whether a character ends a word. -/
def endsWord (c : Char) : Bool := [' ', '\t', '\n', ';', '&', '|', '<', '>', '(', ')'].contains c

/-- The piece of a parameter. -/
def parameter (name : String) (quoted : Bool) : Piece :=
  if name == "@" || (name == "*" && !quoted) then .arguments quoted else .value name quoted

/-- Reads a parameter behind its dollar. -/
def readParameter (quoted : Bool) (cs : List Char) : Piece × List Char :=
  match cs with
  | '\x7b' :: rest =>
    (parameter (String.ofList (rest.takeWhile (· != '\x7d'))) quoted, (rest.dropWhile (· != '\x7d')).drop 1)
  | c :: rest =>
    if c.isDigit || ['@', '*', '#', '?', '$'].contains c then (parameter c.toString quoted, rest)
    else if isNameChar c then
      (parameter (String.ofList (cs.takeWhile isNameChar)) quoted, cs.dropWhile isNameChar)
    else (.text "$", cs)
  | [] => (.text "$", [])

/-- Where a word is read. -/
inductive Quoting where
  | bare
  | single
  | double
  deriving DecidableEq, Repr

/-- Reads a word, after some pieces in reverse. The fuel bounds the length of the text. There is none if a
quote is not closed. -/
def readWord : Nat → Quoting → Word → List Char → Option (Word × List Char)
  | 0, _, _, _ => none
  | fuel + 1, .single, taken, cs =>
    let text := cs.takeWhile (· != '\'')
    match cs.dropWhile (· != '\'') with
    | _ :: rest => readWord fuel .bare (.text (String.ofList text) :: taken) rest
    | [] => none
  | fuel + 1, .double, taken, cs =>
    match cs with
    | [] => none
    | '"' :: rest => readWord fuel .bare taken rest
    | '\\' :: '\n' :: rest => readWord fuel .double taken rest
    | '\\' :: c :: rest =>
      let kept := if ['"', '\\', '$', '\x60'].contains c then [c] else ['\\', c]
      readWord fuel .double (.text (String.ofList kept) :: taken) rest
    | '$' :: rest =>
      let (piece, rest) := readParameter true rest
      readWord fuel .double (piece :: taken) rest
    | c :: rest => readWord fuel .double (.text c.toString :: taken) rest
  | fuel + 1, .bare, taken, cs =>
    match cs with
    | [] => some (taken.reverse, [])
    | '\'' :: rest => readWord fuel .single taken rest
    | '"' :: '$' :: '@' :: '"' :: rest => readWord fuel .bare (.arguments true :: taken) rest
    | '"' :: rest => readWord fuel .double (.text "" :: taken) rest
    | '\\' :: '\n' :: rest => readWord fuel .bare taken rest
    | '\\' :: c :: rest => readWord fuel .bare (.text c.toString :: taken) rest
    | '$' :: rest =>
      let (piece, rest) := readParameter false rest
      readWord fuel .bare (piece :: taken) rest
    | c :: rest =>
      if endsWord c then some (taken.reverse, cs) else readWord fuel .bare (.text c.toString :: taken) rest

/-- The stream of a number. -/
def stream? : Char → Option Stream
  | '1' => some .output
  | '2' => some .diagnostics
  | _ => none

/-- Reads a redirection behind its sign. -/
def readRedirect (stream : Stream) (cs : List Char) : Option (Token × List Char) :=
  match cs with
  | '&' :: c :: rest => (stream? c).map fun target => (.duplicate stream target, rest)
  | '>' :: rest => some (.redirect stream true, rest)
  | rest => some (.redirect stream false, rest)

/-- Reads tokens, each with the number of its line. The fuel bounds the length of the text. -/
def readTokens : Nat → Nat → List Char → Option (List (Nat × Token))
  | 0, _, _ => none
  | fuel + 1, line, cs =>
    let then_ (token : Option (Token × List Char)) : Option (List (Nat × Token)) :=
      match token with
      | none => none
      | some (token, rest) => (readTokens fuel line rest).map ((line, token) :: ·)
    match cs with
    | [] => some []
    | ' ' :: rest => readTokens fuel line rest
    | '\t' :: rest => readTokens fuel line rest
    | '#' :: rest => readTokens fuel line (rest.dropWhile (· != '\n'))
    | '\n' :: rest => (readTokens fuel (line + 1) rest).map ((line, .sign ";") :: ·)
    | ';' :: ';' :: rest => then_ (some (.sign ";;", rest))
    | ';' :: rest => then_ (some (.sign ";", rest))
    | '&' :: '&' :: rest => then_ (some (.sign "&&", rest))
    | '|' :: '|' :: rest => then_ (some (.sign "||", rest))
    | '|' :: rest => then_ (some (.sign "|", rest))
    | '(' :: rest => then_ (some (.sign "(", rest))
    | ')' :: rest => then_ (some (.sign ")", rest))
    | '&' :: _ => none
    | '<' :: rest => then_ (some (.input, rest))
    | '>' :: rest => then_ (readRedirect .output rest)
    | '1' :: '>' :: rest => then_ (readRedirect .output rest)
    | '2' :: '>' :: rest => then_ (readRedirect .diagnostics rest)
    | cs =>
      match readWord (cs.length + 1) .bare [] cs with
      | none => none
      | some (w, rest) => then_ (some (.word w, rest))

/-! ## Commands -/

/-- The tokens that are left, each with its line. -/
abbrev Tokens := List (Nat × Token)

/-- The text of a word that has no quotes and no values. -/
def plainText (w : Word) : Option String :=
  w.foldr
    (fun piece text => match piece, text with
      | .text s, some text => some (s ++ text)
      | _, _ => none)
    (some "")

/-- The keyword or sign at the front. -/
def keyword? : Tokens → Option String
  | (_, .word w) :: _ => plainText w
  | (_, .sign s) :: _ => some s
  | _ => none

/-- Tokens without separators at their front. -/
def skipSeparators (ts : Tokens) : Tokens := ts.dropWhile (·.2 == .sign ";")

/-- Tokens behind a keyword, if it is the next one. -/
def expect (text : String) (ts : Tokens) : Option Tokens :=
  if keyword? ts == some text then some (ts.drop 1) else none

/-- The redirections at the front. -/
def readRedirects : Tokens → Option (List Redirect × Tokens)
  | (_, .redirect stream append) :: (_, .word w) :: rest =>
    (readRedirects rest).map fun (rs, rest) => (.toFile stream append w :: rs, rest)
  | (_, .redirect _ _) :: _ => none
  | (_, .duplicate stream target) :: rest =>
    (readRedirects rest).map fun (rs, rest) => (.toStream stream target :: rs, rest)
  | (_, .input) :: (_, .word _) :: rest => readRedirects rest
  | (_, .input) :: _ => none
  | ts => some ([], ts)

/-- The words and redirections of a simple command. -/
def readWords : Tokens → Option (List Word × List Redirect × Tokens)
  | (_, .word w) :: rest => (readWords rest).map fun (ws, rs, rest) => (w :: ws, rs, rest)
  | (_, .redirect stream append) :: (_, .word w) :: rest =>
    (readWords rest).map fun (ws, rs, rest) => (ws, .toFile stream append w :: rs, rest)
  | (_, .redirect _ _) :: _ => none
  | (_, .duplicate stream target) :: rest =>
    (readWords rest).map fun (ws, rs, rest) => (ws, .toStream stream target :: rs, rest)
  | (_, .input) :: (_, .word _) :: rest => readWords rest
  | (_, .input) :: _ => none
  | ts => some ([], [], ts)

/-- The assignment that a word is. -/
def assignment? (w : Word) : Option (String × Word) :=
  -- the pieces of an unquoted text hold a character each
  let name := w.takeWhile fun piece => match piece with
    | .text s => s != "=" && s != "" && s.toList.all isNameChar
    | _ => false
  match name, w.drop name.length with
  | .text first :: _, .text "=" :: value =>
    if first.toList.all (·.isDigit) then none else (plainText name).map fun name => (name, value)
  | _, _ => none

/-- A simple command of words, where assignments stand at the front. -/
def simpleCommand (line : Nat) (words : List Word) (redirects : List Redirect) : Command :=
  let assignments := (words.takeWhile fun w => (assignment? w).isSome).filterMap assignment?
  .simple line assignments (words.drop assignments.length) redirects

/-- The words that end the commands inside another command. -/
def closers : List String := ["do", "done", "then", "elif", "else", "fi", "esac", ";;", ")"]

/-- The patterns in front of a closing parenthesis. -/
def readPatterns : Tokens → Option (List Word × Tokens)
  | (_, .word w) :: (_, .sign "|") :: rest => (readPatterns rest).map fun (ws, rest) => (w :: ws, rest)
  | (_, .word w) :: (_, .sign ")") :: rest => some ([w], rest)
  | (_, .sign "(") :: rest => readPatterns rest
  | _ => none

mutual
/-- Reads commands up to a word that ends them. The fuel bounds the number of tokens. -/
def readCommands : Nat → Tokens → Option (List Command × Tokens)
  | 0, _ => none
  | fuel + 1, ts =>
    let ts := skipSeparators ts
    if ts.isEmpty || (keyword? ts).any closers.contains then some ([], ts)
    else
      match readChain fuel ts with
      | none => none
      | some (c, ts) =>
        match ts with
        | [] => some ([c], [])
        | _ =>
          if (keyword? ts).any fun k => k == ";" || closers.contains k then
            (readCommands fuel ts).map fun (cs, ts) => (c :: cs, ts)
          else none
/-- Reads commands that depend on each other. -/
def readChain : Nat → Tokens → Option (Command × Tokens)
  | 0, _ => none
  | fuel + 1, ts =>
    match readCommand fuel ts with
    | none => none
    | some (c, ts) => readLinks fuel c ts
/-- Reads what depends on a command. -/
def readLinks : Nat → Command → Tokens → Option (Command × Tokens)
  | 0, _, _ => none
  | fuel + 1, first, ts =>
    match ts with
    | (_, .sign "&&") :: rest =>
      match readCommand fuel (skipSeparators rest) with
      | some (second, ts) => readLinks fuel (.andThen first second) ts
      | none => none
    | (_, .sign "||") :: rest =>
      match readCommand fuel (skipSeparators rest) with
      | some (second, ts) => readLinks fuel (.orElse first second) ts
      | none => none
    | ts => some (first, ts)
/-- Reads a command. -/
def readCommand : Nat → Tokens → Option (Command × Tokens)
  | 0, _ => none
  | fuel + 1, ts =>
    match keyword? ts with
    | some "!" => (readCommand fuel (ts.drop 1)).map fun (c, ts) => (.negated c, ts)
    | some "if" => do
      let (branches, otherwise, ts) ← readBranches fuel (ts.drop 1)
      let (redirects, ts) ← readRedirects ts
      return (.choose branches otherwise redirects, ts)
    | some "for" => do
      let name ← keyword? (ts.drop 1)
      let ts := ts.drop 2
      let (words, ts) ←
        match expect "in" ts with
        | some ts =>
          let words := ts.takeWhile fun t => t.2 != .sign ";"
          let given := words.filterMap fun t => match t.2 with
            | .word w => some w
            | _ => none
          if given.length == words.length then some (given, ts.drop words.length) else none
        | none => some ([[.arguments true]], ts)
      let ts ← expect "do" (skipSeparators ts)
      let (body, ts) ← readCommands fuel ts
      let ts ← expect "done" ts
      let (redirects, ts) ← readRedirects ts
      return (.forEach name words body redirects, ts)
    | some "case" =>
      match ts.drop 1 with
      | (_, .word w) :: ts => do
        let ts ← expect "in" (skipSeparators ts)
        let (branches, ts) ← readCases fuel ts
        let (redirects, ts) ← readRedirects ts
        return (.byPattern w branches redirects, ts)
      | _ => none
    | _ =>
      match readWords ts with
      | some (words, redirects, rest) =>
        if rest.length == ts.length then none
        else some (simpleCommand ((ts.head?.map (·.1)).getD 0) words redirects, rest)
      | none => none
/-- Reads the branches behind `if`. -/
def readBranches : Nat → Tokens → Option (List (List Command × List Command) × List Command × Tokens)
  | 0, _ => none
  | fuel + 1, ts => do
    let (condition, ts) ← readCommands fuel ts
    let ts ← expect "then" ts
    let (body, ts) ← readCommands fuel ts
    match keyword? ts with
    | some "fi" => return ([(condition, body)], [], ts.drop 1)
    | some "elif" =>
      let (branches, otherwise, ts) ← readBranches fuel (ts.drop 1)
      return ((condition, body) :: branches, otherwise, ts)
    | some "else" =>
      let (otherwise, ts) ← readCommands fuel (ts.drop 1)
      let ts ← expect "fi" ts
      return ([(condition, body)], otherwise, ts)
    | _ => none
/-- Reads the branches behind `case`. -/
def readCases : Nat → Tokens → Option (List (List Word × List Command) × Tokens)
  | 0, _ => none
  | fuel + 1, ts =>
    let ts := skipSeparators ts
    if keyword? ts == some "esac" then some ([], ts.drop 1)
    else do
      let (patterns, ts) ← readPatterns ts
      let (body, ts) ← readCommands fuel ts
      match keyword? ts with
      | some ";;" =>
        let (branches, ts) ← readCases fuel (ts.drop 1)
        return ((patterns, body) :: branches, ts)
      | some "esac" => return ([(patterns, body)], ts.drop 1)
      | _ => none
end

/-- **The commands of a script.** There are none if something in it is not understood. -/
def readScript (text : String) : Option (List Command) :=
  match readTokens (text.length + 1) 1 text.toList with
  | none => none
  | some ts =>
    match readCommands (4 * ts.length + 4) ts with
    | some (commands, []) => some commands
    | _ => none

end PyBundle.Shell
