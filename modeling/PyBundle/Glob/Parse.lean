import PyBundle.Glob.Token

/-!
# Reading globs

A glob is read from left to right. While choices are open, the tokens of each branch lie on a stack, the
current branch on top; a branch keeps its tokens from the last to the first.
-/

namespace PyBundle.Glob

/-! ## Classes -/

/-- The ranges of a class, the last one first, and whether a range is half read. -/
structure ClassState where
  ranges : List (Char × Char) := []
  inRange : Bool := false

/-- Reads a character of a class. A `-` between two characters makes a range of them. -/
def ClassState.take (s : ClassState) (first : Bool) (c : Char) : Except Error ClassState :=
  match s.inRange, s.ranges with
  | true, (low, _) :: below =>
    if c < low then .error (.invalidRange low c) else .ok ⟨(low, c) :: below, false⟩
  | _, ranges => if c == '-' && !first then .ok ⟨ranges, true⟩ else .ok ⟨(c, c) :: ranges, false⟩

/-- The ranges of a class that is closed, in order. A `-` at its end stands for itself. -/
def ClassState.close (s : ClassState) : List (Char × Char) :=
  ((if s.inRange then [('-', '-')] else []) ++ s.ranges).reverse

/-- Reads a class behind its bracket and its negation. A bracket at its front does not close it. -/
def readClass (s : ClassState) (first : Bool) : List Char → Except Error (List (Char × Char) × List Char)
  | [] => .error .unclosedClass
  | c :: rest =>
    if c == ']' && !first then .ok (s.close, rest)
    else
      match s.take first c with
      | .error e => .error e
      | .ok s => readClass s false rest

/-- **Reads a class** behind its bracket. -/
def parseClass : List Char → Except Error (Token × List Char)
  | [] => .error .unclosedClass
  | c :: rest =>
    let negated := c == '!' || c == '^'
    match readClass {} true (if negated then rest else c :: rest) with
    | .error e => .error e
    | .ok (ranges, rest) => .ok (.oneOf negated ranges, rest)

/-! ## Globs -/

/-- **What is read of a glob:** the branches that are open, the current one first, and for each open
choice the number of branches below it. -/
structure State where
  branches : List (List Token) := [[]]
  choices : List Nat := []

namespace State

/-- Adds a token to the current branch. -/
def push (s : State) (t : Token) : State :=
  match s.branches with
  | branch :: below => { s with branches := (t :: branch) :: below }
  | [] => s

/-- Opens a choice. -/
def openChoice (s : State) : State :=
  { branches := [] :: s.branches, choices := s.branches.length :: s.choices }

/-- A comma starts a branch of the open choice, or stands for itself. -/
def comma (s : State) : State :=
  if s.choices.isEmpty then s.push (.literal ',') else { s with branches := [] :: s.branches }

/-- Closes a choice. -/
def closeChoice (s : State) : Except Error State :=
  match s.choices with
  | [] => .error .unopenedChoice
  | below :: choices =>
    let count := s.branches.length - below
    let branches := ((s.branches.take count).map List.reverse).reverse
    .ok (State.push { branches := s.branches.drop count, choices } (.choice branches))

/-- Replaces the slash before two stars by the token of the stars. -/
def replaceSlash (s : State) (t : Token) : State :=
  match s.branches with
  | (last :: branch) :: below =>
    let kept := match last with
      | .anyStart => .anyStart
      | .anyEnd => .anyEnd
      | _ => t
    { s with branches := (kept :: branch) :: below }
  | _ => s

/-- Two stars, behind a character and before a text: they stand for directories if they fill the space
between slashes or the ends of a branch. The answer is what is left of the text. -/
def twoStars (s : State) (before : Option Char) (rest : List Char) : State × List Char :=
  let plain := ((s.push .many).push .many, rest)
  if s.branches.head?.all (·.isEmpty) then
    match rest with
    | [] => (s.push .anyStart, [])
    | '/' :: rest => (s.push .anyStart, rest)
    | _ => plain
  else if before != some '/' &&
      (s.branches.length ≤ 1 || (before != some ',' && before != some '\x7b')) then plain
  else
    match rest with
    | [] => (s.replaceSlash .anyEnd, [])
    | '/' :: rest => (s.replaceSlash .anyMiddle, rest)
    | c :: _ =>
      if (c == ',' || c == '\x7d') && 2 ≤ s.branches.length then (s.replaceSlash .anyEnd, rest)
      else plain

end State

/-- The character before what is left of a text, where some characters were taken. -/
def lastTaken (before : Option Char) (text left : List Char) : Option Char :=
  ((text.take (text.length - left.length)).getLast?).or before

/-- Reads a glob behind a character. The fuel bounds the characters. -/
def parseAux : Nat → State → Option Char → List Char → Except Error State
  | 0, s, _, _ => .ok s
  | _, s, _, [] => .ok s
  | fuel + 1, s, before, c :: rest =>
    match c with
    | '?' => parseAux fuel (s.push .any) (some c) rest
    | '*' =>
      match rest with
      | '*' :: rest =>
        let (s, left) := s.twoStars before rest
        parseAux fuel s (lastTaken (some '*') rest left) left
      | _ => parseAux fuel (s.push .many) (some c) rest
    | '[' =>
      match parseClass rest with
      | .error e => .error e
      | .ok (t, left) => parseAux fuel (s.push t) (some ']') left
    | '\x7b' => parseAux fuel s.openChoice (some c) rest
    | '\x7d' =>
      match s.closeChoice with
      | .error e => .error e
      | .ok s => parseAux fuel s (some c) rest
    | ',' => parseAux fuel s.comma (some c) rest
    | '\\' =>
      match rest with
      | [] => .error .danglingEscape
      | escaped :: rest => parseAux fuel (s.push (.literal escaped)) (some escaped) rest
    | _ => parseAux fuel (s.push (.literal c)) (some c) rest

/-- **The glob that a text is.** -/
def parse (text : String) : Except Error (List Token) :=
  match parseAux (text.length + 1) {} none text.toList with
  | .error e => .error e
  | .ok s =>
    match s.branches with
    | [branch] => .ok branch.reverse
    | _ => .error .unclosedChoice

end PyBundle.Glob
