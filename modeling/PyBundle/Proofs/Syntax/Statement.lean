import PyBundle.Proofs.Lexer.Identifier
import PyBundle.Proofs.Syntax.Piece

/-!
# Import statements

The import statements of Python as they are written down (`Statement.text`), the nodes that the grammar makes of them
(`Statement.piece`) and what they import (`Statement.lines`). The nodes spell out what is written
(`chars_piece`), and reading them gives what is imported (`imports_piece`).
-/

namespace PyBundle.Syntax

open Lexer (Source StandsAt)

/-! ## Names -/

/-- The keywords of Python. -/
def keywords : List String :=
  ["False", "None", "True", "and", "as", "assert", "async", "await", "break", "class", "continue", "def", "del", "elif",
    "else", "except", "finally", "for", "from", "global", "if", "import", "in", "is", "lambda", "nonlocal", "not", "or",
    "pass", "raise", "return", "try", "while", "with", "yield"]

/-- **A name:** an identifier that is no keyword. The name of the future has statements of its own. -/
structure Name where
  text : String
  identifier : Text.isIdentifier text = true
  notKeyword : text ∉ keywords
  notFuture : text ≠ "__future__"

/-- A name does not go over the end of a line. -/
theorem Name.noBreak (name : Name) : '\n' ∉ name.text.toList := by
  obtain ⟨c, cs, split, start, more⟩ := Lexer.exists_of_isIdentifier name.identifier
  rw [split]
  rintro (_ | ⟨_, later⟩)
  · exact absurd start (by decide)
  · exact absurd (more _ later) (by decide)

/-! ## Rows -/

/-- **One or more things in a row.** -/
structure Row (α : Type) where
  first : α
  rest : List α

namespace Row

variable {α β : Type} {r : Row α} {separator gap blanks : String} {comma : Piece} {f : String → α → Piece}
  {t : α → String}

/-- All things of a row. -/
def all (r : Row α) : List α := r.first :: r.rest

/-- The text of a row, with a separator between any two. -/
def text (separator : String) (t : α → String) (r : Row α) : String := separator.intercalate (r.all.map t)

/-- The nodes of a row, with blanks before each and a token between any two. -/
def pieces (comma : Piece) (gap : String) (f : String → α → Piece) (blanks : String) (r : Row α) : List Piece :=
  f blanks r.first :: r.rest.flatMap fun a => [comma, f gap a]

theorem toList_text : (r.text separator t).toList =
    (t r.first).toList ++ r.rest.flatMap fun a => separator.toList ++ (t a).toList := by
  obtain ⟨first, rest⟩ := r
  unfold text all
  induction rest generalizing first with
  | nil => simp
  | cons a rest ih =>
    rw [List.map_cons, List.map_cons, String.intercalate_cons_cons, String.toList_append, String.toList_append,
      ← List.map_cons, ih a, List.flatMap_cons]
    simp only [List.append_assoc]

/-- **The nodes of a row spell out its text.** -/
theorem chars_pieces (spells : ∀ blanks a, (f blanks a).chars = blanks.toList ++ (t a).toList)
    (separates : comma.chars ++ gap.toList = separator.toList) :
    (r.pieces comma gap f blanks).flatMap Piece.chars = blanks.toList ++ (r.text separator t).toList := by
  have between : (fun a => [comma, f gap a].flatMap Piece.chars) = fun a => separator.toList ++ (t a).toList := by
    funext a
    simp [spells, ← separates]
  rw [pieces, List.flatMap_cons, List.flatMap_assoc, between, spells, toList_text, List.append_assoc]

/-- What is read from the nodes of a row, if nothing is read from the tokens between them. -/
theorem filterMap_pieces {g : Piece → Option β} {h : α → β} (reads : ∀ blanks a, g (f blanks a) = some (h a))
    (silent : g comma = none) : (r.pieces comma gap f blanks).filterMap g = r.all.map h := by
  have each (rest : List α) : (rest.flatMap fun a => [comma, f gap a]).filterMap g = rest.map h := by
    induction rest with
    | nil => rfl
    | cons a rest ih => simp [reads, silent, ih]
  rw [pieces, List.filterMap_cons_some (reads ..), each, all, List.map_cons]

/-- A character that is in no text of a row and does not separate them is not in the text of the row. -/
theorem notMem_text {c : Char} (each : ∀ a, c ∉ (t a).toList) (between : c ∉ separator.toList) :
    c ∉ (r.text separator t).toList := by
  rw [toList_text]
  intro mem
  rcases List.mem_append.mp mem with first | later
  · exact each _ first
  · obtain ⟨a, -, here⟩ := List.mem_flatMap.mp later
    exact (List.mem_append.mp here).elim between (each a)

theorem forall_mem_pieces {P : Piece → Prop} (each : ∀ blanks a, P (f blanks a)) (between : P comma) :
    ∀ p ∈ r.pieces comma gap f blanks, P p := by
  intro p mem
  rcases List.mem_cons.mp mem with rfl | later
  · exact each ..
  · obtain ⟨a, -, here⟩ := List.mem_flatMap.mp later
    rcases List.mem_cons.mp here with rfl | here
    · exact between
    · exact List.mem_singleton.mp here ▸ each ..

end Row

/-! ## What is written, what the grammar makes of it -/

/-- The token of a name. -/
def Name.piece (blanks : String) (name : Name) : Piece := .leaf "identifier" blanks name.text

/-- **A dotted name:** names with single dots between. -/
abbrev Dotted := Row Name

namespace Dotted

def text (d : Dotted) : String := Row.text "." Name.text d

def piece (blanks : String) (d : Dotted) : Piece :=
  .node "dotted_name" (d.pieces (.leaf "." "" ".") "" Name.piece blanks)

end Dotted

/-- **A name in an import list,** perhaps with another name for what is imported. -/
structure Item where
  name : Dotted
  alias? : Option Name := none

namespace Item

def text (i : Item) : String :=
  match i.alias? with
  | none => i.name.text
  | some other => i.name.text ++ " as " ++ other.text

def piece (blanks : String) (i : Item) : Piece :=
  match i.alias? with
  | none => i.name.piece blanks
  | some other => .node "aliased_import" [i.name.piece blanks, .leaf "as" " " "as", other.piece " "]

end Item

/-- **The names of an import,** with commas between. -/
abbrev Items := Row Item

namespace Items

def text (is : Items) : String := Row.text ", " Item.text is

def pieces (blanks : String) (is : Items) : List Piece := Row.pieces (.leaf "," "" ",") " " Item.piece blanks is

end Items

/-- **The module that names are imported from.** After at least one dot its name may be left out. -/
inductive Origin where
  | absolute (name : Dotted)
  | relative (moreDots : Nat) (name? : Option Dotted)

namespace Origin

/-- The number of leading dots. -/
def level : Origin → Nat
  | absolute _ => 0
  | relative moreDots _ => moreDots + 1

/-- The name behind the dots. -/
def name : Origin → String
  | absolute name => name.text
  | relative _ name? => name?.elim "" Dotted.text

def text (o : Origin) : String := String.ofList (List.replicate o.level '.') ++ o.name

/-- The node of leading dots. -/
def dots (moreDots : Nat) : Piece :=
  .node "import_prefix" (.leaf "." " " "." :: List.replicate moreDots (.leaf "." "" "."))

def piece : Origin → Piece
  | absolute name => name.piece " "
  | relative moreDots name? => .node "relative_import" (dots moreDots :: (name?.map (Dotted.piece "")).toList)

end Origin

/-- **An import statement.** A list of names that are imported from a module may stand in parentheses, and a comma may
stand behind it. -/
inductive Statement where
  | importModules (items : Items)
  | importNames (origin : Origin) (items : Items) (enclosed comma : Bool)
  | importAll (origin : Origin)

namespace Statement

/-- **The statement as it is written.** -/
def text : Statement → String
  | importModules items => "import " ++ items.text
  | importNames origin items enclosed comma =>
    "from " ++ origin.text ++ " import " ++ (if enclosed then "(" else "") ++ items.text
      ++ (if comma then "," else "") ++ (if enclosed then ")" else "")
  | importAll origin => "from " ++ origin.text ++ " import *"

/-- What stands behind the keyword `import` of a list of names. -/
def listPieces (items : Items) (enclosed comma : Bool) : List Piece :=
  (if enclosed then [.leaf "(" " " "("] else []) ++ items.pieces (if enclosed then "" else " ")
    ++ (if comma then [.leaf "," "" ","] else []) ++ if enclosed then [.leaf ")" "" ")"] else []

/-- The node of a statement that starts with `from`. -/
def fromPiece (origin : Origin) (imported : List Piece) : Piece :=
  .node "import_from_statement"
    ([.leaf "from" "" "from", origin.piece] ++ .leaf "import" " " "import" :: imported)

/-- **The node that the grammar makes of a statement.** -/
def piece : Statement → Piece
  | importModules items => .node "import_statement" (.leaf "import" "" "import" :: items.pieces " ")
  | importNames origin items enclosed comma => fromPiece origin (listPieces items enclosed comma)
  | importAll origin => fromPiece origin [.node "wildcard_import" [.leaf "*" " " "*"]]

/-- **What a statement imports** on a line: each module of a list has an import of its own, and names from one module
make one import together. -/
def lines (line : Nat) : Statement → List ImportLine
  | importModules items => items.all.map fun i => { moduleName := i.name.text, line }
  | importNames origin items _ _ =>
    [{ moduleName := origin.name, level := origin.level, items := items.all.map (·.name.text), line }]
  | importAll origin => [{ moduleName := origin.name, level := origin.level, items := ["*"], line }]

end Statement

/-! ## The nodes spell out what is written -/

theorem Name.chars_piece (blanks : String) (name : Name) :
    (name.piece blanks).chars = blanks.toList ++ name.text.toList := rfl

theorem Dotted.chars_piece (blanks : String) (d : Dotted) :
    (d.piece blanks).chars = blanks.toList ++ d.text.toList := by
  rw [piece, Piece.chars_node, Piece.charsOf_eq]
  exact Row.chars_pieces Name.chars_piece rfl

theorem Item.chars_piece (blanks : String) (i : Item) :
    (i.piece blanks).chars = blanks.toList ++ i.text.toList := by
  unfold piece text
  cases i.alias? with
  | none => exact i.name.chars_piece blanks
  | some other => simp [Dotted.chars_piece, Name.chars_piece]

theorem Items.chars_pieces (blanks : String) (is : Items) :
    (is.pieces blanks).flatMap Piece.chars = blanks.toList ++ is.text.toList :=
  Row.chars_pieces Item.chars_piece rfl

theorem Origin.chars_dots (moreDots : Nat) : (dots moreDots).chars = ' ' :: List.replicate (moreDots + 1) '.' := by
  rw [dots, Piece.chars_node, Piece.charsOf_eq, List.flatMap_cons, List.replicate_succ]
  refine congrArg ([' ', '.'] ++ ·) ?_
  induction moreDots with
  | zero => rfl
  | succ k ih => rw [List.replicate_succ, List.flatMap_cons, ih, List.replicate_succ]; rfl

theorem Origin.chars_piece (o : Origin) : o.piece.chars = ' ' :: o.text.toList := by
  unfold text
  rw [String.toList_append, String.toList_ofList]
  cases o with
  | absolute name => exact name.chars_piece " "
  | relative moreDots name? =>
    rw [piece, Piece.chars_node, Piece.charsOf_eq, List.flatMap_cons, chars_dots]
    cases name? with
    | none => rfl
    | some name => simp [level, Origin.name, Dotted.chars_piece]

theorem Statement.chars_piece (s : Statement) : s.piece.chars = s.text.toList := by
  cases s with
  | importModules items => simp [piece, text, Items.chars_pieces]
  | importNames origin items enclosed comma =>
    cases enclosed <;> cases comma <;>
      simp [piece, fromPiece, listPieces, text, Items.chars_pieces, Origin.chars_piece]
  | importAll origin => simp [piece, fromPiece, text, Origin.chars_piece]

/-! ## A statement stays on its line -/

theorem Dotted.noBreak (d : Dotted) : '\n' ∉ d.text.toList := Row.notMem_text Name.noBreak (by decide)

theorem Item.noBreak (i : Item) : '\n' ∉ i.text.toList := by
  unfold text
  cases i.alias? with
  | none => exact i.name.noBreak
  | some other => simp [Dotted.noBreak, Name.noBreak]

theorem Items.noBreak (is : Items) : '\n' ∉ is.text.toList := Row.notMem_text Item.noBreak (by decide)

theorem Origin.noBreak (o : Origin) : '\n' ∉ o.text.toList := by
  have name : '\n' ∉ o.name.toList := by
    cases o with
    | absolute name => exact name.noBreak
    | relative moreDots name? =>
      cases name? with
      | none => exact List.not_mem_nil
      | some name => exact name.noBreak
  unfold text
  simp [name]

theorem Statement.noBreak (s : Statement) : '\n' ∉ s.text.toList := by
  cases s with
  | importModules items => simp [text, Items.noBreak]
  | importNames origin items enclosed comma =>
    cases enclosed <;> cases comma <;> simp [text, Items.noBreak, Origin.noBreak]
  | importAll origin => simp [text, Origin.noBreak]

/-! ## Reading the nodes gives what is imported -/

theorem Dotted.text_ne (d : Dotted) : d.text ≠ "" := by
  obtain ⟨c, cs, split, -⟩ := Lexer.exists_of_isIdentifier d.first.identifier
  intro empty
  have none := congrArg String.toList empty
  rw [text, Row.toList_text, split] at none
  cases none

theorem Dotted.word_piece (blanks : String) (d : Dotted) : (d.piece blanks).word = d.text := by
  have lead : (d.piece blanks).lead = blanks.toList.length := rfl
  rw [Piece.word, lead, chars_piece, List.drop_left, String.ofList_toList]

theorem Item.name?_piece (blanks : String) (i : Item) : (i.piece blanks).name? = some i.name.text := by
  unfold piece
  cases i.alias? with
  | none => exact congrArg some (i.name.word_piece blanks)
  | some other => exact congrArg some (i.name.word_piece blanks)

/-- **The names in a list are the originals,** in order. -/
theorem Items.names_pieces (blanks : String) (is : Items) :
    Piece.names (is.pieces blanks) = is.all.map (·.name.text) := by
  rw [Piece.names, pieces, Row.filterMap_pieces (h := (·.name.text)) Item.name?_piece rfl]
  refine List.filter_eq_self.mpr fun text mem => ?_
  obtain ⟨i, -, rfl⟩ := List.mem_map.mp mem
  exact bne_iff_ne.mpr i.name.text_ne

/-- **The dots are counted,** and the name is what stands behind them. -/
theorem Origin.origin?_piece (o : Origin) : o.piece.origin? = some (o.level, o.name) := by
  cases o with
  | absolute name => exact congrArg (fun word => some (0, word)) (name.word_piece " ")
  | relative moreDots name? =>
    have count : (dots moreDots).word.toList.count '.' = moreDots + 1 := by
      have lead : (dots moreDots).lead = 1 := rfl
      rw [Piece.word, chars_dots, lead, List.drop_one, List.tail_cons, String.toList_ofList, List.count_replicate_self]
    cases name? with
    | none =>
      have read : (relative moreDots none).piece.origin? = some ((dots moreDots).word.toList.count '.', "") := rfl
      rw [read, count]
      rfl
    | some name =>
      have read : (relative moreDots (some name)).piece.origin? =
          some ((dots moreDots).word.toList.count '.', (name.piece "").word) := rfl
      rw [read, count, name.word_piece]
      rfl

namespace Statement

variable {text : String} {line n : Nat}

/-- The kind of the node in front of the keyword `import`. -/
theorem kind_origin (o : Origin) : o.piece.kind = .dottedName ∨ o.piece.kind = .relativeName := by
  cases o with
  | absolute => exact .inl rfl
  | relative => exact .inr rfl

theorem fromLine?_fromPiece {origin : Origin} {imported : List Piece}
    (stands : StandsAt text line n (fromPiece origin imported).chars) :
    ((fromPiece origin imported).tree n).fromLine? (textOf (.ofString text)) =
      some { moduleName := origin.name, level := origin.level, line
             items := Piece.names imported ++ if imported.any (·.kind == .wildcard) then ["*"] else [] } := by
  have before : ∀ p ∈ [.leaf "from" "" "from", origin.piece], (p.kind != .importWord) = true := by
    refine List.forall_mem_cons.mpr ⟨rfl, List.forall_mem_singleton.mpr ?_⟩
    rcases kind_origin origin with kind | kind <;> rw [kind] <;> rfl
  have found : [.leaf "from" "" "from", origin.piece].findSome? Piece.origin? = some (origin.level, origin.name) := by
    rw [List.findSome?_cons, List.findSome?_cons, origin.origin?_piece]
    rfl
  have star : ([.leaf "from" "" "from", origin.piece] ++ .leaf "import" " " "import" :: imported).any
      (·.kind == .wildcard) = imported.any (·.kind == .wildcard) := by
    have other : (origin.piece.kind == .wildcard) = false := by
      rcases kind_origin origin with kind | kind <;> rw [kind] <;> rfl
    rw [List.any_append, List.any_cons, List.any_cons, other, List.any_cons]
    rfl
  unfold fromPiece at stands ⊢
  rw [Piece.fromLine?_tree stands before rfl, found, star]
  rfl

theorem names_listPieces (items : Items) (enclosed comma : Bool) :
    Piece.names (listPieces items enclosed comma) = items.all.map (·.name.text) := by
  have bracket (b : Bool) (name blanks : String) (silent : (Piece.leaf name blanks name).name? = none) :
      Piece.names (if b then [.leaf name blanks name] else []) = [] := by
    cases b with
    | false => rfl
    | true => simp [Piece.names, silent]
  unfold listPieces
  rw [Piece.names_append, Piece.names_append, Piece.names_append, bracket _ _ _ rfl, bracket _ _ _ rfl,
    bracket _ _ _ rfl, items.names_pieces, List.nil_append, List.append_nil, List.append_nil]

theorem kind_item (blanks : String) (i : Item) :
    (i.piece blanks).kind = .dottedName ∨ (i.piece blanks).kind = .aliasedName := by
  unfold Item.piece
  cases i.alias? with
  | none => exact .inl rfl
  | some other => exact .inr rfl

theorem forall_mem_listPieces {P : Piece → Prop} {items : Items} {enclosed comma : Bool}
    (each : ∀ blanks (i : Item), P (i.piece blanks)) (opening : P (.leaf "(" " " "(")) (between : P (.leaf "," "" ","))
    (closing : P (.leaf ")" "" ")")) : ∀ p ∈ listPieces items enclosed comma, P p := by
  have optional {b : Bool} {q : Piece} (holds : P q) : ∀ p ∈ if b then [q] else [], P p := by
    cases b with
    | false => exact List.forall_mem_nil _
    | true => exact List.forall_mem_singleton.mpr holds
  have list : ∀ p ∈ items.pieces (if enclosed then "" else " "), P p := Row.forall_mem_pieces each between
  unfold listPieces
  exact List.forall_mem_append.mpr ⟨List.forall_mem_append.mpr ⟨List.forall_mem_append.mpr
    ⟨optional opening, list⟩, optional between⟩, optional closing⟩

theorem any_star_listPieces (items : Items) (enclosed comma : Bool) :
    (listPieces items enclosed comma).any (·.kind == .wildcard) = false := by
  have others : ∀ p ∈ listPieces items enclosed comma, (p.kind == .wildcard) = false := by
    refine forall_mem_listPieces (fun blanks i => ?_) rfl rfl rfl
    rcases kind_item blanks i with kind | kind <;> rw [kind] <;> rfl
  exact List.any_eq_false.mpr fun p mem => Bool.eq_false_iff.mp (others p mem)

/-- **Reading the node of a statement gives what it imports.** -/
theorem imports_piece (s : Statement) (stands : StandsAt text line n s.piece.chars) :
    (s.piece.tree n).imports (textOf (.ofString text)) = s.lines line := by
  cases s with
  | importModules items =>
    have none : (Piece.leaf "import" "" "import").name? = none := rfl
    have names : Piece.names (.leaf "import" "" "import" :: items.pieces " ") = items.all.map (·.name.text) := by
      rw [Piece.names, List.filterMap_cons_none none, ← Piece.names, items.names_pieces]
    have read := Piece.importLines_tree stands
    rw [piece, Piece.parts, names, List.map_map] at read
    exact read
  | importNames origin items enclosed comma =>
    have read := fromLine?_fromPiece stands
    rw [names_listPieces, any_star_listPieces] at read
    have isFrom : ((fromPiece origin (listPieces items enclosed comma)).tree n).imports (textOf (.ofString text)) =
      (((fromPiece origin (listPieces items enclosed comma)).tree n).fromLine? (textOf (.ofString text))).toList := rfl
    rw [piece, isFrom, read]
    simp [lines]
  | importAll origin =>
    have read := fromLine?_fromPiece stands
    have isFrom : ((importAll origin).piece.tree n).imports (textOf (.ofString text)) =
      (((importAll origin).piece.tree n).fromLine? (textOf (.ofString text))).toList := rfl
    rw [isFrom, piece, read]
    rfl

end Statement

/-! ## The nodes are valid -/

theorem Dotted.isValid_piece (blanks : String) (d : Dotted) : (d.piece blanks).isValid = true :=
  Piece.isValid_node rfl (Row.forall_mem_pieces (fun _ _ => rfl) rfl)

theorem Item.isValid_piece (blanks : String) (i : Item) : (i.piece blanks).isValid = true := by
  unfold piece
  cases i.alias? with
  | none => exact i.name.isValid_piece blanks
  | some other =>
    exact Piece.isValid_node rfl (List.forall_mem_cons.mpr ⟨i.name.isValid_piece blanks,
      List.forall_mem_cons.mpr ⟨rfl, List.forall_mem_singleton.mpr rfl⟩⟩)

theorem Origin.isValid_piece (o : Origin) : o.piece.isValid = true := by
  cases o with
  | absolute name => exact name.isValid_piece " "
  | relative moreDots name? =>
    have dots : (dots moreDots).isValid = true := by
      refine Piece.isValid_node rfl (List.forall_mem_cons.mpr ⟨rfl, fun p mem => ?_⟩)
      rw [List.eq_of_mem_replicate mem]
      rfl
    refine Piece.isValid_node rfl (List.forall_mem_cons.mpr ⟨dots, fun p mem => ?_⟩)
    obtain ⟨name, -, rfl⟩ := Option.map_eq_some_iff.mp (Option.mem_toList.mp mem)
    exact name.isValid_piece ""

namespace Statement

theorem isValid_fromPiece (origin : Origin) {imported : List Piece} (valid : ∀ p ∈ imported, p.isValid = true) :
    (fromPiece origin imported).isValid = true := by
  refine Piece.isValid_node rfl (List.forall_mem_append.mpr ⟨?_, List.forall_mem_cons.mpr ⟨rfl, valid⟩⟩)
  exact List.forall_mem_cons.mpr ⟨rfl, List.forall_mem_singleton.mpr origin.isValid_piece⟩

theorem isValid_piece (s : Statement) : s.piece.isValid = true := by
  cases s with
  | importModules items =>
    exact Piece.isValid_node rfl (List.forall_mem_cons.mpr ⟨rfl, Row.forall_mem_pieces Item.isValid_piece rfl⟩)
  | importNames origin items enclosed comma =>
    exact isValid_fromPiece origin (forall_mem_listPieces Item.isValid_piece rfl rfl rfl)
  | importAll origin => exact isValid_fromPiece origin (List.forall_mem_singleton.mpr rfl)

end Statement

end PyBundle.Syntax
