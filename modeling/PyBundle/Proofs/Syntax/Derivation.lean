import PyBundle.Proofs.Syntax.Statement

/-!
# The nodes of a grammar

What nodes a rule of a grammar gives (`Gives`): a token gives its leaf, a rule the node of its name over what its body
gives, and a rule that is hidden only that. The nodes that import statements are given are nodes of the grammar of
Python (`Statement.gives`, `gives_module`).
-/

namespace PyBundle.Syntax

open Grammar (Rule Token isHiddenName python)
open Grammar.Rule

/-- Whether a rule has no node of its own. -/
def hides (g : Grammar.Ruleset) (name : String) : Bool :=
  isHiddenName name || g.gathered.contains name || g.inlined.contains name

/-- **Whether a text is that of a token:** the lexer takes all of it. -/
def Spells (t : Token) (text : String) : Prop := Lexer.matchToken? (.ofString text) t 0 = some text.toList.length

instance (t : Token) (text : String) : Decidable (Spells t text) :=
  inferInstanceAs (Decidable (Lexer.matchToken? (.ofString text) t 0 = some text.toList.length))

/-- **The nodes that a rule gives,** in order. -/
inductive Gives (g : Grammar.Ruleset) : Rule → List Piece → Prop
  /-- A token gives its leaf, whatever blanks are before it. -/
  | token {t : Token} {text : String} (blanks : String) (spelled : Spells t text) (shows : g.showsToken t = true) :
    Gives g (.token t) [.leaf (g.tokenName t) blanks text]
  /-- A hidden token gives nothing. -/
  | hiddenToken {t : Token} (hidden : g.showsToken t = false) : Gives g (.token t) []
  /-- A rule gives its node. -/
  | node {name : String} {rule : Rule} {ps : List Piece} (isRule : (name, rule) ∈ g.rules)
    (own : g.namesToken (name, rule) = false) (shown : hides g name = false) (body : Gives g rule ps) :
    Gives g (.ref name) [.node name ps]
  /-- A hidden rule, or one that only names a token, gives what its body does. -/
  | body {name : String} {rule : Rule} {ps : List Piece} (isRule : (name, rule) ∈ g.rules)
    (through : g.namesToken (name, rule) = true ∨ hides g name = true) (body : Gives g rule ps) :
    Gives g (.ref name) ps
  /-- The name of a layout token stands for it. -/
  | layout {name : String} {t : Grammar.LayoutToken} {ps : List Piece} (isLayout : (name, t) ∈ g.layout)
    (body : Gives g (.token (.layout t)) ps) : Gives g (.ref name) ps
  | blank : Gives g .blank []
  | seq {a b : Rule} {ps qs : List Piece} (first : Gives g a ps) (second : Gives g b qs) : Gives g (.seq a b) (ps ++ qs)
  | left {a b : Rule} {ps : List Piece} (first : Gives g a ps) : Gives g (.alt a b) ps
  | right {a b : Rule} {ps : List Piece} (second : Gives g b ps) : Gives g (.alt a b) ps
  | once {a : Rule} {ps : List Piece} (body : Gives g a ps) : Gives g (.plus a) ps
  | more {a : Rule} {ps qs : List Piece} (first : Gives g a ps) (rest : Gives g (.plus a) qs) :
    Gives g (.plus a) (ps ++ qs)
  | level {precedence : Int} {assoc : Option Grammar.Assoc} {a : Rule} {ps : List Piece} (body : Gives g a ps) :
    Gives g (.level precedence assoc a) ps
  | weigh {weight : Int} {a : Rule} {ps : List Piece} (body : Gives g a ps) : Gives g (.weigh weight a) ps
  /-- A node may be shown under another name. -/
  | shown {name own : String} {a : Rule} {ps : List Piece} (body : Gives g a [.node own ps]) :
    Gives g (.shown name a) [.node name ps]

namespace Gives

variable {g : Grammar.Ruleset} {r separator : Rule} {ps : List Piece} {α : Type} {comma : Piece} {gap blanks : String}
  {f : String → α → Piece}

theorem ofNone : Gives g (Rule.option r) [] := .right .blank

theorem ofSome (given : Gives g r ps) : Gives g (Rule.option r) ps := .left given

/-- One or more runs give what each of them gives. -/
theorem plus {first : List Piece} {runs : List (List Piece)} (each : ∀ ps ∈ first :: runs, Gives g r ps) :
    Gives g (.plus r) (first :: runs).flatten := by
  induction runs generalizing first with
  | nil => simpa using once (each first List.mem_cons_self)
  | cons next runs ih =>
    obtain ⟨now, later⟩ := List.forall_mem_cons.mp each
    exact now.more (ih later)

/-- **Any number of runs** gives what each of them gives. -/
theorem many {runs : List (List Piece)} (each : ∀ ps ∈ runs, Gives g r ps) : Gives g (Rule.many r) runs.flatten := by
  cases runs with
  | nil => exact ofNone
  | cons first runs => exact ofSome (plus each)

/-- **A row is given part by part,** with a separator between any two. -/
theorem row (row : Row α) (each : ∀ blanks a, Gives g r [f blanks a]) (between : Gives g separator [comma]) :
    Gives g (Rule.sepBy r separator) (row.pieces comma gap f blanks) := by
  refine (each blanks row.first).seq (many fun ps mem => ?_)
  obtain ⟨a, -, rfl⟩ := List.mem_map.mp mem
  exact between.seq (each gap a)

end Gives

/-! ## The grammar of Python -/

/-- The rules of files and simple statements are rules of the grammar. -/
theorem mem_rules {rule : String × Rule} (mem : rule ∈ Grammar.Python.statementRules) : rule ∈ python.rules := by
  unfold python
  simp only [List.mem_append, mem, true_or]

/-- The fixed tokens of import statements. -/
def importWords : List String := ["import", "from", "as", ".", ",", "(", ")", "*"]

/-- They are spelled as they are called, and they have leaves of their own. -/
theorem words_of_imports : ∀ word ∈ importWords,
    Spells (.fixed word) word ∧ python.showsToken (.fixed word) = true ∧ python.tokenName (.fixed word) = word := by
  decide +kernel

theorem gives_word (word blanks : String) (mem : word ∈ importWords) :
    Gives python (.token (.fixed word)) [.leaf word blanks word] := by
  obtain ⟨spelled, shows, named⟩ := words_of_imports word mem
  have given := Gives.token blanks spelled shows
  rwa [named] at given

theorem Name.gives (blanks : String) (name : Name) : Gives python (.ref "identifier") [name.piece blanks] := by
  have isRule : ("identifier", .token (.pattern .identifier)) ∈ python.rules := by
    unfold python
    simp [Grammar.Python.displayRules, Grammar.Python.pat]
  have given := Gives.token (g := python) blanks (Lexer.matchToken?_identifier name.identifier) (by decide +kernel)
  have named : python.tokenName (.pattern .identifier) = "identifier" := by decide +kernel
  rw [named] at given
  exact .body isRule (.inl (by decide +kernel)) given

theorem Dotted.gives (blanks : String) (d : Dotted) : Gives python (.ref "dotted_name") [d.piece blanks] := by
  have isRule : ("dotted_name", ranked 1 (sepBy (ref "identifier") ".")) ∈ python.rules := by
    unfold python
    simp [Grammar.Python.compoundRules]
  exact .node isRule rfl (by decide +kernel) (.level (.row d Name.gives (gives_word "." "" (by decide))))

/-- A name in an import list, with or without another name. -/
theorem Item.gives (blanks : String) (i : Item) :
    Gives python (anyRef ["dotted_name", "aliased_import"]) [i.piece blanks] := by
  unfold piece
  cases i.alias? with
  | none => exact .left (i.name.gives blanks)
  | some other =>
    have isRule : ("aliased_import", all [ref "dotted_name", "as", ref "identifier"]) ∈ python.rules :=
      mem_rules (by simp [Grammar.Python.statementRules])
    have body := (i.name.gives blanks).seq ((gives_word "as" " " (by decide)).seq (other.gives " "))
    exact .right (.node isRule rfl (by decide +kernel) body)

/-- A list of names, with or without a comma behind it. -/
theorem Items.gives (blanks : String) (is : Items) (comma : Bool) :
    Gives python (.ref "_import_list") (is.pieces blanks ++ if comma then [.leaf "," "" ","] else []) := by
  have isRule : ("_import_list", commaList (anyRef ["dotted_name", "aliased_import"])) ∈ python.rules :=
    mem_rules (by simp [Grammar.Python.statementRules])
  have word : Gives python (.token (.fixed ",")) [.leaf "," "" ","] := gives_word "," "" (by decide)
  have last : Gives python (Rule.option ",") (if comma then [.leaf "," "" ","] else []) := by
    cases comma with
    | false => exact .ofNone
    | true => exact .ofSome word
  exact .body isRule (.inr (by decide +kernel)) ((Gives.row is Item.gives word).seq last)

theorem Origin.gives_dots (moreDots : Nat) : Gives python (.ref "import_prefix") [dots moreDots] := by
  have isRule : ("import_prefix", plus ".") ∈ python.rules :=
    mem_rules (by simp [Grammar.Python.statementRules])
  have dot (blanks : String) : Gives python (.token (.fixed ".")) [.leaf "." blanks "."] := gives_word "." _ (by decide)
  have runs : ∀ ps ∈ [.leaf "." " " "."] :: List.replicate moreDots [.leaf "." "" "."], Gives python "." ps :=
    List.forall_mem_cons.mpr ⟨dot " ", fun ps mem => List.eq_of_mem_replicate mem ▸ dot ""⟩
  have body := Gives.plus runs
  rw [List.flatten_cons, List.flatten_replicate_singleton] at body
  exact .node isRule rfl (by decide +kernel) body

theorem Origin.gives (o : Origin) : Gives python (anyRef ["relative_import", "dotted_name"]) [o.piece] := by
  cases o with
  | absolute name => exact .right (name.gives " ")
  | relative moreDots name? =>
    have isRule : ("relative_import", .seq (ref "import_prefix") (option (ref "dotted_name"))) ∈ python.rules :=
      mem_rules (by simp [Grammar.Python.statementRules])
    have name : Gives python (option (ref "dotted_name")) (name?.map (Dotted.piece "")).toList := by
      cases name? with
      | none => exact .ofNone
      | some name => exact .ofSome (name.gives "")
    exact .left (.node isRule rfl (by decide +kernel) ((gives_dots moreDots).seq name))

namespace Statement

/-- What may stand behind the keyword `import` of a statement that starts with `from`. -/
def imported : Rule := any [ref "wildcard_import", ref "_import_list", all ["(", ref "_import_list", ")"]]

theorem gives_listPieces (items : Items) (enclosed comma : Bool) :
    Gives python imported (listPieces items enclosed comma) := by
  unfold listPieces
  cases enclosed with
  | false =>
    have list : Gives python imported _ := .right (.left (items.gives " " comma))
    simpa using list
  | true =>
    have list : Gives python imported _ := .right (.right ((gives_word "(" " " (by decide)).seq
      ((items.gives "" comma).seq (gives_word ")" "" (by decide)))))
    simpa using list

theorem gives_star : Gives python imported [.node "wildcard_import" [.leaf "*" " " "*"]] := by
  have isRule : ("wildcard_import", Rule.token (.fixed "*")) ∈ python.rules :=
    mem_rules (by simp [Grammar.Python.statementRules])
  exact .left (.node isRule (by decide +kernel) (by decide +kernel) (gives_word "*" " " (by decide)))

theorem gives_fromPiece (origin : Origin) {ps : List Piece} (given : Gives python imported ps) :
    Gives python (.ref "import_from_statement") [fromPiece origin ps] := by
  have isRule : ("import_from_statement",
      all ["from", anyRef ["relative_import", "dotted_name"], "import", imported]) ∈ python.rules :=
    mem_rules (by simp [Grammar.Python.statementRules, imported])
  have body := (gives_word "from" "" (by decide)).seq
    (origin.gives.seq ((gives_word "import" " " (by decide)).seq given))
  exact .node isRule rfl (by decide +kernel) body

/-- **The node of a statement is a node of the grammar.** -/
theorem gives (s : Statement) : Gives python (.ref "_simple_statement") [s.piece] := by
  have isRule : ("_simple_statement", anyRef ["future_import_statement", "import_statement",
      "import_from_statement", "print_statement", "assert_statement", "expression_statement", "return_statement",
      "delete_statement", "raise_statement", "pass_statement", "break_statement", "continue_statement",
      "global_statement", "nonlocal_statement", "exec_statement", "type_alias_statement"]) ∈ python.rules :=
    mem_rules (by simp [Grammar.Python.statementRules])
  refine .body isRule (.inr (by decide +kernel)) (.right ?_)
  cases s with
  | importModules items =>
    have isImport : ("import_statement", .seq "import" (ref "_import_list")) ∈ python.rules :=
      mem_rules (by simp [Grammar.Python.statementRules])
    have list : Gives python (.ref "_import_list") (items.pieces " ") := by simpa using items.gives " " false
    exact .left (.node isImport rfl (by decide +kernel) ((gives_word "import" "" (by decide)).seq list))
  | importNames origin items enclosed comma =>
    exact .right (.left (gives_fromPiece origin (gives_listPieces items enclosed comma)))
  | importAll origin => exact .right (.left (gives_fromPiece origin gives_star))

/-- A statement on a line of its own. -/
theorem gives_line (s : Statement) : Gives python (.ref "_statement") [s.piece] := by
  have isRule : ("_statement", anyRef ["_simple_statements", "_compound_statement"]) ∈ python.rules :=
    mem_rules (by simp [Grammar.Python.statementRules])
  have isLine : ("_simple_statements",
      all [sepBy (ref "_simple_statement") ";", option ";", ref "_newline"]) ∈ python.rules :=
    mem_rules (by simp [Grammar.Python.statementRules])
  have lineEnd : Gives python (.ref "_newline") [] :=
    .layout (t := .newline) (by simp [python]) (.hiddenToken (by decide +kernel))
  have only : Gives python (sepBy (ref "_simple_statement") ";") [s.piece] := s.gives.seq .ofNone
  exact .body isRule (.inr (by decide +kernel))
    (.left (.body isLine (.inr (by decide +kernel)) (only.seq (Gives.ofNone.seq lineEnd))))

end Statement

/-- **The nodes of a listing are nodes of the grammar,** below the one of a file. -/
theorem gives_module (statements : List Statement) :
    Gives python (.ref "module") [.node "module" (statements.map Statement.piece)] := by
  have isRule : ("module", Rule.many (ref "_statement")) ∈ python.rules :=
    mem_rules (by simp [Grammar.Python.statementRules])
  have each : ∀ ps ∈ statements.map fun s => [s.piece], Gives python (ref "_statement") ps := fun ps mem => by
    obtain ⟨s, -, rfl⟩ := List.mem_map.mp mem
    exact s.gives_line
  have body := Gives.many each
  rw [← List.flatMap_def, ← List.map_eq_flatMap] at body
  exact .node isRule rfl (by decide +kernel) body

end PyBundle.Syntax
