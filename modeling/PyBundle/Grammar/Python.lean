import PyBundle.Grammar.Rule

/-!
# The grammar of Python source

The rules that a Python source file is read with. The grammar is wider than the language: it admits
the Python 2 statements `print` and `exec` (`PyBundle.Syntax.Tree` rejects them by their nodes), it
leaves to later stages which expressions may be assigned to, and a keyword is a keyword only where
the rules can take it, so that `import if` imports a module named `if`.

A rule whose name starts with an underscore is hidden: its parts become parts of the node around
it. Where two rules overlap on purpose (`(a)` is an expression and a pattern, `print (a)` a call and
a statement) both readings are followed until one fails.
-/

namespace PyBundle.Grammar.Python

open Rule

/-! ## Precedences, from loose to tight -/

/-- **Operator precedences.** A larger number binds tighter. -/
def lambdaLevel : Int := -2
def typedParameterLevel : Int := -1
def conditionalLevel : Int := -1
def orLevel : Int := 10
def andLevel : Int := 11
def notLevel : Int := 12
def compareLevel : Int := 13
def bitOrLevel : Int := 14
def bitAndLevel : Int := 15
def bitXorLevel : Int := 16
def shiftLevel : Int := 17
def plusLevel : Int := 18
def timesLevel : Int := 19
def unaryLevel : Int := 20
def powerLevel : Int := 21
def callLevel : Int := 22

/-- A token given by a pattern. -/
def pat (c : TokenClass) : Rule := .token (.pattern c)

/-! ## Files and simple statements -/

def statementRules : List (String × Rule) :=
  [("module", many (ref "_statement")),
   ("_statement", anyRef ["_simple_statements", "_compound_statement"]),
   ("_simple_statements", all [sepBy (ref "_simple_statement") ";", option ";", ref "_newline"]),
   ("_simple_statement", anyRef ["future_import_statement", "import_statement",
      "import_from_statement", "print_statement", "assert_statement", "expression_statement",
      "return_statement", "delete_statement", "raise_statement", "pass_statement",
      "break_statement", "continue_statement", "global_statement", "nonlocal_statement",
      "exec_statement", "type_alias_statement"]),
   ("import_statement", .seq "import" (ref "_import_list")),
   ("import_prefix", plus "."),
   ("relative_import", .seq (ref "import_prefix") (option (ref "dotted_name"))),
   ("future_import_statement", all ["from", "__future__", "import",
      alt (ref "_import_list") (all ["(", ref "_import_list", ")"])]),
   ("import_from_statement", all ["from", anyRef ["relative_import", "dotted_name"], "import",
      any [ref "wildcard_import", ref "_import_list", all ["(", ref "_import_list", ")"]]]),
   ("_import_list", commaList (anyRef ["dotted_name", "aliased_import"])),
   ("aliased_import", all [ref "dotted_name", "as", ref "identifier"]),
   ("wildcard_import", "*"),
   ("print_statement", alt
      (ranked 1 (all ["print", ref "chevron", many (.seq "," (ref "expression")), option ","]))
      (ranked (-3) (weigh (-1) (.seq "print" (commaList (ref "expression")))))),
   ("chevron", .seq ">>" (ref "expression")),
   ("assert_statement", .seq "assert" (commaSep (ref "expression"))),
   ("expression_statement", any [ref "expression", commaList (ref "expression"),
      ref "assignment", ref "augmented_assignment", ref "yield"]),
   ("named_expression", all [ref "_named_expression_lhs", ":=", ref "expression"]),
   ("_named_expression_lhs", anyRef ["identifier", "keyword_identifier"]),
   ("return_statement", .seq "return" (option (ref "_expressions"))),
   ("delete_statement", .seq "del" (ref "_expressions")),
   ("_expressions", anyRef ["expression", "expression_list"]),
   ("raise_statement", all ["raise", option (ref "_expressions"),
      option (.seq "from" (ref "expression"))]),
   ("pass_statement", leftAssoc 0 "pass"),
   ("break_statement", leftAssoc 0 "break"),
   ("continue_statement", leftAssoc 0 "continue")]

/-! ## Compound statements -/

/-- A target in front of a colon or an assignment, and the suite after a colon. -/
def suite : Rule := .seq ":" (ref "_suite")

def compoundRules : List (String × Rule) :=
  [("_compound_statement", anyRef ["if_statement", "for_statement", "while_statement",
      "try_statement", "with_statement", "function_definition", "class_definition",
      "decorated_definition", "match_statement"]),
   ("if_statement", all ["if", ref "expression", suite, many (ref "elif_clause"),
      option (ref "else_clause")]),
   ("elif_clause", all ["elif", ref "expression", suite]),
   ("else_clause", .seq "else" suite),
   ("match_statement", all ["match", commaList (ref "expression"), ":",
      shown "block" (ref "_match_block")]),
   ("_match_block", alt (all [ref "_indent", many (ref "case_clause"), ref "_dedent"])
      (ref "_newline")),
   ("case_clause", all ["case", commaList (ref "case_pattern"), option (ref "if_clause"), suite]),
   ("for_statement", all [option "async", "for", ref "_left_hand_side", "in", ref "_expressions",
      suite, option (ref "else_clause")]),
   ("while_statement", all ["while", ref "expression", suite, option (ref "else_clause")]),
   ("try_statement", all ["try", suite, any
      [all [plus (ref "except_clause"), option (ref "else_clause"), option (ref "finally_clause")],
       all [plus (ref "except_group_clause"), option (ref "else_clause"),
         option (ref "finally_clause")],
       ref "finally_clause"]]),
   ("except_clause", all ["except",
      option (.seq (ref "expression") (option (.seq (alt "as" ",") (ref "expression")))), suite]),
   ("except_group_clause", all ["except*", ref "expression",
      option (.seq "as" (ref "expression")), suite]),
   ("finally_clause", .seq "finally" suite),
   ("with_statement", all [option "async", "with", ref "with_clause", suite]),
   ("with_clause", alt (commaList (ref "with_item")) (all ["(", commaList (ref "with_item"), ")"])),
   ("with_item", weigh 1 (ref "expression")),
   ("function_definition", all [option "async", "def", ref "identifier",
      option (ref "type_parameter"), ref "parameters", option (.seq "->" (ref "type")), suite]),
   ("parameters", all ["(", option (ref "_parameters"), ")"]),
   ("lambda_parameters", ref "_parameters"),
   ("list_splat", .seq "*" (ref "expression")),
   ("dictionary_splat", .seq "**" (ref "expression")),
   ("global_statement", .seq "global" (commaSep (ref "identifier"))),
   ("nonlocal_statement", .seq "nonlocal" (commaSep (ref "identifier"))),
   ("exec_statement", all ["exec", anyRef ["string", "identifier"],
      option (.seq "in" (commaSep (ref "expression")))]),
   ("type_alias_statement", weigh 1 (all ["type", ref "type", "=", ref "type"])),
   ("class_definition", all ["class", ref "identifier", option (ref "type_parameter"),
      option (ref "argument_list"), suite]),
   ("type_parameter", all ["[", commaList (ref "type"), "]"]),
   ("parenthesized_list_splat", ranked 1 (all ["(",
      alt (shown "parenthesized_expression" (ref "parenthesized_list_splat")) (ref "list_splat"),
      ")"])),
   ("argument_list", all ["(",
      option (commaSep (any [ref "expression", ref "list_splat", ref "dictionary_splat",
        shown "parenthesized_expression" (ref "parenthesized_list_splat"),
        ref "keyword_argument"])),
      option ",", ")"]),
   ("decorated_definition", .seq (plus (ref "decorator"))
      (anyRef ["class_definition", "function_definition"])),
   ("decorator", all ["@", ref "expression", ref "_newline"]),
   ("_suite", any [shown "block" (ref "_simple_statements"), .seq (ref "_indent") (ref "block"),
      shown "block" (ref "_newline")]),
   ("block", .seq (many (ref "_statement")) (ref "_dedent")),
   ("expression_list", rightAssoc 0 (.seq (ref "expression")
      (alt "," (.seq (plus (.seq "," (ref "expression"))) (option ","))))),
   ("dotted_name", ranked 1 (sepBy (ref "identifier") "."))]

/-! ## Match patterns -/

/-- A number of a match pattern. -/
def number : Rule := anyRef ["integer", "float"]

/-- The patterns between two brackets. -/
def casePatterns : Rule := option (commaList (ref "case_pattern"))

def casePatternRules : List (String × Rule) :=
  [("case_pattern", ranked 1 (any [shown "as_pattern" (ref "_as_pattern"),
      ref "keyword_pattern", ref "_simple_pattern"])),
   ("_simple_pattern", ranked 1 (any [ref "class_pattern", ref "splat_pattern",
      ref "union_pattern", shown "list_pattern" (ref "_list_pattern"),
      shown "tuple_pattern" (ref "_tuple_pattern"), ref "dict_pattern", ref "string",
      ref "concatenated_string", ref "true", ref "false", ref "none", .seq (option "-") number,
      ref "complex_pattern", ref "dotted_name", "_"])),
   ("_as_pattern", all [ref "case_pattern", "as", ref "identifier"]),
   ("union_pattern", rightAssoc 0 (.seq (ref "_simple_pattern")
      (plus (leftAssoc 0 (.seq "|" (ref "_simple_pattern")))))),
   ("_list_pattern", all ["[", casePatterns, "]"]),
   ("_tuple_pattern", all ["(", casePatterns, ")"]),
   ("dict_pattern", all ["\x7b",
      option (commaList (anyRef ["_key_value_pattern", "splat_pattern"])), "\x7d"]),
   ("_key_value_pattern", all [ref "_simple_pattern", ":", ref "case_pattern"]),
   ("keyword_pattern", all [ref "identifier", "=", ref "_simple_pattern"]),
   ("splat_pattern", ranked 1 (.seq (alt "*" "**") (alt (ref "identifier") "_"))),
   ("class_pattern", all [ref "dotted_name", "(", casePatterns, ")"]),
   ("complex_pattern", ranked 1 (all [option "-", number, alt "+" "-", number]))]

/-! ## Parameters and targets -/

/-- What a starred target or parameter may name. -/
def starred : Rule := anyRef ["identifier", "keyword_identifier", "subscript", "attribute"]

def targetRules : List (String × Rule) :=
  [("_parameters", commaList (ref "parameter")),
   ("_patterns", commaList (ref "pattern")),
   ("parameter", anyRef ["identifier", "typed_parameter", "default_parameter",
      "typed_default_parameter", "list_splat_pattern", "tuple_pattern", "keyword_separator",
      "positional_separator", "dictionary_splat_pattern"]),
   ("pattern", anyRef ["identifier", "keyword_identifier", "subscript", "attribute",
      "list_splat_pattern", "tuple_pattern", "list_pattern"]),
   ("tuple_pattern", all ["(", option (ref "_patterns"), ")"]),
   ("list_pattern", all ["[", option (ref "_patterns"), "]"]),
   ("default_parameter", all [anyRef ["identifier", "tuple_pattern"], "=", ref "expression"]),
   ("typed_default_parameter", ranked typedParameterLevel
      (all [ref "identifier", ":", ref "type", "=", ref "expression"])),
   ("list_splat_pattern", .seq "*" starred),
   ("dictionary_splat_pattern", .seq "**" starred),
   ("as_pattern", leftAssoc 0 (all [ref "expression", "as",
      shown "as_pattern_target" (ref "expression")]))]

/-! ## Expressions -/

/-- The binary operators, each with its precedence. All but the power group to the left. -/
def binaryOperators : List Rule :=
  let operand := ref "primary_expression"
  let grouping (f : Int → Rule → Rule) (p : Int) (ops : List String) :
      List Rule :=
    ops.map fun (op : String) => f p (all [operand, op, operand])
  grouping leftAssoc plusLevel ["+", "-"] ++ grouping leftAssoc timesLevel ["*", "@", "/", "%", "//"]
    ++ grouping rightAssoc powerLevel ["**"] ++ grouping leftAssoc bitOrLevel ["|"]
    ++ grouping leftAssoc bitAndLevel ["&"] ++ grouping leftAssoc bitXorLevel ["^"]
    ++ grouping leftAssoc shiftLevel ["<<", ">>"]

/-- The operators that compare. -/
def comparisons : Rule :=
  any ["<", "<=", "==", "!=", ">=", ">", "<>", "in", shown "not in" (ref "_not_in"), "is",
    shown "is not" (ref "_is_not")]

def expressionRules : List (String × Rule) :=
  [("_expression_within_for_in_clause", alt (ref "expression")
      (shown "lambda" (ref "lambda_within_for_in_clause"))),
   ("expression", anyRef ["comparison_operator", "not_operator", "boolean_operator", "lambda",
      "primary_expression", "conditional_expression", "named_expression", "as_pattern"]),
   ("primary_expression", alt (anyRef ["await", "binary_operator", "identifier",
      "keyword_identifier", "string", "concatenated_string", "integer", "float", "true", "false",
      "none", "unary_operator", "attribute", "subscript", "call", "list", "list_comprehension",
      "dictionary", "dictionary_comprehension", "set", "set_comprehension", "tuple",
      "parenthesized_expression", "generator_expression", "ellipsis"])
      (shown "list_splat" (ref "list_splat_pattern"))),
   ("not_operator", ranked notLevel (.seq "not" (ref "expression"))),
   ("boolean_operator", alt
      (leftAssoc andLevel (all [ref "expression", "and", ref "expression"]))
      (leftAssoc orLevel (all [ref "expression", "or", ref "expression"]))),
   ("binary_operator", any binaryOperators),
   ("unary_operator", ranked unaryLevel (.seq (any ["+", "-", "~"]) (ref "primary_expression"))),
   ("_not_in", .seq "not" "in"),
   ("_is_not", .seq "is" "not"),
   ("comparison_operator", leftAssoc compareLevel (.seq (ref "primary_expression")
      (plus (.seq comparisons (ref "primary_expression"))))),
   ("lambda", ranked lambdaLevel (all ["lambda", option (ref "lambda_parameters"), ":",
      ref "expression"])),
   ("lambda_within_for_in_clause", all ["lambda", option (ref "lambda_parameters"), ":",
      ref "_expression_within_for_in_clause"]),
   ("assignment", .seq (ref "_left_hand_side") (any
      [.seq "=" (ref "_right_hand_side"), .seq ":" (ref "type"),
       all [":", ref "type", "=", ref "_right_hand_side"]])),
   ("augmented_assignment", all [ref "_left_hand_side",
      any ["+=", "-=", "*=", "/=", "@=", "//=", "%=", "**=", ">>=", "<<=", "&=", "^=", "|="],
      ref "_right_hand_side"]),
   ("_left_hand_side", anyRef ["pattern", "pattern_list"]),
   ("pattern_list", .seq (ref "pattern")
      (alt "," (.seq (plus (.seq "," (ref "pattern"))) (option ",")))),
   ("_right_hand_side", anyRef ["expression", "expression_list", "assignment",
      "augmented_assignment", "pattern_list", "yield"]),
   ("yield", rightAssoc 0 (.seq "yield"
      (alt (.seq "from" (ref "expression")) (option (ref "_expressions"))))),
   ("attribute", ranked callLevel (all [ref "primary_expression", ".", ref "identifier"])),
   ("subscript", ranked callLevel (all [ref "primary_expression", "[",
      commaList (anyRef ["expression", "slice"]), "]"])),
   ("slice", all [option (ref "expression"), ":", option (ref "expression"),
      option (.seq ":" (option (ref "expression")))]),
   ("ellipsis", "..."),
   ("call", ranked callLevel (.seq (ref "primary_expression")
      (anyRef ["generator_expression", "argument_list"]))),
   ("typed_parameter", ranked typedParameterLevel (all
      [anyRef ["identifier", "list_splat_pattern", "dictionary_splat_pattern"], ":",
       ref "type"])),
   ("type", alt (ranked 1 (ref "expression"))
      (anyRef ["splat_type", "generic_type", "union_type", "constrained_type", "member_type"])),
   ("splat_type", ranked 1 (.seq (alt "*" "**") (ref "identifier"))),
   ("generic_type", ranked 1 (.seq (alt (ref "identifier") (shown "identifier" "type"))
      (ref "type_parameter"))),
   ("union_type", leftAssoc 0 (all [ref "type", "|", ref "type"])),
   ("constrained_type", rightAssoc 0 (all [ref "type", ":", ref "type"])),
   ("member_type", all [ref "type", ".", ref "identifier"]),
   ("keyword_argument", all [anyRef ["identifier", "keyword_identifier"], "=",
      ref "expression"])]

/-! ## Displays, comprehensions and strings -/

def displayRules : List (String × Rule) :=
  [("list", all ["[", option (ref "_collection_elements"), "]"]),
   ("set", all ["\x7b", ref "_collection_elements", "\x7d"]),
   ("tuple", all ["(", option (ref "_collection_elements"), ")"]),
   ("dictionary", all ["\x7b", option (commaSep (anyRef ["pair", "dictionary_splat"])), option ",",
      "\x7d"]),
   ("pair", all [ref "expression", ":", ref "expression"]),
   ("list_comprehension", all ["[", ref "expression", ref "_comprehension_clauses", "]"]),
   ("dictionary_comprehension", all ["\x7b", ref "pair", ref "_comprehension_clauses", "\x7d"]),
   ("set_comprehension", all ["\x7b", ref "expression", ref "_comprehension_clauses", "\x7d"]),
   ("generator_expression", all ["(", ref "expression", ref "_comprehension_clauses", ")"]),
   ("_comprehension_clauses", .seq (ref "for_in_clause")
      (many (anyRef ["for_in_clause", "if_clause"]))),
   ("parenthesized_expression", ranked 1 (all ["(", anyRef ["expression", "yield"], ")"])),
   ("_collection_elements", commaList (anyRef ["expression", "yield", "list_splat",
      "parenthesized_list_splat"])),
   ("for_in_clause", leftAssoc 0 (all [option "async", "for", ref "_left_hand_side", "in",
      commaList (ref "_expression_within_for_in_clause")])),
   ("if_clause", .seq "if" (ref "expression")),
   ("conditional_expression", rightAssoc conditionalLevel
      (all [ref "expression", "if", ref "expression", "else", ref "expression"])),
   ("concatenated_string", .seq (ref "string") (plus (ref "string"))),
   ("string", all [ref "string_start", many (anyRef ["interpolation", "string_content"]),
      ref "string_end"]),
   ("string_content", rightAssoc 0 (plus (anyRef ["escape_interpolation", "escape_sequence",
      "_not_escape_sequence", "_string_content"]))),
   ("interpolation", all ["\x7b", ref "_f_expression", option "=", option (ref "type_conversion"),
      option (ref "format_specifier"), "\x7d"]),
   ("_f_expression", anyRef ["expression", "expression_list", "pattern_list", "yield"]),
   ("escape_sequence", pat .escapeSequence),
   ("_not_escape_sequence", pat .loneBackslash),
   ("format_specifier", .seq ":" (many (alt (pat .formatText)
      (shown "format_expression" (ref "interpolation"))))),
   ("type_conversion", pat .typeConversion),
   ("integer", pat .integer),
   ("float", pat .float),
   ("identifier", pat .identifier),
   ("keyword_identifier", alt
      (ranked (-3) (shown "identifier" (any ["print", "exec", "async", "await"])))
      (shown "identifier" (alt "type" "match"))),
   ("true", "True"),
   ("false", "False"),
   ("none", "None"),
   ("await", ranked unaryLevel (.seq "await" (ref "primary_expression"))),
   ("comment", pat .comment),
   ("line_continuation", pat .lineContinuation),
   ("positional_separator", "/"),
   ("keyword_separator", "*")]

end Python

/-- **The grammar of Python source files.** -/
def python : Ruleset where
  rules := Python.statementRules ++ Python.compoundRules ++ Python.casePatternRules
    ++ Python.targetRules ++ Python.expressionRules ++ Python.displayRules
  layout := [("_newline", .newline), ("_indent", .indent), ("_dedent", .dedent),
    ("string_start", .stringStart), ("_string_content", .stringContent),
    ("escape_interpolation", .escapeInterpolation), ("string_end", .stringEnd)]
  landmarks := [.pattern .comment, .fixed "]", .fixed ")", .fixed "\x7d", .fixed "except"]
  inlined := ["_simple_statement", "_compound_statement", "_suite", "_expressions",
    "_left_hand_side", "keyword_identifier"]
  gathered := ["_simple_statement", "_compound_statement", "expression", "primary_expression",
    "pattern", "parameter"]
  extras := [.pattern .comment, .pattern .lineContinuation]

end PyBundle.Grammar
