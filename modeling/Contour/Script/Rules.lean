import Contour.Grammar.Parse
import Contour.Script.Lexeme

/-!
# The rules of the language

The grammar of program texts, with what each rule says about the forms of expressions. Most rules
only pass on the value of their first symbol (`plainRules`); the others (`formRules`) name the form
of an expression, collect lists of forms, or test a target.
-/

namespace Contour.Script

/-! ## Values -/

/-- What is known of a symbol that has been seen. -/
inductive Sense where
  | nothing
  /-- An expression. -/
  | form (f : Form)
  /-- A list of expressions, and whether a comma ends it. -/
  | forms (fs : List Form) (comma : Bool)
  /-- Whether a comma is there. -/
  | comma (present : Bool)
  /-- A string literal. -/
  | string (bytes : Bool)
  /-- Arguments of a call, and whether each of them has a name. -/
  | arguments (named : Bool)
deriving DecidableEq, Repr, Inhabited

/-- What a rule makes of the values of its symbols. -/
abbrev Act := List Sense → Sense × Option Remark

namespace Act

/-- The value at a position. -/
def arg (vs : List Sense) (n : Nat) : Sense := (vs[n]?).getD .nothing

/-- The form at a position. -/
def formAt (vs : List Sense) (n : Nat) : Form :=
  match arg vs n with
  | .form f => f
  | _ => .name

/-- The forms at a position. -/
def formsAt (vs : List Sense) (n : Nat) : List Form :=
  match arg vs n with
  | .forms fs _ => fs
  | .form f => [f]
  | _ => []

/-- Whether there is a comma at a position. -/
def commaAt (vs : List Sense) (n : Nat) : Bool :=
  match arg vs n with
  | .comma b => b
  | .forms _ b => b
  | _ => false

/-- Whether the arguments at a position all have names. -/
def namedAt (vs : List Sense) (n : Nat) : Bool :=
  match arg vs n with
  | .arguments b => b
  | _ => true

/-- One expression without a comma is itself, and anything else is a tuple. -/
def tupled (fs : List Form) (comma : Bool) : Form :=
  match fs, comma with
  | [f], false => f
  | _, _ => .tuple

/-- The remark about the last of some targets that cannot be one. -/
def lastRemark (remark : String → Remark) (fs : List Form) : Option Remark :=
  (fs.filterMap Form.noTarget?).getLast?.map remark

/-! ## Acts -/

/-- Passes on the first value. -/
def keep : Act := fun vs => (arg vs 0, none)

/-- Passes on the second value. -/
def second : Act := fun vs => (arg vs 1, none)

/-- Passes on what stands between brackets. -/
def enclosed : Act := second

/-- Says nothing. -/
def nothing : Act := fun _ => (.nothing, none)

/-- Makes a remark. -/
def remarking (r : Remark) : Act := fun _ => (.nothing, some r)

/-- Names a form. -/
def is (f : Form) : Act := fun _ => (.form f, none)

/-- Notes whether there is a comma. -/
def comma (b : Bool) : Act := fun _ => (.comma b, none)

/-- Starts a list. -/
def single : Act := fun vs => (.forms [formAt vs 0] false, none)

/-- Starts a list with what stands after a sign. -/
def link : Act := fun vs => (.forms [formAt vs 1] false, none)

/-- Adds to a list what stands after a separator. -/
def append : Act := fun vs => (.forms (formsAt vs 0 ++ [formAt vs 2]) false, none)

/-- Keeps a list together with the comma after it. -/
def list : Act := fun vs => (.forms (formsAt vs 0) (commaAt vs 1), none)

/-- Makes one expression of a list and the comma after it. -/
def gather : Act := fun vs => (.form (tupled (formsAt vs 0) (commaAt vs 1)), none)

/-- Makes one expression of a list between parentheses. -/
def gatherInner : Act := fun vs => (.form (tupled (formsAt vs 1) (commaAt vs 2)), none)

/-- The form of an atom with what is attached to it. -/
def trailed : Act := fun vs =>
  match arg vs 1 with
  | .form f => (.form f, none)
  | _ => (arg vs 0, none)

/-- Tests the target of an augmented assignment. -/
def update : Act := fun vs => (.nothing, lastRemark .assignment [formAt vs 0])

/-- Tests the targets of an assignment, all but the last of the values. -/
def assign : Act := fun vs =>
  (.nothing, lastRemark .assignment (formAt vs 0 :: (formsAt vs 1).dropLast))

/-- Tests what is deleted. -/
def delete : Act := fun vs => (.nothing, lastRemark .deletion (formsAt vs 1))

/-- Tests the target of a loop; a comma after a single target does not make a tuple of it. -/
def bindLoop : Act := fun vs =>
  (.nothing, lastRemark .assignment [tupled (formsAt vs 1) false])

/-- Tests the target of a comprehension. -/
def bind : Act := fun vs =>
  (.nothing, lastRemark .assignment [tupled (formsAt vs 1) (commaAt vs 1)])

/-- Tests a target after `as`. -/
def bindThird : Act := fun vs => (.nothing, lastRemark .assignment [formAt vs 2])

/-- Joins neighbouring string literals, which have to be of one kind. -/
def join : Act := fun vs =>
  match arg vs 0, arg vs 1 with
  | .string false, .string true => (.string false, some .bytesAfterString)
  | .string true, .string false => (.string true, some .stringAfterBytes)
  | v, _ => (v, none)

/-- An argument with or without a name. -/
def named (b : Bool) : Act := fun _ => (.arguments b, none)

/-- An argument named by an expression, which has to be a name. -/
def namedBy : Act := fun vs =>
  (.arguments true, if formAt vs 0 = .name then none else some .namedByExpression)

/-- Arguments and one more. -/
def bothNamed : Act := fun vs => (.arguments (namedAt vs 0 && namedAt vs 2), none)

/-- Tests the arguments after a starred one. -/
def afterStar : Act := fun vs =>
  (.arguments false, if namedAt vs 3 then none else some .unnamedAfterStar)

end Act

/-! ## Rules -/

/-- Rules that pass on their first value: the alternatives of each symbol. -/
def plainRules : List (String × List String) := [
    ("stmts_and_blanks", ["", "stmts_and_blanks NEWLINE", "stmts_and_blanks stmt"]),
    ("optional_argument_list", ["", "argument_list"]),
    ("optional_argument_list_call", ["", "( optional_argument_list )"]),
    ("decorator", ["@ dotted_name optional_argument_list_call NEWLINE"]),
    ("decorators", ["decorator", "decorators decorator"]),
    ("classdef_or_funcdef", ["classdef", "funcdef"]),
    ("decorated", ["decorators classdef_or_funcdef"]),
    ("optional_return_type", ["", "-> test"]),
    ("funcdef", ["def NAME parameters optional_return_type : suite"]),
    ("parameters", ["( optional_typed_parameter_list )"]),
    ("optional_typed_parameter_list", ["", "typed_parameter_list"]),
    ("typed_parameter", ["typed_name", "typed_name = test"]),
    ("more_typed_parameters", ["", "more_typed_parameters , typed_parameter"]),
    ("typed_parameters", ["typed_parameter", "typed_parameters , typed_parameter"]),
    ("optional_typed_name", ["", "typed_name"]),
    ("typed_parameter_list", ["typed_parameters optional_comma",
      "typed_parameters , * optional_typed_name more_typed_parameters",
      "typed_parameters , * optional_typed_name more_typed_parameters , ** typed_name",
      "typed_parameters , ** typed_name", "* optional_typed_name more_typed_parameters",
      "* optional_typed_name more_typed_parameters , ** typed_name", "** typed_name"]),
    ("typed_name", ["NAME", "NAME : test"]),
    ("bare_parameter", ["bare_name", "bare_name = test"]),
    ("more_bare_parameters", ["", "more_bare_parameters , bare_parameter"]),
    ("bare_parameters", ["bare_parameter", "bare_parameters , bare_parameter"]),
    ("optional_bare_name", ["", "bare_name"]),
    ("bare_parameter_list", ["bare_parameters optional_comma",
      "bare_parameters , * optional_bare_name more_bare_parameters",
      "bare_parameters , * optional_bare_name more_bare_parameters , ** bare_name",
      "bare_parameters , ** bare_name", "* optional_bare_name more_bare_parameters",
      "* optional_bare_name more_bare_parameters , ** bare_name", "** bare_name"]),
    ("bare_name", ["NAME"]),
    ("stmt", ["simple_stmt", "compound_stmt"]),
    ("optional_semicolon", ["", ";"]),
    ("small_stmts", ["small_stmt", "small_stmts ; small_stmt"]),
    ("simple_stmt", ["small_stmts optional_semicolon NEWLINE"]),
    ("small_stmt", ["expr_stmt", "del_stmt", "pass_stmt", "flow_stmt", "import_stmt",
      "global_stmt", "nonlocal_stmt", "assert_stmt"]),
    ("expr_stmt", ["starred_tests"]),
    ("updating_value", ["yield_expr", "test_list"]),
    ("assigned_value", ["yield_expr", "starred_tests"]),
    ("test_or_star", ["test", "star_expr"]),
    ("augassign", ["+=", "-=", "*=", "/=", "%=", "&=", "|=", "^=", "<<=", ">>=", "**=", "//="]),
    ("pass_stmt", ["pass"]),
    ("flow_stmt", ["break_stmt", "continue_stmt", "return_stmt", "raise_stmt", "yield_stmt"]),
    ("break_stmt", ["break"]),
    ("continue_stmt", ["continue"]),
    ("return_stmt", ["return", "return test_list"]),
    ("yield_stmt", ["yield_expr"]),
    ("raise_stmt", ["raise", "raise test", "raise test from test"]),
    ("import_stmt", ["import_name", "import_from"]),
    ("import_name", ["import dotted_as_names"]),
    ("dot", [".", "..."]),
    ("dots", ["dot", "dots dot"]),
    ("from_arg", ["dotted_name", "dots dotted_name", "dots"]),
    ("import_from_arg", ["*", "( import_as_names optional_comma )",
      "import_as_names optional_comma"]),
    ("import_from", ["from from_arg import import_from_arg"]),
    ("import_as_name", ["NAME", "NAME as NAME"]),
    ("dotted_as_name", ["dotted_name", "dotted_name as NAME"]),
    ("import_as_names", ["import_as_name", "import_as_names , import_as_name"]),
    ("dotted_as_names", ["dotted_as_name", "dotted_as_names , dotted_as_name"]),
    ("dotted_name", ["NAME", "dotted_name . NAME"]),
    ("names", ["NAME", "names , NAME"]),
    ("global_stmt", ["global names"]),
    ("nonlocal_stmt", ["nonlocal names"]),
    ("assert_stmt", ["assert test", "assert test , test"]),
    ("compound_stmt", ["if_stmt", "while_stmt", "for_stmt", "try_stmt", "with_stmt", "funcdef",
      "classdef", "decorated"]),
    ("elifs", ["", "elifs elif test : suite"]),
    ("optional_else", ["", "else : suite"]),
    ("if_stmt", ["if test : suite elifs optional_else"]),
    ("while_stmt", ["while test : suite optional_else"]),
    ("except_clauses", ["", "except_clauses except_clause : suite"]),
    ("try_stmt", ["try : suite except_clauses", "try : suite except_clauses else : suite",
      "try : suite except_clauses finally : suite",
      "try : suite except_clauses else : suite finally : suite"]),
    ("with_items", ["with_item", "with_items , with_item"]),
    ("with_stmt", ["with with_items : suite"]),
    ("with_item", ["test"]),
    ("except_clause", ["except", "except test", "except test as NAME"]),
    ("stmts", ["stmt", "stmts stmt"]),
    ("suite", ["simple_stmt", "NEWLINE INDENT stmts DEDENT"]),
    ("test", ["or_test", "lambdef"]),
    ("test_nocond", ["or_test", "lambdef_nocond"]),
    ("or_test", ["and_test"]),
    ("and_test", ["not_test"]),
    ("not_test", ["comparison"]),
    ("comparison", ["expr"]),
    ("comp_op", ["<", ">", "==", ">=", "<=", "!=", "in", "not in", "is", "is not"]),
    ("expr", ["xor_expr"]),
    ("xor_expr", ["and_expr"]),
    ("and_expr", ["shift_expr"]),
    ("shift_expr", ["arith_expr"]),
    ("arith_expr", ["term"]),
    ("term", ["factor"]),
    ("factor", ["power"]),
    ("strings", ["STRING"]),
    ("subscripts", ["subscript", "subscripts , subscript"]),
    ("subscript_list", ["subscripts optional_comma"]),
    ("subscript", ["test", ":", ": sliceop", ": test", ": test sliceop", "test :",
      "test : sliceop", "test : test", "test : test sliceop"]),
    ("sliceop", [":", ": test"]),
    ("expr_or_star", ["expr", "star_expr"]),
    ("set_items", ["tests optional_comma"]),
    ("dict_items", ["test : test", "dict_items , test : test"]),
    ("classdef", ["class NAME optional_argument_list_call : suite"]),
    ("arguments", ["argument"]),
    ("optional_arguments", ["", "arguments ,"]),
    ("argument_list", ["arguments optional_comma", "optional_arguments ** test"]),
    ("comp_iter", ["comp_for", "comp_if"]),
    ("comp_if", ["if test_nocond", "if test_nocond comp_iter"])]

open Act in
/-- Rules about forms. -/
def formRules : List (String × String × Act) := [
    ("expr_stmt", "starred_tests augassign updating_value", update),
    ("expr_stmt", "starred_tests assigned_values", assign),
    ("assigned_values", "= assigned_value", link),
    ("assigned_values", "assigned_values = assigned_value", append),
    ("tests_or_stars", "test_or_star", single),
    ("tests_or_stars", "tests_or_stars , test_or_star", append),
    ("optional_comma", "", comma false),
    ("optional_comma", ",", comma true),
    ("starred_tests", "tests_or_stars optional_comma", gather),
    ("del_stmt", "del expr_list", delete),
    ("tests", "test", single),
    ("tests", "tests , test", append),
    ("for_stmt", "for expr_list in test_list : suite optional_else", bindLoop),
    ("with_item", "test as expr", bindThird),
    ("test", "or_test if or_test else test", is .conditional),
    ("lambdef", "lambda : test", is .lambda),
    ("lambdef", "lambda bare_parameter_list : test", is .lambda),
    ("lambdef_nocond", "lambda : test_nocond", is .lambda),
    ("lambdef_nocond", "lambda bare_parameter_list : test_nocond", is .lambda),
    ("or_test", "or_test or and_test", is .operator),
    ("and_test", "and_test and not_test", is .operator),
    ("not_test", "not not_test", is .operator),
    ("comparison", "comparison comp_op expr", is .comparison),
    ("comp_op", "<>", remarking .invalid),
    ("star_expr", "* expr", is .starred),
    ("expr", "expr | xor_expr", is .operator),
    ("xor_expr", "xor_expr ^ and_expr", is .operator),
    ("and_expr", "and_expr & shift_expr", is .operator),
    ("shift_expr", "shift_expr << arith_expr", is .operator),
    ("shift_expr", "shift_expr >> arith_expr", is .operator),
    ("arith_expr", "arith_expr + term", is .operator),
    ("arith_expr", "arith_expr - term", is .operator),
    ("term", "term * factor", is .operator),
    ("term", "term / factor", is .operator),
    ("term", "term % factor", is .operator),
    ("term", "term // factor", is .operator),
    ("factor", "+ factor", is .operator),
    ("factor", "- factor", is .operator),
    ("factor", "~ factor", is .operator),
    ("power", "atom trailers", trailed),
    ("power", "atom trailers ** factor", is .operator),
    ("trailers", "", nothing),
    ("trailers", "trailers trailer", second),
    ("strings", "strings STRING", join),
    ("atom", "( )", is .tuple),
    ("atom", "( yield_expr )", enclosed),
    ("atom", "( test_or_star comp_for )", is .generator),
    ("atom", "( tests_or_stars optional_comma )", gatherInner),
    ("atom", "[ ]", is .list),
    ("atom", "[ test_or_star comp_for ]", is .listComprehension),
    ("atom", "[ tests_or_stars optional_comma ]", is .list),
    ("atom", "\x7b \x7d", is .literal),
    ("atom", "\x7b dict_or_set \x7d", enclosed),
    ("atom", "NAME", is .name),
    ("atom", "NUMBER", is .literal),
    ("atom", "strings", is .literal),
    ("atom", "...", is .ellipsis),
    ("atom", "None", is .keyword),
    ("atom", "True", is .keyword),
    ("atom", "False", is .keyword),
    ("trailer", "( )", is .call),
    ("trailer", "( argument_list )", is .call),
    ("trailer", "[ subscript_list ]", is .subscript),
    ("trailer", ". NAME", is .member),
    ("exprs_or_stars", "expr_or_star", single),
    ("exprs_or_stars", "exprs_or_stars , expr_or_star", append),
    ("expr_list", "exprs_or_stars optional_comma", list),
    ("test_list", "tests optional_comma", gather),
    ("dict_or_set", "dict_items optional_comma", is .literal),
    ("dict_or_set", "test : test comp_for", is .dictComprehension),
    ("dict_or_set", "set_items", is .literal),
    ("dict_or_set", "test comp_for", is .setComprehension),
    ("arguments", "arguments , argument", bothNamed),
    ("named_arguments", "", named true),
    ("named_arguments", "named_arguments , argument", bothNamed),
    ("argument_list", "optional_arguments * test named_arguments", afterStar),
    ("argument_list", "optional_arguments * test named_arguments , ** test", afterStar),
    ("argument", "test", named false),
    ("argument", "test comp_for", named false),
    ("argument", "test = test", namedBy),
    ("comp_for", "for expr_list in or_test", bind),
    ("comp_for", "for expr_list in or_test comp_iter", bind),
    ("yield_expr", "yield", is .yielded),
    ("yield_expr", "yield from test", is .yielded),
    ("yield_expr", "yield test_list", is .yielded)]

/-- A production written with blanks between its symbols. -/
def production (lhs rhs : String) : Grammar.Production :=
  ⟨lhs, (rhs.splitOn " ").filter (· != "")⟩

/-- The productions with their acts; the first is that of a whole text. -/
def rules : List (Grammar.Production × Act) :=
  (production "file_input" "stmts_and_blanks ENDMARKER", Act.keep) ::
    plainRules.flatMap (fun (lhs, alternatives) =>
      alternatives.map fun rhs => (production lhs rhs, Act.keep)) ++
    formRules.map fun (lhs, rhs, act) => (production lhs rhs, act)

/-- The automaton of the rules. -/
def automaton : Grammar.Automaton := .build (.ofList (rules.map (·.1)))

/-- The acts by the number of the production. -/
def acts : Array Act := (rules.map (·.2)).toArray

/-- The value of a production. -/
def meaning : Grammar.Meaning Sense Remark := fun n vs => (acts.getD n Act.keep) vs

end Contour.Script
