import Contour.Text.Decimal

/-!
# Forms of expressions and remarks about them

What a program text does with an expression depends on its form: only some forms can be assigned to
or deleted. `Remark` lists all that can be said against a text beyond its outline, and
`Remark.message` words it.
-/

namespace Contour.Script

/-- The form of an expression. -/
inductive Form where
  | name | member | subscript | starred | tuple | list
  | lambda | call | operator | generator | yielded
  | listComprehension | setComprehension | dictComprehension
  | literal | keyword | ellipsis | comparison | conditional
deriving DecidableEq, Repr, Inhabited

/-- The words for a form that cannot be a target; a form that can be one has none. -/
def Form.noTarget? : Form → Option String
  | name | member | subscript | starred | tuple | list => none
  | lambda => some "lambda"
  | call => some "function call"
  | operator => some "operator"
  | generator => some "generator expression"
  | yielded => some "yield expression"
  | listComprehension => some "list comprehension"
  | setComprehension => some "set comprehension"
  | dictComprehension => some "dict comprehension"
  | literal => some "literal"
  | keyword => some "keyword"
  | ellipsis => some "Ellipsis"
  | comparison => some "comparison"
  | conditional => some "conditional expression"

/-- What can be said against a text. -/
inductive Remark where
  /-- The text is not in the language. -/
  | invalid
  /-- The text ends too early. -/
  | incomplete
  /-- A line returns to no enclosing indentation. -/
  | inconsistentIndent
  /-- A decimal number starts with a zero that is not its only kind of digit. -/
  | leadingZero
  /-- A string literal is not closed on its line. -/
  | lineEndInString
  /-- A string literal in triple quotes is not closed. -/
  | textEndInString
  /-- A hexadecimal escape is too short. -/
  | shortEscape (letter : Char) (position : Nat)
  /-- A hexadecimal escape holds no number, or too large a one. -/
  | badEscape (letter : Char) (position : Nat)
  /-- The form cannot be assigned to. -/
  | assignment (what : String)
  /-- The form cannot be deleted. -/
  | deletion (what : String)
  /-- A byte string follows a string. -/
  | bytesAfterString
  /-- A string follows a byte string. -/
  | stringAfterBytes
  /-- An argument without a name follows a starred one. -/
  | unnamedAfterStar
  /-- A named argument is named by something else than a name. -/
  | namedByExpression
deriving DecidableEq, Repr

/-- The wording of an escape remark. -/
def escapeMessage (how : String) (letter : Char) (position : Nat) : String :=
  "Decode error: ValueError: '" ++ how ++ " \\\\" ++ String.ofList [letter] ++
    " escape at position " ++ Decimal.text position ++ "'"

/-- The wording of a remark. -/
def Remark.message : Remark → String
  | invalid => "invalid syntax"
  | incomplete => "unexpected EOF while parsing"
  | inconsistentIndent => "Inconsistent indent"
  | leadingZero => "illegal decimal with leading zero"
  | lineEndInString => "EOL while scanning string literal"
  | textEndInString => "EOF while scanning triple-quoted string literal"
  | shortEscape letter position => escapeMessage "truncated" letter position
  | badEscape letter position => escapeMessage "invalid" letter position
  | assignment what => "can't assign to " ++ what
  | deletion what => "can't delete " ++ what
  | bytesAfterString => "cannot mix string and nonstring literals"
  | stringAfterBytes => "cannot mix bytes and nonbytes literals"
  | unnamedAfterStar => "only named arguments may follow *expression"
  | namedByExpression => "keyword can't be an expression"

end Contour.Script
