import Contour.Editor.Data

/-!
# Forms of data

What the data in a message have to look like. `Form.admits` tests it: nothing has every form, and of
a record only those fields count whose names the form knows.
-/

namespace Contour.Editor

/-- What data have to look like. -/
inductive Form where
  | any
  /-- Anything whose numbers can be held. -/
  | held
  | bool
  | text
  /-- A whole number of 32 bits without a sign. -/
  | natural
  /-- A whole number of 32 bits with a sign. -/
  | integer
  /-- A list with items of one form. -/
  | list (item : Form)
  /-- A record whose fields have forms by their names. -/
  | record (fields : List (String × Form))
  | either (first second : Form)
deriving Repr, Inhabited

namespace Form

mutual

/-- Whether data have a form. -/
def admits : Form → Data → Bool
  | _, .null => true
  | any, _ => true
  | held, d => d.isHeld
  | bool, .bool _ => true
  | text, .text _ => true
  | natural, .int n => 0 ≤ n && n < 4294967296
  | integer, .int n => -2147483648 ≤ n && n < 2147483648
  | list item, .list items => items.all fun d => item.admits d
  | record fields, .record given => admitsFields fields given
  | either first second, d => first.admits d || second.admits d
  | _, _ => false

/-- Whether the fields of a record have their forms. -/
def admitsFields : List (String × Form) → List (String × Data) → Bool
  | [], _ => true
  | (name, form) :: rest, given =>
    (given.all fun f => !Text.sameFolded f.1 name || form.admits f.2) && admitsFields rest given

end

/-- Fields that hold truth values. -/
def flags (names : List String) : List (String × Form) := names.map (·, bool)

/-- Fields that hold texts. -/
def texts (names : List String) : List (String × Form) := names.map (·, text)

/-- A number or a text by which the editor knows a task. -/
def token : Form := either integer text

end Form

end Contour.Editor
