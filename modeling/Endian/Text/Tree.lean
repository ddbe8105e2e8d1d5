/-!
# Structured text

A value shown by its structure: a name with fields, printed on one line (`Tree.compact`) or with
one field a line (`Tree.pretty`).
-/

namespace Endian.Text

mutual

/-- A value as a name with parts. -/
inductive Tree where
  /-- Text that is printed as it is. -/
  | leaf (text : String)
  /-- A name with one part in parentheses. -/
  | wrapped (name : String) (part : Tree)
  /-- A name with named parts. -/
  | record (name : String) (fields : Fields)

/-- The named parts of a record. -/
inductive Fields where
  | nil
  | cons (name : String) (value : Tree) (rest : Fields)

end

/-- The parts of a record from a list of names and values. -/
def Fields.ofList : List (String × Tree) → Fields
  | [] => .nil
  | (name, value) :: rest => .cons name value (ofList rest)

mutual

/-- The value on one line. -/
def Tree.compact : Tree → String
  | .leaf text => text
  | .wrapped name part => name ++ "(" ++ part.compact ++ ")"
  | .record name .nil => name
  | .record name (.cons field value rest) =>
    name ++ " \x7b " ++ field ++ ": " ++ value.compact ++ rest.compact ++ " \x7d"

/-- The remaining fields on one line, each after a comma. -/
def Fields.compact : Fields → String
  | .nil => ""
  | .cons field value rest => ", " ++ field ++ ": " ++ value.compact ++ rest.compact

end

mutual

/-- The value over several lines, the first of which needs no indentation. -/
def Tree.pretty (indent : String) : Tree → String
  | .leaf text => text
  | .wrapped name part =>
    name ++ "(\n" ++ indent ++ "    " ++ part.pretty (indent ++ "    ") ++ ",\n" ++ indent ++ ")"
  | .record name .nil => name
  | .record name (.cons field value rest) =>
    name ++ " \x7b\n" ++ indent ++ "    " ++ field ++ ": " ++ value.pretty (indent ++ "    ") ++ ",\n"
      ++ rest.pretty indent ++ indent ++ "\x7d"

/-- The remaining fields, each on lines of its own. -/
def Fields.pretty (indent : String) : Fields → String
  | .nil => ""
  | .cons field value rest =>
    indent ++ "    " ++ field ++ ": " ++ value.pretty (indent ++ "    ") ++ ",\n" ++ rest.pretty indent

end

end Endian.Text
