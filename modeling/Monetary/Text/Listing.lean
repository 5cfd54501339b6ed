/-!
# Listings

Diagnostic texts of values with named fields, on one line or on a line for each field.
-/

namespace Monetary.Text

/-- A value with a name and named parts, each of which is a text or such a value. -/
inductive Listing where
  | text (content : String)
  | fields (name : String) (parts : List (String × Listing))

namespace Listing

mutual

/-- A listing on one line. -/
def inline : Listing → String
  | .text content => content
  | .fields name parts => name ++ " \x7b " ++ inlineParts parts ++ " \x7d"

/-- The parts of a listing, divided by commas. -/
def inlineParts : List (String × Listing) → String
  | [] => ""
  | [(field, part)] => field ++ ": " ++ inline part
  | (field, part) :: rest => field ++ ": " ++ inline part ++ ", " ++ inlineParts rest

end

mutual

/-- A listing with each field on a line of its own, below the given indentation. -/
def block (indent : String) : Listing → String
  | .text content => content
  | .fields name parts =>
    name ++ " \x7b\n" ++ blockParts (indent ++ "    ") parts ++ indent ++ "\x7d"

/-- The lines of the parts of a listing. -/
def blockParts (indent : String) : List (String × Listing) → String
  | [] => ""
  | (field, part) :: rest =>
    indent ++ field ++ ": " ++ block indent part ++ ",\n" ++ blockParts indent rest

end

end Listing

end Monetary.Text
