import Monetary.Context.Basic
import Monetary.Text.Blank
import Monetary.Text.Letters

/-!
# Canonical widths

The contexts that have a name: those of the three decimal interchange formats, and the one without
a limit.
-/

namespace Monetary

/-- A named precision and rounding mode. -/
inductive Width where
  | decimal32
  | decimal64
  | decimal128
  | unlimited
deriving DecidableEq

namespace Width

/-- Every width. -/
def all : List Width := [.decimal32, .decimal64, .decimal128, .unlimited]

/-- The name of a width. -/
def name : Width → String
  | .decimal32 => "DECIMAL32"
  | .decimal64 => "DECIMAL64"
  | .decimal128 => "DECIMAL128"
  | .unlimited => "UNLIMITED"

/-- The precision of a width. -/
def precision : Width → UInt32
  | .decimal32 => 7
  | .decimal64 => 16
  | .decimal128 => 34
  | .unlimited => 0

/-- The rounding mode of a width. -/
def rounding : Width → Rounding
  | .unlimited => .halfUp
  | _ => .halfEven

/-- The context of a width. -/
def context (width : Width) : Context :=
  .money width.precision width.rounding

/-- Reads the name of a width in any case, with blanks around it allowed. -/
def read? (text : String) : Option Width :=
  let name := String.ofList (Text.upper (Text.trim text.toList))
  all.find? fun width => width.name == name

end Width

end Monetary
