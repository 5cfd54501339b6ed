/-!
# Events

What a computation reports beside its result: one line of a log, with named texts.
-/

namespace Monetary

/-- How much an event matters. -/
inductive Level where
  | debug
  | info
  | error
deriving DecidableEq

/-- The name of a level. -/
def Level.name : Level → String
  | .debug => "DEBUG"
  | .info => "INFO"
  | .error => "ERROR"

/-- A reported event. -/
structure Event where
  level : Level
  message : String
  fields : List (String × String)
deriving DecidableEq

end Monetary
