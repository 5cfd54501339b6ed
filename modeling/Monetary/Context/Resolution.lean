import Monetary.Config.Environment
import Monetary.Context.Width
import Monetary.Event

/-!
# The default context

How a configuration chooses the context of amounts that name none: by a precision, with a rounding
mode that is half-up unless it is set; otherwise by a width; otherwise it is `DECIMAL64`. A
configuration that cannot be followed also leads to `DECIMAL64`. Each choice is reported by one
event.
-/

namespace Monetary

/-- Why a configuration chooses no context. -/
inductive ResolutionError where
  | invalidPrecision (value : String)
  | invalidRoundingMode (value : String)
  | unknownWidth (value : String)
  | config (cause : ConfigError)
deriving DecidableEq

namespace ResolutionError

/-- The wording of a resolution error. -/
def message : ResolutionError → String
  | .invalidPrecision value => "invalid precision " ++ Text.quoted value
  | .invalidRoundingMode value => "invalid rounding mode " ++ Text.quoted value
  | .unknownWidth value => "unknown math context " ++ Text.quoted value
  | .config cause => cause.message

end ResolutionError

/-- Reads the name of a width. -/
def Width.read (text : String) : Except ResolutionError Width :=
  match Width.read? text with
  | some width => .ok width
  | none => .error (.unknownWidth text)

/-- A chosen context and the event that reports the choice. -/
structure Resolution where
  context : Context
  event : Event
deriving DecidableEq

namespace Resolution

/-- Reads a precision, with blanks around it allowed. -/
def readPrecision (text : String) : Except ResolutionError UInt32 :=
  match Text.readNatural (Text.trim text.toList) with
  | some n => if n < 4294967296 then .ok (UInt32.ofNat n) else .error (.invalidPrecision text)
  | none => .error (.invalidPrecision text)

/-- Reads the rounding mode that goes with a precision. -/
def readRounding : Option String → Except ResolutionError Rounding
  | none => .ok .halfUp
  | some text =>
    match Rounding.read text with
    | .ok mode => .ok mode
    | .error _ => .error (.invalidRoundingMode text)

/-- The choice of a precision and a rounding mode. -/
def custom (precision : UInt32) (rounding : Rounding) : Resolution :=
  let context := Context.money precision rounding
  { context
    event := ⟨.info, "Using custom numeric context",
      [("precision", context.precisionText), ("rounding", rounding.name)]⟩ }

/-- The choice of a width. -/
def ofWidth (width : Width) : Resolution :=
  { context := width.context
    event := ⟨.info, "Using configured canonical numeric context", [("width", width.name)]⟩ }

/-- The choice where nothing is configured. -/
def unconfigured : Resolution :=
  { context := Width.decimal64.context
    event := ⟨.info, "Using default numeric context DECIMAL64", []⟩ }

/-- The choice where the configuration cannot be followed. -/
def fallback (error : ResolutionError) : Resolution :=
  { context := Width.decimal64.context
    event := ⟨.error, "Error evaluating default numeric context, using default (DECIMAL64)",
      [("error", error.message)]⟩ }

/-- The choice that the texts of the settings ask for. -/
def ofSettings (textOf : Setting → Option String) : Except ResolutionError Resolution :=
  match textOf .precision with
  | some text => do
    let precision ← readPrecision text
    return custom precision (← readRounding (textOf .roundingMode))
  | none =>
    match textOf .mathContext with
    | some text => do return ofWidth (← Width.read text)
    | none => .ok unconfigured

/-- A choice, or the fallback from what prevents it. -/
def orFallback : Except ResolutionError Resolution → Resolution
  | .ok resolution => resolution
  | .error error => fallback error

end Resolution

/-- The context that a configuration chooses. -/
def Config.resolve (config : Config) : Resolution :=
  .orFallback (Resolution.ofSettings config.setting?)

/-- The context that the configuration of a process chooses. -/
def Environment.resolve (environment : Environment) : Resolution :=
  match environment.load with
  | .ok config => config.resolve
  | .error error => .fallback (.config error)

end Monetary
