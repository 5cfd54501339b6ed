import Monetary.Config.Properties

/-!
# The environment

Where the configuration of a process comes from: a properties file that the environment may name,
and an environment variable for each setting, which counts more than the file.
-/

namespace Monetary

/-- The properties file of a process. -/
inductive ConfigFile where
  /-- No file is named. -/
  | unnamed
  /-- The named file cannot be read. -/
  | unreadable (path : String) (cause : FileError)
  /-- The named file and the bytes it holds. -/
  | readable (path : String) (bytes : ByteArray)

namespace ConfigFile

/-- The configuration that a file holds; empty where no file is named. -/
def load : ConfigFile → Except ConfigError Config
  | .unnamed => .ok .empty
  | .unreadable path cause => .error (.unreadable path cause)
  | .readable path bytes =>
    match String.fromUTF8? bytes with
    | some text => Config.ofProperties text
    | none => .error (.unreadable path .notText)

end ConfigFile

/-- The part of a process's surroundings that its configuration depends on. -/
structure Environment where
  file : ConfigFile
  /-- The bytes of the environment variable of a setting, if it is set. -/
  bytesOf : Setting → Option ByteArray

namespace Environment

/-- Surroundings that configure nothing. -/
def bare : Environment := ⟨.unnamed, fun _ => none⟩

/-- The text that the environment gives to a setting; bytes that are no text count as none. -/
def override? (environment : Environment) (setting : Setting) : Option String :=
  (environment.bytesOf setting).bind String.fromUTF8?

/-- A configuration with a setting overridden by the environment. -/
def overrideSetting (environment : Environment) (config : Config) (setting : Setting) : Config :=
  match environment.override? setting with
  | some value => config.set setting.key value
  | none => config

/-- The configuration of a process. -/
def load (environment : Environment) : Except ConfigError Config := do
  let config ← environment.file.load
  return Setting.all.foldl environment.overrideSetting config

end Environment

end Monetary
