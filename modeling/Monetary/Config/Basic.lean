import Monetary.Text.Numeral
import Monetary.Text.Quoted

/-!
# Configuration

A configuration gives texts to keys. The three settings that this library reads have a short key
each, and a longer one that counts where the short one is absent.
-/

namespace Monetary

/-- The settings that choose the default context. -/
inductive Setting where
  | precision
  | roundingMode
  | mathContext
deriving DecidableEq

namespace Setting

/-- Every setting. -/
def all : List Setting := [.precision, .roundingMode, .mathContext]

/-- The short key of a setting. -/
def key : Setting → String
  | .precision => "money.defaults.precision"
  | .roundingMode => "money.defaults.roundingMode"
  | .mathContext => "money.defaults.mathContext"

/-- The key that counts for a setting where the short one is absent. -/
def longKey : Setting → String
  | .precision => "org.javamoney.moneta.Money.defaults.precision"
  | .roundingMode => "org.javamoney.moneta.Money.defaults.roundingMode"
  | .mathContext => "org.javamoney.moneta.Money.defaults.mathContext"

/-- The long key that goes with a short one. -/
def alias? (key : String) : Option String :=
  (all.find? fun setting => setting.key == key).map longKey

end Setting

/-- Texts under keys, each key once. -/
structure Config where
  entries : List (String × String)
deriving DecidableEq

namespace Config

/-- The configuration without keys. -/
def empty : Config := ⟨[]⟩

/-- Entries with the text under a key replaced, or added at the end. -/
def setEntry (key value : String) : List (String × String) → List (String × String)
  | [] => [(key, value)]
  | (k, v) :: rest => if k = key then (key, value) :: rest else (k, v) :: setEntry key value rest

/-- The configuration with one more text, in place of an earlier one under the same key. -/
def set (config : Config) (key value : String) : Config :=
  ⟨setEntry key value config.entries⟩

/-- The configuration of a list of keys and texts, where the last text under a key counts. -/
def ofPairs (pairs : List (String × String)) : Config :=
  pairs.foldl (fun config pair => config.set pair.1 pair.2) empty

/-- The text under a key. -/
def get? (config : Config) (key : String) : Option String :=
  (config.entries.find? fun entry => entry.1 = key).map Prod.snd

/-- The text under a key, or else under the long key that goes with it. -/
def lookup? (config : Config) (key : String) : Option String :=
  (config.get? key).or ((Setting.alias? key).bind config.get?)

/-- The text of a setting. -/
def setting? (config : Config) (setting : Setting) : Option String :=
  config.lookup? setting.key

/-- The number of keys. -/
def size (config : Config) : Nat :=
  config.entries.length

/-- Whether there are no keys. -/
def isEmpty (config : Config) : Bool :=
  config.entries.isEmpty

theorem get?_empty (key : String) : empty.get? key = none := rfl

/-- Setting a key changes what is found under it and nothing else. -/
theorem get?_set (config : Config) (key value other : String) :
    (config.set key value).get? other = if key = other then some value else config.get? other := by
  obtain ⟨entries⟩ := config
  simp only [get?, set]
  induction entries with
  | nil => by_cases h : key = other <;> simp [setEntry, h]
  | cons entry rest ih =>
    obtain ⟨k, v⟩ := entry
    by_cases hk : k = key
    · subst hk
      by_cases h : k = other <;> simp [setEntry, h]
    · by_cases ho : k = other
      · subst ho
        simp [setEntry, hk, Ne.symm hk]
      · simpa [setEntry, List.find?_cons, hk, ho] using ih

end Config

/-- Why a file cannot be read as a text. -/
inductive FileError where
  | notFound
  | isDirectory
  | notText
deriving DecidableEq

/-- The wording of a file error. -/
def FileError.message : FileError → String
  | .notFound => "No such file or directory (os error 2)"
  | .isDirectory => "Is a directory (os error 21)"
  | .notText => "stream did not contain valid UTF-8"

/-- Why there is no configuration. -/
inductive ConfigError where
  /-- The file at this path cannot be read. -/
  | unreadable (path : String) (cause : FileError)
  /-- The line of this number, counted from one, is neither an entry nor a comment nor blank. -/
  | malformed (line : Nat) (content : String)
deriving DecidableEq

/-- The wording of a configuration error. -/
def ConfigError.message : ConfigError → String
  | .unreadable path cause => "cannot read config file " ++ path ++ ": " ++ cause.message
  | .malformed line content =>
    "malformed config line " ++ String.ofList (Text.digits line) ++ ": " ++ Text.quoted content

end Monetary
