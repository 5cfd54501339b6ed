import Monetary.Config.Basic
import Monetary.Text.Blank
import Monetary.Text.Letters
import Monetary.Text.Lines

/-!
# Properties texts

A configuration as a text: an entry on each line, its key before the first `=` or `:` and its text
after it, both without the blanks around them. Blank lines count for nothing, nor do lines whose
first character other than a blank is `#` or `!`.
-/

namespace Monetary

/-- What a line of a properties text says. -/
inductive PropertyLine where
  | ignored
  | entry (key value : String)
  | malformed
deriving DecidableEq

namespace PropertyLine

/-- Reads a line without blanks around it as an entry. -/
def readEntry (line : List Char) : PropertyLine :=
  match Text.cutAt (fun c => c == '=' || c == ':') line with
  | (_, none) => .malformed
  | (before, some after) =>
    let key := Text.trim before
    if key.isEmpty then .malformed
    else .entry (String.ofList key) (String.ofList (Text.trim after))

/-- Reads a line. -/
def read (line : List Char) : PropertyLine :=
  match Text.trim line with
  | [] => .ignored
  | '#' :: _ => .ignored
  | '!' :: _ => .ignored
  | trimmed => readEntry trimmed

end PropertyLine

namespace Config

/-- The configuration with the entries of some lines added; `number` is that of the line before
the first one. -/
def addLines (config : Config) (number : Nat) : List (List Char) → Except ConfigError Config
  | [] => .ok config
  | line :: rest =>
    match PropertyLine.read line with
    | .ignored => addLines config (number + 1) rest
    | .entry key value => addLines (config.set key value) (number + 1) rest
    | .malformed => .error (.malformed (number + 1) (String.ofList line))

/-- The configuration that a properties text writes down. -/
def ofProperties (text : String) : Except ConfigError Config :=
  empty.addLines 0 (Text.lines text.toList)

end Config

end Monetary
