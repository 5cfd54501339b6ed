import Monetary.Config.Environment
import Monetary.Proofs.Result

/-!
# Which text of a setting counts

A configuration keeps one text under each key. So the last line of a file with some key counts for
this key, and where it stands among the lines with other keys does not matter. The environment sets
the short key of a setting after the file is read, and the long key is only asked where the short
one is absent. So a text of the environment counts more than the file, and in the file a text under
the short key counts more than one under the long key, even if the latter stands below it.
-/

namespace Monetary

/-- The text that the last of some entries with a key gives to it. -/
def lastText? (entries : List (String × String)) (key : String) : Option String :=
  ((entries.filter fun entry => entry.1 = key).getLast?).map Prod.snd

/-- The first entry counts only where no later one has its key. -/
theorem lastText?_cons (entry : String × String) (entries : List (String × String))
    (key : String) : lastText? (entry :: entries) key =
      (lastText? entries key).or (if entry.1 = key then some entry.2 else none) := by
  unfold lastText?
  by_cases hkey : entry.1 = key
  · rw [List.filter_cons_of_pos (by simpa using hkey), List.getLast?_cons, if_pos hkey]
    cases (entries.filter fun entry => entry.1 = key).getLast? <;> rfl
  · rw [List.filter_cons_of_neg (by simpa using hkey), if_neg hkey, Option.or_none]

namespace PropertyLine

/-- The key and the text of a line that is an entry. -/
def pair? : PropertyLine → Option (String × String)
  | .entry key value => some (key, value)
  | _ => none

/-- The entries of some lines in order, if none of the lines is malformed. -/
def entries? (lines : List (List Char)) : Option (List (String × String)) :=
  if .malformed ∈ lines.map read then none
  else some (lines.filterMap fun line => (read line).pair?)

end PropertyLine

namespace Config

/-- A configuration to which entries are added gives the last text of them to a key, or else the
text that it had. -/
theorem get?_foldl_set (config : Config) (entries : List (String × String)) (key : String) :
    (entries.foldl (fun config entry => config.set entry.1 entry.2) config).get? key =
      (lastText? entries key).or (config.get? key) := by
  induction entries generalizing config with
  | nil => rfl
  | cons entry entries ih =>
    rw [List.foldl_cons, ih, get?_set, lastText?_cons]
    cases lastText? entries key with
    | some text => rfl
    | none => by_cases hkey : entry.1 = key <;> simp [hkey]

/-- A configuration of entries gives the last text of them to a key. -/
theorem get?_ofPairs (entries : List (String × String)) (key : String) :
    (ofPairs entries).get? key = lastText? entries key := by
  rw [ofPairs, get?_foldl_set, get?_empty, Option.or_none]

/-- Lines are added to a configuration by adding their entries, unless one is malformed. -/
theorem toOption_addLines (config : Config) (number : Nat) (lines : List (List Char)) :
    (config.addLines number lines).toOption = (PropertyLine.entries? lines).map
      (·.foldl (fun config entry => config.set entry.1 entry.2) config) := by
  -- What counts is only whether there is an error, not which line it names.
  induction lines generalizing config number with
  | nil => rfl
  | cons line lines ih =>
    unfold addLines
    cases hline : PropertyLine.read line with
    | ignored =>
      dsimp only
      rw [ih]
      simp [PropertyLine.entries?, PropertyLine.pair?, hline]
    | entry key value =>
      dsimp only
      rw [ih]
      by_cases hmalformed : .malformed ∈ lines.map PropertyLine.read
      · simp [PropertyLine.entries?, hmalformed]
      · simp [PropertyLine.entries?, PropertyLine.pair?, hline, hmalformed]
    | malformed => simp [PropertyLine.entries?, hline, Except.toOption]

end Config

namespace ConfigFile

/-- The entries of a file in order; none at all if it cannot be read as a text or has a malformed
line. -/
def entries? : ConfigFile → Option (List (String × String))
  | .unnamed => some []
  | .unreadable _ _ => none
  | .readable _ bytes => (String.fromUTF8? bytes).bind fun text =>
    PropertyLine.entries? (Text.lines text.toList)

/-- A file holds the configuration of its entries. -/
theorem toOption_load (file : ConfigFile) :
    file.load.toOption = file.entries?.map Config.ofPairs := by
  cases file with
  | unnamed => rfl
  | unreadable path cause => rfl
  | readable path bytes =>
    rw [load, entries?]
    cases String.fromUTF8? bytes with
    | none => rfl
    | some text => exact Config.toOption_addLines _ _ _

end ConfigFile

/-- The long key of a setting goes with its short one. -/
theorem Setting.alias?_key (setting : Setting) : alias? setting.key = some setting.longKey := by
  cases setting <;> decide

namespace Environment

/-- The text that counts for a setting: that of the environment, if the bytes it has there are a
text, or else the last one in the file under the short key, or else the last one in the file under
the long key. -/
def effective? (environment : Environment) (entries : List (String × String))
    (setting : Setting) : Option String :=
  ((environment.bytesOf setting).bind String.fromUTF8?).or
    ((lastText? entries setting.key).or (lastText? entries setting.longKey))

/-- Overriding a setting changes what is found under its short key and nothing else. -/
theorem get?_overrideSetting (environment : Environment) (config : Config) (setting : Setting)
    (key : String) : (environment.overrideSetting config setting).get? key =
      if setting.key = key then (environment.override? setting).or (config.get? key)
      else config.get? key := by
  unfold overrideSetting
  cases environment.override? setting with
  | none => simp
  | some value =>
    rw [Config.get?_set]
    by_cases hkey : setting.key = key <;> simp [hkey]

/-- The configuration of a process with a readable file gives the text that counts to each
setting. -/
theorem exists_load {environment : Environment} {entries : List (String × String)}
    (h : environment.file.entries? = some entries) :
    ∃ config, environment.load = .ok config ∧
      config.setting? = environment.effective? entries := by
  have hfile := environment.file.toOption_load
  rw [h, Option.map_some, toOption_eq_some_iff] at hfile
  refine ⟨Setting.all.foldl environment.overrideSetting (.ofPairs entries), ?_, ?_⟩
  · rw [load, hfile]
    rfl
  · funext setting
    simp only [Config.setting?, Config.lookup?, Setting.alias?_key, Option.bind_some, Setting.all,
      List.foldl_cons, List.foldl_nil, get?_overrideSetting, Config.get?_ofPairs, effective?,
      override?]
    -- The keys of the settings all differ, so an override only shows under its own short key.
    cases setting <;> simp [Setting.key, Setting.longKey, Option.or_assoc]

/-- A process whose file is not readable has no configuration. -/
theorem exists_load_error {environment : Environment} (h : environment.file.entries? = none) :
    ∃ error, environment.load = .error error := by
  have hfile := environment.file.toOption_load
  rw [h, Option.map_none] at hfile
  rw [load]
  cases hload : environment.file.load with
  | error error => exact ⟨error, rfl⟩
  | ok config =>
    rw [hload] at hfile
    cases hfile

end Environment

end Monetary
