import Monetary.Proofs.Config.Override
import Monetary.Proofs.Text.Lines
import Monetary.Proofs.Text.Slices

/-!
# What a properties text says

A properties text is read line by line, and a line is read without regard to the others. So a text
that ends with a line feed and the text that follows it are read one by one: the entries of the
second one override those of the first, and a malformed line is the first one of the whole, counted
on from the lines of the first text. A text that is written line by line, with entries in their plain
form, is therefore read as the list of these entries, of which the last one with a key counts.
-/

namespace Monetary

namespace PropertyLine

/-- Whether a line says nothing: it is blank, or its first character other than a blank is a comment
mark. -/
def IsSkipped (line : List Char) : Prop :=
  Text.trim line = [] ∨ ∃ rest, Text.trim line = '#' :: rest ∨ Text.trim line = '!' :: rest

/-- Whether a line says something, and has a key other than the empty one before its first separator
and this value after it, both without the blanks around them. -/
def IsEntry (line : List Char) (key value : String) : Prop :=
  ¬ IsSkipped line ∧ ∃ before separator after, Text.trim line = before ++ separator :: after ∧
    (separator = '=' ∨ separator = ':') ∧ (∀ c ∈ before, c ≠ '=' ∧ c ≠ ':') ∧
    Text.trim before ≠ [] ∧ key = String.ofList (Text.trim before) ∧
    value = String.ofList (Text.trim after)

/-- Whether a line says something that is no entry. -/
def IsMalformed (line : List Char) : Prop :=
  ¬ IsSkipped line ∧ ∀ key value, ¬ IsEntry line key value

variable {line before after : List Char} {separator : Char} {key value : String}

/-- A text has no separator, or a first one. -/
theorem separator_cases (text : List Char) : (∀ c ∈ text, c ≠ '=' ∧ c ≠ ':') ∨
    ∃ before separator after, text = before ++ separator :: after ∧
      (separator = '=' ∨ separator = ':') ∧ ∀ c ∈ before, c ≠ '=' ∧ c ≠ ':' := by
  rcases Text.offsetOf?_cases (fun c => c == '=' || c == ':') text with
    ⟨-, hall⟩ | ⟨before, separator, after, htext, hbefore, hseparator, -⟩
  · exact .inl (by simpa using hall)
  · exact .inr ⟨before, separator, after, htext, by simpa using hseparator, by simpa using hbefore⟩

/-- Without a separator a line is no entry. -/
theorem readEntry_of_forall (h : ∀ c ∈ line, c ≠ '=' ∧ c ≠ ':') : readEntry line = .malformed := by
  have hcut : Text.cutAt (fun c => c == '=' || c == ':') line = (line, none) :=
    Text.cutAt_of_forall (by simpa using h)
  rw [readEntry, hcut]

/-- A line is read as an entry around its first separator. -/
theorem readEntry_append_cons (hbefore : ∀ c ∈ before, c ≠ '=' ∧ c ≠ ':')
    (hseparator : separator = '=' ∨ separator = ':') (after : List Char) :
    readEntry (before ++ separator :: after) =
      if (Text.trim before).isEmpty then .malformed
      else .entry (String.ofList (Text.trim before)) (String.ofList (Text.trim after)) := by
  have hcut : Text.cutAt (fun c => c == '=' || c == ':') (before ++ separator :: after) =
      (before, some after) :=
    Text.cutAt_append_cons (by simpa using hbefore) (by simpa using hseparator) after
  rw [readEntry, hcut]

/-- A line that says nothing is ignored. -/
theorem read_of_isSkipped (h : IsSkipped line) : read line = .ignored := by
  unfold read
  obtain h | ⟨rest, h | h⟩ := h
  · rw [h]
  · rw [h]
    rfl
  · rw [h]
    rfl

/-- A line that says something is read as an entry. -/
theorem read_of_not_isSkipped (h : ¬ IsSkipped line) : read line = readEntry (Text.trim line) := by
  unfold read
  split
  · rename_i hnil
    exact absurd (.inl hnil) h
  · rename_i rest hcomment
    exact absurd (.inr ⟨rest, .inl hcomment⟩) h
  · rename_i rest hcomment
    exact absurd (.inr ⟨rest, .inr hcomment⟩) h
  · rfl

/-- Lines that differ in the blanks around them only are read alike. -/
theorem read_congr {other : List Char} (h : Text.trim line = Text.trim other) :
    read line = read other := by
  rw [read, read, h]

/-- An entry is read as such. -/
theorem read_of_isEntry (h : IsEntry line key value) : read line = .entry key value := by
  obtain ⟨hsaid, before, separator, after, hline, hseparator, hbefore, hkey, rfl, rfl⟩ := h
  rw [read_of_not_isSkipped hsaid, hline, readEntry_append_cons hbefore hseparator,
    if_neg (by rwa [List.isEmpty_iff])]

/-- A line that is neither an entry nor says nothing is malformed. -/
theorem read_of_isMalformed (h : IsMalformed line) : read line = .malformed := by
  obtain ⟨hsaid, hentry⟩ := h
  rw [read_of_not_isSkipped hsaid]
  rcases separator_cases (Text.trim line) with
    hnone | ⟨before, separator, after, hline, hseparator, hbefore⟩
  · exact readEntry_of_forall hnone
  · rw [hline, readEntry_append_cons hbefore hseparator, if_pos]
    by_contra hkey
    exact hentry _ _ ⟨hsaid, before, separator, after, hline, hseparator, hbefore,
      mt List.isEmpty_iff.mpr hkey, rfl, rfl⟩

/-- Just the lines that are malformed are read as such. -/
theorem read_eq_malformed_iff : read line = .malformed ↔ IsMalformed line := by
  refine ⟨fun h => ⟨fun hskipped => ?_, fun key value hentry => ?_⟩, read_of_isMalformed⟩
  · rw [read_of_isSkipped hskipped] at h
    cases h
  · rw [read_of_isEntry hentry] at h
    cases h

/-- Whether the first malformed line of some lines has this number, counted from one. -/
def FailsAt (lines : List (List Char)) (number : Nat) (line : List Char) : Prop :=
  ∃ before after, lines = before ++ line :: after ∧ number = before.length + 1 ∧
    (∀ other ∈ before, ¬ IsMalformed other) ∧ IsMalformed line

/-- Behind a line that is not malformed, the first malformed line is one further down. -/
theorem failsAt_cons_iff {first : List Char} (hfirst : ¬ IsMalformed first)
    {rest : List (List Char)} {number : Nat} : FailsAt (first :: rest) number line ↔
      ∃ k, number = k + 1 ∧ FailsAt rest k line := by
  constructor
  · rintro ⟨_ | ⟨other, before⟩, after, hlines, rfl, hbefore, hline⟩
    · cases hlines
      exact absurd hline hfirst
    · cases hlines
      exact ⟨_, rfl, before, after, rfl, rfl, (List.forall_mem_cons.mp hbefore).2, hline⟩
  · rintro ⟨_, rfl, before, after, rfl, rfl, hbefore, hline⟩
    exact ⟨first :: before, after, rfl, rfl, List.forall_mem_cons.mpr ⟨hfirst, hbefore⟩, hline⟩

/-- A malformed line in front is the first one. -/
theorem failsAt_cons_of_isMalformed {first : List Char} (hfirst : IsMalformed first)
    {rest : List (List Char)} {number : Nat} :
    FailsAt (first :: rest) number line ↔ number = 1 ∧ line = first := by
  constructor
  · rintro ⟨_ | ⟨other, before⟩, after, hlines, rfl, hbefore, -⟩
    · cases hlines
      exact ⟨rfl, rfl⟩
    · cases hlines
      exact absurd hfirst (List.forall_mem_cons.mp hbefore).1
  · rintro ⟨rfl, rfl⟩
    exact ⟨[], rest, rfl, rfl, by simp, hfirst⟩

end PropertyLine

namespace Config

open PropertyLine

variable {first second text : String} {config : Config} {error : ConfigError}

/-- Lines are added part by part, and are counted on. -/
theorem addLines_append (config : Config) (number : Nat) (first second : List (List Char)) :
    config.addLines number (first ++ second) =
      config.addLines number first >>= fun config =>
        config.addLines (number + first.length) second := by
  induction first generalizing config number with
  | nil => rfl
  | cons line first ih =>
    have hnumber : number + 1 + first.length = number + (line :: first).length := by
      rw [List.length_cons]
      omega
    rw [List.cons_append, addLines, addLines]
    split
    · rw [ih, hnumber]
    · rw [ih, hnumber]
    · rfl

/-- Adding lines fails exactly with the first malformed line, at its number. -/
theorem addLines_eq_error_iff {number : Nat} {lines : List (List Char)} :
    config.addLines number lines = .error error ↔ ∃ k line, FailsAt lines k line ∧
      error = .malformed (number + k) (String.ofList line) := by
  induction lines generalizing config number with
  | nil =>
    refine iff_of_false nofun ?_
    rintro ⟨_, _, ⟨_ | _, _, hlines, -⟩, -⟩ <;> cases hlines
  | cons first rest ih =>
    -- The number is that of the line before the first one, so that it grows with each line.
    have hlater (hfirst : read first ≠ .malformed) :
        (∃ k line, FailsAt rest k line ∧
            error = .malformed (number + 1 + k) (String.ofList line)) ↔
          ∃ k line, FailsAt (first :: rest) k line ∧
            error = .malformed (number + k) (String.ofList line) := by
      rw [ne_eq, read_eq_malformed_iff] at hfirst
      simp only [failsAt_cons_iff hfirst]
      constructor
      · rintro ⟨k, line, hfails, rfl⟩
        exact ⟨k + 1, line, ⟨k, rfl, hfails⟩, by rw [Nat.add_assoc, Nat.add_comm 1]⟩
      · rintro ⟨_, line, ⟨k, rfl, hfails⟩, rfl⟩
        exact ⟨k, line, hfails, by rw [Nat.add_assoc, Nat.add_comm 1]⟩
    rw [addLines]
    cases hread : read first with
    | ignored => exact ih.trans (hlater (by simp [hread]))
    | entry key value => exact ih.trans (hlater (by simp [hread]))
    | malformed =>
      simp only [failsAt_cons_of_isMalformed (read_eq_malformed_iff.mp hread)]
      constructor
      · intro h
        cases h
        exact ⟨1, first, ⟨rfl, rfl⟩, rfl⟩
      · rintro ⟨_, _, ⟨rfl, rfl⟩, rfl⟩
        rfl

/-- A text fails exactly with its first malformed line, as it stands there, and its number. -/
theorem ofProperties_eq_error_iff : ofProperties text = .error error ↔
    ∃ number line, FailsAt (Text.lines text.toList) number line ∧
      error = .malformed number (String.ofList line) := by
  simp only [ofProperties, addLines_eq_error_iff, Nat.zero_add]

/-- A text that is read makes the configuration of the entries of its lines. -/
theorem ofProperties_eq_ok_iff : ofProperties text = .ok config ↔
    ∃ entries, entries? (Text.lines text.toList) = some entries ∧ ofPairs entries = config := by
  rw [ofProperties, ← toOption_eq_some_iff, toOption_addLines, Option.map_eq_some_iff]
  rfl

/-- A text after one that is ended is read on from the configuration of the first one. -/
theorem ofProperties_append (hended : Text.IsEnded first.toList) :
    ofProperties (first ++ second) = ofProperties first >>= fun config =>
      config.addLines (Text.lines first.toList).length (Text.lines second.toList) := by
  rw [ofProperties, ofProperties, String.toList_append, Text.lines_append hended, addLines_append,
    Nat.zero_add]

/-- Two texts of which the first one is ended are read exactly if each of them is, as the first
configuration overridden by the second one. -/
theorem ofProperties_append_eq_ok_iff (hended : Text.IsEnded first.toList) :
    ofProperties (first ++ second) = .ok config ↔ ∃ former latter,
      ofProperties first = .ok former ∧ ofProperties second = .ok latter ∧
        config = former.overriddenBy latter := by
  rw [ofProperties_append hended, bind_eq_ok_iff]
  refine exists_congr fun former => ?_
  rw [exists_and_left]
  refine and_congr_right fun _ => ?_
  simp only [ofProperties_eq_ok_iff]
  rw [← toOption_eq_some_iff, toOption_addLines, Option.map_eq_some_iff]
  constructor
  · rintro ⟨entries, hentries, rfl⟩
    exact ⟨ofPairs entries, ⟨entries, hentries, rfl⟩, (overriddenBy_ofPairs former entries).symm⟩
  · rintro ⟨_, ⟨entries, hentries, rfl⟩, rfl⟩
    exact ⟨entries, hentries, (overriddenBy_ofPairs former entries).symm⟩

/-- Where the first text is ended and read, an error of the second one is that of both, further down
by the lines of the first. -/
theorem ofProperties_append_eq_error (hended : Text.IsEnded first.toList)
    (hfirst : ofProperties first = .ok config) (hsecond : ofProperties second = .error error) :
    ∃ number content, error = .malformed number content ∧ ofProperties (first ++ second) =
      .error (.malformed ((Text.lines first.toList).length + number) content) := by
  obtain ⟨number, line, hfails, rfl⟩ := ofProperties_eq_error_iff.mp hsecond
  refine ⟨number, String.ofList line, rfl, ?_⟩
  rw [ofProperties_append hended, hfirst]
  exact addLines_eq_error_iff.mpr ⟨number, line, hfails, rfl⟩

/-- A text that has a single line is what this line says. -/
theorem ofProperties_of_lines_eq {line : List Char} (h : Text.lines text.toList = [line]) :
    ofProperties text =
      match read line with
      | .ignored => .ok empty
      | .entry key value => .ok (ofPairs [(key, value)])
      | .malformed => .error (.malformed 1 (String.ofList line)) := by
  rw [ofProperties, h, addLines]
  cases read line <;> rfl

/-- A text without a line feed is what it says as a line. -/
theorem ofProperties_of_not_mem (h : '\n' ∉ text.toList) : ofProperties text =
    match read text.toList with
    | .ignored => .ok empty
    | .entry key value => .ok (ofPairs [(key, value)])
    | .malformed => .error (.malformed 1 text) := by
  by_cases hempty : text.toList = []
  · rw [ofProperties, hempty]
    rfl
  · rw [ofProperties_of_lines_eq (Text.lines_eq_singleton hempty h), String.ofList_toList]

end Config

end Monetary
