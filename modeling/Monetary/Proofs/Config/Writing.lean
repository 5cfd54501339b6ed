import Monetary.Proofs.Config.Properties

/-!
# Writing a properties text

A key and its text are written on a line with `=` between them. Reading gives them back if the line
cannot be taken for anything else: neither has blanks around it or a line feed in it, and the key is
not empty, has no separator in it and does not begin as a comment does. The text may contain
separators and comment marks. Lines that say nothing may stand anywhere between such entries, and a
text that is written in this way is read as the configuration of the entries, the last one with a key
being the one that counts.
-/

namespace Monetary

/-- A line to be written: a key with its text, or a line that says nothing. -/
inductive WrittenLine where
  | entry (key value : String)
  | filler (content : String)

namespace WrittenLine

/-- A line as it is written, without its end. -/
def text : WrittenLine → List Char
  | .entry key value => key.toList ++ '=' :: value.toList
  | .filler content => content.toList

/-- What a line is meant to say. -/
def said : WrittenLine → PropertyLine
  | .entry key value => .entry key value
  | .filler _ => .ignored

/-- The keys and texts of some lines, in order. -/
def pairs (written : List WrittenLine) : List (String × String) :=
  written.filterMap fun line => line.said.pair?

/-- The lines of a text as they are written, each with its end. -/
def write (ending : List Char) (written : List WrittenLine) : List Char :=
  written.flatMap fun line => line.text ++ ending

/-- A key that no line can be misread for. -/
structure IsPlainKey (key : List Char) : Prop where
  ne_nil : key ≠ []
  trim_eq : Text.trim key = key
  no_feed : '\n' ∉ key
  no_separator : ∀ c ∈ key, c ≠ '=' ∧ c ≠ ':'
  no_comment : key.head? ≠ some '#' ∧ key.head? ≠ some '!'

/-- Whether a line that is written can be read back. -/
def IsPlain : WrittenLine → Prop
  | .entry key value =>
    IsPlainKey key.toList ∧ Text.trim value.toList = value.toList ∧ '\n' ∉ value.toList
  | .filler content => '\n' ∉ content.toList ∧ PropertyLine.IsSkipped content.toList

variable {line : WrittenLine} {key value ending : List Char}

/-- A key and its text, with the separator between them, have no blanks around them. -/
theorem trim_append_cons (hkey : IsPlainKey key) (hvalue : Text.trim value = value) :
    Text.trim (key ++ '=' :: value) = key ++ '=' :: value := by
  obtain ⟨hhead, -⟩ := Text.trim_eq_self_iff.mp hkey.trim_eq
  obtain ⟨-, hlast⟩ := Text.trim_eq_self_iff.mp hvalue
  refine Text.trim_eq_self_iff.mpr ⟨fun c hc => hhead c ?_, fun c hc => ?_⟩
  · rwa [List.head?_append_of_ne_nil _ hkey.ne_nil] at hc
  · rw [List.getLast?_append_cons, List.getLast?_cons] at hc
    cases hend : value.getLast? with
    | none =>
      rw [hend] at hc
      cases hc
      decide
    | some last =>
      rw [hend] at hc
      cases hc
      exact hlast last hend

/-- A key and its text, with the separator between them, are the entry of these. -/
theorem isEntry_append_cons (hkey : IsPlainKey key) (hvalue : Text.trim value = value) :
    PropertyLine.IsEntry (key ++ '=' :: value) (String.ofList key) (String.ofList value) := by
  have htrim := trim_append_cons hkey hvalue
  obtain ⟨hhash, hmark⟩ := hkey.no_comment
  refine ⟨?_, key, '=', value, htrim, .inl rfl, hkey.no_separator, hkey.trim_eq.symm ▸ hkey.ne_nil,
    by rw [hkey.trim_eq], by rw [hvalue]⟩
  -- What says nothing is empty or begins as a comment, which the key does not.
  unfold PropertyLine.IsSkipped
  rw [htrim]
  obtain ⟨c, rest, rfl⟩ := List.exists_cons_of_ne_nil hkey.ne_nil
  rintro (hnil | ⟨more, hmore | hmore⟩)
  · cases hnil
  · exact hhash (congrArg some (List.cons.inj hmore).1)
  · exact hmark (congrArg some (List.cons.inj hmore).1)

/-- A line that can be read back has no line feed in it. -/
theorem IsPlain.no_feed (h : line.IsPlain) : '\n' ∉ line.text := by
  cases line with
  | entry key value =>
    obtain ⟨hkey, -, hvalue⟩ := h
    simpa [text] using ⟨hkey.no_feed, hvalue⟩
  | filler content => exact h.1

/-- A line that can be read back says what it is meant to say. -/
theorem IsPlain.read_eq (h : line.IsPlain) : PropertyLine.read line.text = line.said := by
  cases line with
  | entry key value =>
    have hentry := isEntry_append_cons h.1 h.2.1
    rw [String.ofList_toList, String.ofList_toList] at hentry
    exact PropertyLine.read_of_isEntry hentry
  | filler content => exact PropertyLine.read_of_isSkipped h.2

/-- A line is ended by its end. -/
theorem isEnded_append (hending : ending = ['\n'] ∨ ending = ['\r', '\n']) (line : List Char) :
    Text.IsEnded (line ++ ending) := by
  rcases hending with rfl | rfl
  · exact .inr ⟨line, rfl⟩
  · exact .inr ⟨line ++ ['\r'], by rw [List.append_assoc]; rfl⟩

/-- A text of a single line that can be read back is read as this line, with or without its end. -/
theorem IsPlain.ofProperties_eq (h : line.IsPlain)
    (hending : ending = [] ∨ ending = ['\n'] ∨ ending = ['\r', '\n']) :
    Config.ofProperties (String.ofList (line.text ++ ending)) = .ok (.ofPairs (pairs [line])) := by
  rcases hending with rfl | hending
  · rw [List.append_nil, Config.ofProperties_of_not_mem (by rw [String.toList_ofList]; exact h.no_feed),
      String.toList_ofList, h.read_eq]
    cases line <;> rfl
  · obtain ⟨kept, hkept, htrim⟩ := Text.exists_lines_append_ending h.no_feed hending
    rw [Config.ofProperties_of_lines_eq (by rwa [String.toList_ofList]),
      PropertyLine.read_congr htrim, h.read_eq]
    cases line <;> rfl

/-- The pairs of some lines are followed by those of the lines after them. -/
theorem pairs_append (first second : List WrittenLine) :
    pairs (first ++ second) = pairs first ++ pairs second :=
  List.filterMap_append

/-- A text written of lines that can be read back is read as the pairs of these lines, one after the
other. -/
theorem ofProperties_write (hending : ending = ['\n'] ∨ ending = ['\r', '\n'])
    {written : List WrittenLine} (hplain : ∀ line ∈ written, line.IsPlain) :
    Config.ofProperties (String.ofList (write ending written)) = .ok (.ofPairs (pairs written)) := by
  induction written with
  | nil => rfl
  | cons line written ih =>
    obtain ⟨hline, hwritten⟩ := List.forall_mem_cons.mp hplain
    have hended : Text.IsEnded (String.ofList (line.text ++ ending)).toList := by
      rw [String.toList_ofList]
      exact isEnded_append hending line.text
    rw [write, List.flatMap_cons, String.ofList_append, Config.ofProperties_append_eq_ok_iff hended]
    refine ⟨_, _, hline.ofProperties_eq (.inr hending), ih hwritten, ?_⟩
    rw [Config.ofPairs_overriddenBy_ofPairs, ← pairs_append, List.singleton_append]

/-- A text written of lines with their ends is ended. -/
theorem isEnded_write (hending : ending = ['\n'] ∨ ending = ['\r', '\n'])
    (written : List WrittenLine) : Text.IsEnded (write ending written) := by
  induction written with
  | nil => exact .inl rfl
  | cons line written ih => exact (isEnded_append hending line.text).append ih

/-- The last line of a text that is written may lack its end. -/
theorem ofProperties_write_append (hending : ending = ['\n'] ∨ ending = ['\r', '\n'])
    {written : List WrittenLine} (hplain : ∀ line ∈ written, line.IsPlain) (hline : line.IsPlain) :
    Config.ofProperties (String.ofList (write ending written ++ line.text)) =
      .ok (.ofPairs (pairs (written ++ [line]))) := by
  have hended : Text.IsEnded (String.ofList (write ending written)).toList := by
    rw [String.toList_ofList]
    exact isEnded_write hending written
  have hlast := hline.ofProperties_eq (.inl rfl)
  rw [List.append_nil] at hlast
  rw [String.ofList_append, Config.ofProperties_append_eq_ok_iff hended]
  refine ⟨_, _, ofProperties_write hending hplain, hlast, ?_⟩
  rw [Config.ofPairs_overriddenBy_ofPairs, ← pairs_append]

end WrittenLine

namespace Config

open PropertyLine WrittenLine

/-- A text that is ended and the text after it are read exactly if each of them is, as the first
configuration overridden key by key by the second one. An error of the first one is that of both, and
otherwise an error of the second one, further down by the lines of the first. In either case it is
the first malformed line, as it stands in the text. A line is skipped, or an entry, or malformed. A
text that is written line by line is read as its entries, the last one with a key counting for it. -/
theorem ofProperties_composes :
    (∀ first second : String, Text.IsEnded first.toList →
      (∀ config, ofProperties (first ++ second) = .ok config ↔ ∃ former latter,
        ofProperties first = .ok former ∧ ofProperties second = .ok latter ∧
          config = former.overriddenBy latter) ∧
      (∀ former latter, ofProperties first = .ok former → ofProperties second = .ok latter →
        ∀ key, (former.overriddenBy latter).get? key = (latter.get? key).or (former.get? key)) ∧
      (∀ error, ofProperties first = .error error →
        ofProperties (first ++ second) = .error error) ∧
      ∀ config error, ofProperties first = .ok config → ofProperties second = .error error →
        ∃ number content, error = .malformed number content ∧ ofProperties (first ++ second) =
          .error (.malformed ((Text.lines first.toList).length + number) content)) ∧
    (∀ text error, ofProperties text = .error error ↔
      ∃ number line, FailsAt (Text.lines text.toList) number line ∧
        error = .malformed number (String.ofList line)) ∧
    (∀ text line, Text.lines text.toList = [line] →
      (IsSkipped line → ofProperties text = .ok empty) ∧
      (∀ key value, IsEntry line key value → ofProperties text = .ok (ofPairs [(key, value)])) ∧
      (IsMalformed line → ofProperties text = .error (.malformed 1 (String.ofList line)))) ∧
    (∀ ending written, (ending = ['\n'] ∨ ending = ['\r', '\n']) →
      (∀ line ∈ written, line.IsPlain) →
      ofProperties (String.ofList (write ending written)) = .ok (ofPairs (pairs written)) ∧
      ∀ line, line.IsPlain → ofProperties (String.ofList (write ending written ++ line.text)) =
        .ok (ofPairs (pairs (written ++ [line])))) ∧
    ∀ entries key, (ofPairs entries).get? key = lastText? entries key := by
  refine ⟨fun first second hended => ⟨fun config => ofProperties_append_eq_ok_iff hended, ?_, ?_, ?_⟩,
    fun text error => ofProperties_eq_error_iff, fun text line hlines => ⟨?_, ?_, ?_⟩,
    fun ending written hending hplain => ⟨ofProperties_write hending hplain, fun line hline =>
      ofProperties_write_append hending hplain hline⟩, get?_ofPairs⟩
  · intro former latter _ hlatter key
    obtain ⟨entries, -, rfl⟩ := ofProperties_eq_ok_iff.mp hlatter
    exact get?_overriddenBy_ofPairs former entries key
  · intro error herror
    rw [ofProperties_append hended, herror]
    rfl
  · exact fun config error hfirst hsecond =>
      ofProperties_append_eq_error hended hfirst hsecond
  · intro hskipped
    rw [ofProperties_of_lines_eq hlines, read_of_isSkipped hskipped]
  · intro key value hentry
    rw [ofProperties_of_lines_eq hlines, read_of_isEntry hentry]
  · intro hmalformed
    rw [ofProperties_of_lines_eq hlines, read_of_isMalformed hmalformed]

/-- The second text gives one key of the first a new text, or has a malformed line, the fourth of
both. A comment is skipped, and an entry may have both marks in its text. -/
theorem ofProperties_composes_over_comment :
    ofProperties ("a = 1\n# b\n" ++ "b:2\na=3") = .ok ⟨[("a", "3"), ("b", "2")]⟩ ∧
      ofProperties ("a = 1\n# b\n" ++ "\r\n= 4") = .error (.malformed 4 "= 4") ∧
      ofProperties ("= 4\n" ++ "b:2") = .error (.malformed 1 "= 4") ∧
      ofProperties " # b\r\n" = .ok empty ∧
      ofProperties (String.ofList (write ['\r', '\n'] [.filler " ! b", .entry "a" "x=#"])) =
        .ok ⟨[("a", "x=#")]⟩ := by
  obtain ⟨hparts, -, hsingle, hwritten, -⟩ := ofProperties_composes
  have hended : Text.IsEnded "a = 1\n# b\n".toList :=
    .inr ⟨"a = 1\n# b".toList, by decide +kernel⟩
  have hfirst : ofProperties "a = 1\n# b\n" = .ok ⟨[("a", "1")]⟩ := by decide +kernel
  have hsecond : ofProperties "\r\n= 4" = .error (.malformed 2 "= 4") := by decide +kernel
  have hkey : IsPlainKey "a".toList :=
    ⟨by decide, by decide +kernel, by decide, List.forall_mem_singleton.mpr (by decide), by decide⟩
  have hfiller : (WrittenLine.filler " ! b").IsPlain :=
    ⟨by decide, .inr ⟨" b".toList, .inr (by decide +kernel)⟩⟩
  have hplain : ∀ line ∈ [.filler " ! b", .entry "a" "x=#"], WrittenLine.IsPlain line :=
    List.forall_mem_cons.mpr
      ⟨hfiller, List.forall_mem_singleton.mpr ⟨hkey, by decide +kernel, by decide +kernel⟩⟩
  obtain ⟨hboth, -, -, -⟩ := hparts "a = 1\n# b\n" "b:2\na=3" hended
  obtain ⟨-, -, -, hlatter⟩ := hparts "a = 1\n# b\n" "\r\n= 4" hended
  obtain ⟨-, -, hformer, -⟩ := hparts "= 4\n" "b:2" (.inr ⟨"= 4".toList, by decide +kernel⟩)
  obtain ⟨hskipped, -, -⟩ := hsingle " # b\r\n" " # b".toList (by decide +kernel)
  obtain ⟨number, content, herror, hfails⟩ := hlatter _ _ hfirst hsecond
  cases herror
  refine ⟨(hboth _).mpr ⟨⟨[("a", "1")]⟩, ⟨[("b", "2"), ("a", "3")]⟩, hfirst, ?_, ?_⟩, hfails,
    hformer _ ?_, hskipped (.inr ⟨" b".toList, .inl ?_⟩), (hwritten _ _ (.inr rfl) hplain).1⟩ <;>
    decide +kernel

end Config

end Monetary
