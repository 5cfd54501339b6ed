import Monetary.Text.Blank
import Monetary.Text.Lines
import Mathlib.Data.List.Induction

/-!
# Lines of a text and blanks around them

A text that is empty or ends with a line feed has its lines to itself: what is written after it
begins a new one. A carriage return before the line feed is a blank, so that it makes no difference
to a line without the blanks around it whether the return is taken for part of its end.
-/

namespace Monetary.Text

/-- Nothing is left open at the end of a text: it is empty or ends with a line feed. -/
def IsEnded (text : List Char) : Prop :=
  text = [] ∨ ∃ before, text = before ++ ['\n']

variable {text line blanks : List Char}

/-- Two texts that are ended make one that is. -/
theorem IsEnded.append {more : List Char} (h : IsEnded text) (hmore : IsEnded more) :
    IsEnded (text ++ more) := by
  rcases hmore with rfl | ⟨before, rfl⟩
  · rwa [List.append_nil]
  · exact .inr ⟨text ++ before, (List.append_assoc ..).symm⟩

/-- The lines of a text that is ended come before the lines of what follows it. -/
theorem lines_append (h : IsEnded text) (rest : List Char) :
    lines (text ++ rest) = lines text ++ lines rest := by
  rcases h with rfl | ⟨before, rfl⟩
  · rfl
  · rw [List.append_assoc]
    exact lines_append_newline before rest

/-- A character other than the line feed is a line by itself, a carriage return as well. -/
theorem lines_singleton {c : Char} (h : c ≠ '\n') : lines [c] = [[c]] := by
  simp [lines]

/-- A text without a line feed is one line. -/
theorem lines_eq_singleton (hne : line ≠ []) (h : '\n' ∉ line) : lines line = [line] := by
  induction line with
  | nil => exact absurd rfl hne
  | cons c rest ih =>
    obtain ⟨hc, hrest⟩ := not_or.mp (mt List.mem_cons.mpr h)
    by_cases hnil : rest = []
    · rw [hnil, lines_singleton (Ne.symm hc)]
    · refine lines_cons (Ne.symm hc) (fun _ more hmore => hrest ?_) (ih hnil hrest)
      rw [hmore]
      exact List.mem_cons_self

/-- A line that is ended by a line feed is kept, but for a carriage return at its end. -/
theorem exists_lines_ended (h : '\n' ∉ line) : ∃ kept, lines (line ++ ['\n']) = [kept] ∧
    (line = kept ∨ line = kept ++ ['\r']) := by
  induction line with
  | nil => exact ⟨[], rfl, .inl rfl⟩
  | cons c rest ih =>
    obtain ⟨hc, hrest⟩ := not_or.mp (mt List.mem_cons.mpr h)
    obtain ⟨kept, hkept, hline⟩ := ih hrest
    cases rest with
    | nil =>
      by_cases hreturn : c = '\r'
      · subst hreturn
        exact ⟨[], rfl, .inr rfl⟩
      · exact ⟨[c], by simp [lines, Ne.symm hc, hreturn], .inl rfl⟩
    | cons d more =>
      have hd : d ≠ '\n' := fun hfeed => hrest (by simp [hfeed])
      refine ⟨c :: kept, lines_cons (Ne.symm hc) (fun _ tail htail => hd ?_) hkept, ?_⟩
      · exact (List.cons.inj htail).1
      · exact hline.imp (congrArg (c :: ·)) (congrArg (c :: ·))

/-- A blank at the end is trimmed there. -/
theorem trimEnd_append_blank {c : Char} (hc : isBlank c = true) (text : List Char) :
    trimEnd (text ++ [c]) = trimEnd text := by
  induction text with
  | nil => simp [trimEnd, hc]
  | cons d rest ih => rw [List.cons_append, trimEnd, trimEnd, ih]

/-- A blank at the end is trimmed. -/
theorem trim_append_blank {c : Char} (hc : isBlank c = true) (text : List Char) :
    trim (text ++ [c]) = trim text := by
  rw [trim, trim, trimStart, trimStart, List.dropWhile_append]
  split
  · rename_i hblank
    rw [List.isEmpty_iff.mp hblank]
    simp [hc, trimEnd]
  · exact trimEnd_append_blank hc _

/-- A line and its end, which may begin with a carriage return, are one line, and this is the line
apart from blanks. -/
theorem exists_lines_append_ending (h : '\n' ∉ line) {ending : List Char}
    (hending : ending = ['\n'] ∨ ending = ['\r', '\n']) :
    ∃ kept, lines (line ++ ending) = [kept] ∧ trim kept = trim line := by
  have hreturn (line : List Char) : trim (line ++ ['\r']) = trim line :=
    trim_append_blank (by decide) line
  rcases hending with rfl | rfl
  · obtain ⟨kept, hkept, rfl | rfl⟩ := exists_lines_ended h
    · exact ⟨_, hkept, rfl⟩
    · exact ⟨_, hkept, (hreturn kept).symm⟩
  · have hfeed : '\n' ∉ line ++ ['\r'] := by simpa using h
    obtain ⟨kept, hkept, hline⟩ := exists_lines_ended hfeed
    rw [List.append_assoc] at hkept
    rcases hline with rfl | hline
    · exact ⟨_, hkept, hreturn line⟩
    · exact ⟨kept, hkept, congrArg trim (List.append_cancel_right hline).symm⟩

/-- A text is left as it is by trimming exactly if it has no blank at either end. -/
theorem trim_eq_self_iff : trim text = text ↔
    (∀ c, text.head? = some c → isBlank c = false) ∧
      ∀ c, text.getLast? = some c → isBlank c = false := by
  constructor
  · intro h
    obtain ⟨-, -, -, -, hhead, hlast⟩ := isTrimmed_trim text
    rw [h] at hhead hlast
    exact ⟨hhead, hlast⟩
  · rintro ⟨hhead, hlast⟩
    have hstart : trimStart text = text := by
      cases text with
      | nil => rfl
      | cons c rest => simp [trimStart, hhead c rfl]
    rw [trim, hstart]
    rcases List.eq_nil_or_concat text with rfl | ⟨init, last, rfl⟩
    · rfl
    · rw [List.concat_eq_append] at hlast ⊢
      exact trimEnd_append_singleton init (hlast last List.getLast?_concat)

/-- Blanks at the end of a text are trimmed. -/
theorem trim_append_blanks (h : ∀ c ∈ blanks, isBlank c = true) (text : List Char) :
    trim (text ++ blanks) = trim text := by
  induction blanks using List.reverseRecOn with
  | nil => rw [List.append_nil]
  | append_singleton blanks c ih =>
    obtain ⟨hblanks, hc⟩ := List.forall_mem_append.mp h
    rw [← List.append_assoc, trim_append_blank (hc c List.mem_cons_self), ih hblanks]

/-- Blanks in front of a text are trimmed. -/
theorem trim_blanks_append (h : ∀ c ∈ blanks, isBlank c = true) (text : List Char) :
    trim (blanks ++ text) = trim text := by
  rw [trim, trim, trimStart, trimStart, List.dropWhile_append_of_pos h]

/-- Trimming gives the only text that is another one without the blanks around it. -/
theorem trim_eq_iff {trimmed : List Char} : trim text = trimmed ↔ IsTrimmed text trimmed := by
  constructor
  · rintro rfl
    exact isTrimmed_trim text
  · rintro ⟨before, after, rfl, hblank, hhead, hlast⟩
    obtain ⟨hbefore, hafter⟩ := List.forall_mem_append.mp hblank
    rw [trim_append_blanks hafter, trim_blanks_append hbefore]
    exact trim_eq_self_iff.mpr ⟨hhead, hlast⟩

end Monetary.Text
