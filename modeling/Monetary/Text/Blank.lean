/-!
# Blanks

The white space that every reader of this library ignores around a text: the Unicode property
`White_Space`. Zero-width characters and the byte order mark are not part of it.
-/

namespace Monetary.Text

/-- Whether a character has the Unicode property `White_Space`. -/
def isBlank (c : Char) : Bool :=
  let point := c.toNat
  (9 ≤ point && point ≤ 13) || point == 0x20 || point == 0x85 || point == 0xA0 ||
    point == 0x1680 || (0x2000 ≤ point && point ≤ 0x200A) || point == 0x2028 ||
    point == 0x2029 || point == 0x202F || point == 0x205F || point == 0x3000

/-- A text without the blanks it starts with. -/
def trimStart (text : List Char) : List Char :=
  text.dropWhile isBlank

/-- A text without the blanks it ends with. -/
def trimEnd : List Char → List Char
  | [] => []
  | c :: rest =>
    match trimEnd rest with
    | [] => if isBlank c then [] else [c]
    | kept => c :: kept

/-- A text without the blanks around it. -/
def trim (text : List Char) : List Char :=
  trimEnd (trimStart text)

/-- Nothing is trimmed from the end of a text whose last character is no blank. -/
theorem trimEnd_append_singleton (text : List Char) {c : Char} (hc : isBlank c = false) :
    trimEnd (text ++ [c]) = text ++ [c] := by
  induction text with
  | nil => simp [trimEnd, hc]
  | cons d rest ih =>
    rw [List.cons_append, trimEnd, ih]
    cases rest <;> rfl

/-- A text without blanks is not trimmed. -/
theorem trim_eq_self {text : List Char} (h : ∀ c ∈ text, isBlank c = false) :
    trim text = text := by
  have hstart : trimStart text = text := by
    cases text with
    | nil => rfl
    | cons c rest => simp [trimStart, h c (by simp)]
  rw [trim, hstart]
  rcases List.eq_nil_or_concat text with rfl | ⟨init, last, rfl⟩
  · rfl
  · rw [List.concat_eq_append]
    exact trimEnd_append_singleton init (h last (by simp))

/-- A text is another one without the blanks around it: only blanks are taken off, and none is left
at either end. -/
def IsTrimmed (text trimmed : List Char) : Prop :=
  ∃ before after, text = before ++ trimmed ++ after ∧ (∀ c ∈ before ++ after, isBlank c = true) ∧
    (∀ c, trimmed.head? = some c → isBlank c = false) ∧
    ∀ c, trimmed.getLast? = some c → isBlank c = false

/-- Trimming at the end takes off blanks only and leaves none at the end. -/
theorem exists_trimEnd (text : List Char) :
    ∃ after, text = trimEnd text ++ after ∧ (∀ c ∈ after, isBlank c = true) ∧
      ∀ c, (trimEnd text).getLast? = some c → isBlank c = false := by
  induction text with
  | nil => exact ⟨[], rfl, by simp, by simp [trimEnd]⟩
  | cons c rest ih =>
    obtain ⟨after, hrest, hblank, hlast⟩ := ih
    rw [trimEnd]
    split
    · rename_i hnil
      rw [hnil] at hrest
      by_cases hc : isBlank c = true
      · rw [if_pos hc]
        exact ⟨c :: rest, rfl, by simpa [hc, hrest] using hblank, by simp⟩
      · rw [if_neg hc]
        exact ⟨after, congrArg (c :: ·) hrest, hblank, by simpa using hc⟩
    · rename_i hkept
      refine ⟨after, congrArg (c :: ·) hrest, hblank, ?_⟩
      rwa [List.getLast?_cons_of_ne_nil hkept]

/-- Trimming takes the blanks around a text off, and nothing else. -/
theorem isTrimmed_trim (text : List Char) : IsTrimmed text (trim text) := by
  obtain ⟨after, htext, hafter, hlast⟩ := exists_trimEnd (trimStart text)
  refine ⟨text.takeWhile isBlank, after, ?_, ?_, ?_, hlast⟩
  · rw [List.append_assoc, trim, ← htext, trimStart, List.takeWhile_append_dropWhile]
  · exact List.forall_mem_append.mpr
      ⟨List.all_eq_true.mp (List.all_takeWhile), hafter⟩
  · intro c hc
    have hhead : (trimStart text).head? = some c := by
      rw [htext, List.head?_append, ← trim, hc]
      rfl
    have hfirst := List.head?_dropWhile_not isBlank text
    rw [← trimStart, hhead] at hfirst
    exact hfirst

end Monetary.Text
