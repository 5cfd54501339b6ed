/-!
# Lines

A text is a sequence of lines that each end with a line feed; the last one may lack it. A carriage
return just before a line feed belongs to the end of the line, any other is part of the line.
-/

namespace Monetary.Text

/-- The lines of a text, without their ends. -/
def lines : List Char → List (List Char)
  | [] => []
  | '\n' :: rest => [] :: lines rest
  | '\r' :: '\n' :: rest => [] :: lines rest
  | c :: rest =>
    match lines rest with
    | [] => [[c]]
    | line :: more => (c :: line) :: more

/-- Only the empty text has no lines. -/
theorem lines_eq_nil_iff (text : List Char) : lines text = [] ↔ text = [] := by
  fun_cases lines text <;> simp_all

/-- A character that ends no line stands at the front of the first line. -/
theorem lines_cons {c : Char} {rest : List Char} (hfeed : c ≠ '\n')
    (hreturn : c = '\r' → ∀ more, rest ≠ '\n' :: more) {line : List Char}
    {more : List (List Char)} (h : lines rest = line :: more) :
    lines (c :: rest) = (c :: line) :: more := by
  rw [lines, h]
  · exact hfeed
  · exact fun after hc => hreturn hc after

/-- The lines of a text up to a line feed do not depend on what follows it. -/
theorem lines_append_newline (text rest : List Char) :
    lines (text ++ '\n' :: rest) = lines (text ++ ['\n']) ++ lines rest := by
  fun_induction lines text with
  | case1 => simp [lines]
  | case2 more ih => simpa [lines] using ih
  | case3 more ih => simpa [lines] using ih
  | case4 c more hfeed hreturn hnil ih =>
    obtain rfl := (lines_eq_nil_iff more).1 hnil
    by_cases hc : c = '\r'
    · simp [lines, hc]
    · simp [lines, hc]
  | case5 c more hfeed hreturn line others hmore ih =>
    have hhead : ∀ after, c = '\r' → ∀ tail, more ++ '\n' :: after ≠ '\n' :: tail := by
      rintro after hc tail htail
      cases more with
      | nil => simp [lines] at hmore
      | cons d ds =>
        simp only [List.cons_append, List.cons.injEq] at htail
        exact hreturn ds hc (by rw [htail.1])
    obtain ⟨first, next, hfirst⟩ :=
      List.exists_cons_of_ne_nil (l := lines (more ++ ['\n'])) (by simp [lines_eq_nil_iff])
    rw [hfirst] at ih
    rw [List.cons_append, List.cons_append, lines_cons hfeed (hhead rest) ih,
      lines_cons hfeed (hhead []) hfirst]
    rfl

end Monetary.Text
