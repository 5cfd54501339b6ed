/-!
# Letters

Case folding of names and codes. Only the letters `a` to `z` have an upper-case form here, so a
text outside ASCII is left as it is.
-/

namespace Monetary.Text

/-- The upper-case form of an ASCII letter; any other character is itself. -/
def upperLetter (c : Char) : Char :=
  if 'a' ≤ c ∧ c ≤ 'z' then Char.ofNat (c.toNat - 32) else c

/-- A text with its ASCII letters in upper case. -/
def upper (text : List Char) : List Char :=
  text.map upperLetter

/-- The order of texts by the code points at the first place where they differ; a text comes
after its proper beginnings. -/
def order : List Char → List Char → Ordering
  | [], [] => .eq
  | [], _ :: _ => .lt
  | _ :: _, [] => .gt
  | a :: as, b :: bs =>
    if a = b then order as bs else if a.toNat < b.toNat then .lt else .gt

/-- A text with `mark` and what follows it cut off, and the text after `mark` if there is one. -/
def cutAt (mark : Char → Bool) : List Char → List Char × Option (List Char)
  | [] => ([], none)
  | c :: rest =>
    if mark c then ([], some rest)
    else
      let (before, after) := cutAt mark rest
      (c :: before, after)

/-- A text without the mark is not cut. -/
theorem cutAt_of_forall {mark : Char → Bool} {text : List Char}
    (h : ∀ c ∈ text, mark c = false) : cutAt mark text = (text, none) := by
  induction text with
  | nil => rfl
  | cons c rest ih =>
    have hc := h c (by simp)
    have hrest := ih fun d hd => h d (by simp [hd])
    simp [cutAt, hc, hrest]

/-- A text is cut at its first mark. -/
theorem cutAt_append_cons {mark : Char → Bool} {before : List Char} {c : Char}
    (h : ∀ d ∈ before, mark d = false) (hc : mark c = true) (after : List Char) :
    cutAt mark (before ++ c :: after) = (before, some after) := by
  induction before with
  | nil => simp [cutAt, hc]
  | cons d rest ih =>
    have hd := h d (by simp)
    have hrest := ih fun e he => h e (by simp [he])
    simp [cutAt, hd, hrest]

theorem upperLetter_of_le_Z {c : Char} (h : c ≤ 'Z') : upperLetter c = c := by
  rw [upperLetter, if_neg]
  intro hlower
  exact absurd (Char.le_trans hlower.1 h) (by decide)

/-- Only a text is at its own place in the order. -/
theorem order_eq_eq_iff (a b : List Char) : order a b = .eq ↔ a = b := by
  fun_induction order a b <;> simp_all

/-- The order of two texts is reversed when they change places. -/
theorem order_swap (a b : List Char) : (order a b).swap = order b a := by
  fun_induction order a b with
  | case1 => rfl
  | case2 => rfl
  | case3 => rfl
  | case4 a as bs ih => simpa [order] using ih
  | case5 a as b bs hne hlt =>
    have : ¬ b.toNat < a.toNat := by omega
    simp [order, Ne.symm hne, this]
  | case6 a as b bs hne hge =>
    have : b.toNat < a.toNat := by
      have : a.toNat ≠ b.toNat := fun h => hne (Char.toNat_inj.1 h)
      omega
    simp [order, Ne.symm hne, this]

end Monetary.Text
