import Monetary.Proofs.Money.Reachable

/-!
# What counts of the settings of a draft

Every setting of a draft sets the currency, the number, the context, or all three, and leaves the
other parts as they are. So a draft holds the last setting of each part, whatever was set before and
in which order the parts were set; a code that is not registered and a number that cannot be
converted only count if nothing is set after them. What is made of a draft depends on these three
settings alone, and of several faults the one of the currency is reported before the one of the
number, and that before a fault of rounding.

The draft of an amount has all parts of the amount. Because the number fits the context, it is not
rounded again, and so the amount that is made has the very same number, under any rounding mode.
-/

namespace Monetary

namespace Draft

/-- A setting of one part of a draft, or of all parts to those of an amount. -/
inductive Setting where
  | currency (currency : Currency)
  | code (text : String)
  | number (number : NumberInput)
  | context (context : Context)
  | amount (amount : Amount)

/-- A part of a draft. -/
inductive Part where
  | currency
  | number
  | context

namespace Setting

/-- The currency or code that a setting sets, if it sets one. -/
def currency? : Setting → Option CurrencyChoice
  | .currency chosen => some (.currency chosen)
  | .code text => some (.code text)
  | .amount whole => some (.currency whole.currency)
  | _ => none

/-- The number that a setting sets, if it sets one. -/
def number? : Setting → Option NumberInput
  | .number input => some input
  | .amount whole => some whole.number
  | _ => none

/-- The context that a setting sets, if it sets one. -/
def context? : Setting → Option Context
  | .context given => some given
  | .amount whole => some whole.context
  | _ => none

/-- Whether a setting sets a part. -/
def sets (setting : Setting) : Part → Bool
  | .currency => setting.currency?.isSome
  | .number => setting.number?.isSome
  | .context => setting.context?.isSome

/-- The last of what some settings set. -/
def last? {α : Type} (of? : Setting → Option α) (settings : List Setting) : Option α :=
  (settings.filterMap of?).getLast?

end Setting

/-- A draft after a setting. -/
def set (draft : Draft) : Setting → Draft
  | .currency currency => draft.setCurrency currency
  | .code text => draft.setCode text
  | .number number => draft.setNumber number
  | .context context => draft.setContext context
  | .amount amount => draft.setAmount amount

/-- A draft after some settings. -/
def setAll (draft : Draft) (settings : List Setting) : Draft :=
  settings.foldl set draft

/-- The currency that a choice stands for. -/
def currencyOf (registry : Registry) : CurrencyChoice → Except MoneyError Currency
  | .currency currency => .ok currency
  | .code text => registry.find text

/-- The amount of a currency or code, a number and a context, as far as they are given; without a
context it is made under the default one. -/
def answer (registry : Registry) (usual : Context) (choice? : Option CurrencyChoice)
    (input? : Option NumberInput) (context? : Option Context) : Except MoneyError Money := do
  let choice ← choice?.elim (.error (.invalidArgument .currencyUnset)) .ok
  let currency ← currencyOf registry choice
  let input ← input?.elim (.error (.invalidArgument .numberUnset)) .ok
  let number ← Money.operand input
  Money.withContext number currency ((context?.map Context.forMoney).getD usual)

variable {α : Type} {of? : Setting → Option α} {setting other : Setting}
  {settings before after : List Setting} {draft : Draft} {registry : Registry} {usual : Context}

namespace Setting

/-- Of all settings, the last one of a part is the last one of the later ones, if there is one. -/
theorem last?_append (of? : Setting → Option α) (before after : List Setting) :
    last? of? (before ++ after) = (last? of? after).or (last? of? before) := by
  rw [last?, List.filterMap_append, List.getLast?_append]
  rfl

/-- The last setting of a part counts if it sets the part, and otherwise what was set before. -/
theorem last?_append_singleton (of? : Setting → Option α) (settings : List Setting)
    (setting : Setting) :
    last? of? (settings ++ [setting]) = (of? setting).or (last? of? settings) := by
  rw [last?_append, last?]
  cases h : of? setting <;> simp [h]

/-- Something was set last as soon as something was set at all. -/
theorem isSome_last? (hmem : setting ∈ settings) (hsets : (of? setting).isSome = true) :
    (last? of? settings).isSome = true := by
  obtain ⟨a, ha⟩ := Option.isSome_iff_exists.mp hsets
  rw [last?, List.getLast?_isSome]
  exact List.ne_nil_of_mem (List.mem_filterMap.mpr ⟨setting, hmem, ha⟩)

/-- A setting does not count for a part that it does not set or that is set again later. -/
theorem last?_of_overwritten
    (h : (of? setting).isSome = true → ∃ later ∈ after, (of? later).isSome = true) :
    last? of? (before ++ setting :: after) = last? of? (before ++ after) := by
  rw [List.append_cons, last?_append, last?_append_singleton, last?_append]
  cases hsets : of? setting with
  | none => rfl
  | some a =>
    obtain ⟨later, hlater, hagain⟩ := h (by rw [hsets]; rfl)
    obtain ⟨b, hb⟩ := Option.isSome_iff_exists.mp (isSome_last? hlater hagain)
    rw [hb]
    rfl

end Setting

/-- A setting puts what it sets in the place of what was set before. -/
theorem set_eq (draft : Draft) (setting : Setting) :
    draft.set setting =
      ⟨setting.currency?.or draft.currency,
        (setting.number?.map NumberInput.toDecimal).or draft.number,
        (setting.context?.map Context.forMoney).or draft.context⟩ := by
  cases setting <;> rfl

theorem setAll_append_singleton (draft : Draft) (settings : List Setting) (setting : Setting) :
    draft.setAll (settings ++ [setting]) = (draft.setAll settings).set setting := by
  rw [setAll, List.foldl_append]
  rfl

/-- A draft holds the last setting of each part, and of a part that is not set what it held. -/
theorem setAll_eq (draft : Draft) (settings : List Setting) :
    draft.setAll settings =
      ⟨(Setting.last? Setting.currency? settings).or draft.currency,
        ((Setting.last? Setting.number? settings).map NumberInput.toDecimal).or draft.number,
        ((Setting.last? Setting.context? settings).map Context.forMoney).or draft.context⟩ := by
  -- The induction is from the end, where the settings stand that count.
  induction settings using List.reverseRecOn with
  | nil => rfl
  | append_singleton settings setting ih =>
    rw [setAll_append_singleton, ih, set_eq]
    simp only [Setting.last?_append_singleton, Option.map_or, Option.or_assoc]

/-- A draft of which no part was set before holds the last setting of each part. -/
theorem setAll_empty (settings : List Setting) :
    empty.setAll settings =
      ⟨Setting.last? Setting.currency? settings,
        (Setting.last? Setting.number? settings).map NumberInput.toDecimal,
        (Setting.last? Setting.context? settings).map Context.forMoney⟩ := by
  rw [setAll_eq]
  simp only [empty, Option.or_none]

/-- Settings that have no part in common may be made in either order. -/
theorem set_comm (h : ∀ part, ¬ (setting.sets part = true ∧ other.sets part = true)) :
    (draft.set setting).set other = (draft.set other).set setting := by
  have hor {β : Type} {a b c : Option β} (hab : ¬ (a.isSome = true ∧ b.isSome = true)) :
      b.or (a.or c) = a.or (b.or c) := by
    cases a <;> cases b <;> simp_all
  simp only [set_eq, mk.injEq]
  refine ⟨hor (h .currency), hor ?_, hor ?_⟩
  · simpa [Setting.sets] using h .number
  · simpa [Setting.sets] using h .context

/-- A setting leaves no trace if every part that it sets is set again later. -/
theorem setAll_of_overwritten
    (h : ∀ part, setting.sets part = true → ∃ later ∈ after, later.sets part = true) :
    draft.setAll (before ++ setting :: after) = draft.setAll (before ++ after) := by
  rw [setAll_eq, setAll_eq, Setting.last?_of_overwritten (h .currency),
    Setting.last?_of_overwritten (h .number), Setting.last?_of_overwritten (h .context)]

/-- An amount is made of a draft by finding the currency, then the number, and then rounding. -/
theorem create_under (registry : Registry) (usual : Context) (draft : Draft) :
    (draft.create registry).under usual = draft.findCurrency registry >>= fun currency =>
      draft.findNumber >>= fun number =>
        Money.withContext number currency (draft.context.getD usual) := by
  have hmake := Origin.make_eq registry usual (.ofDraft draft)
  rw [Origin.make, Origin.parts] at hmake
  rw [hmake]
  cases draft.findCurrency registry with
  | error error => rfl
  | ok currency => cases draft.findNumber <;> rfl

/-- The currency of a draft is the one that its choice stands for, if there is a choice. -/
theorem findCurrency_eq_bind (registry : Registry) (draft : Draft) :
    draft.findCurrency registry =
      draft.currency.elim (.error (.invalidArgument .currencyUnset)) .ok >>=
        currencyOf registry := by
  unfold findCurrency
  cases draft.currency with
  | none => rfl
  | some choice =>
    -- Not by `rfl` alone, which would unfold the search for a code.
    change _ = currencyOf registry choice
    cases choice <;> rw [currencyOf]

/-- The number of a draft is the one that was given to it, if one was given. -/
theorem findNumber_eq_bind {input? : Option NumberInput}
    (h : draft.number = input?.map NumberInput.toDecimal) :
    draft.findNumber =
      input?.elim (.error (.invalidArgument .numberUnset)) .ok >>= Money.operand := by
  unfold findNumber
  rw [h]
  cases input? with
  | none => rfl
  | some input =>
    change _ = Money.operand input
    rw [Money.operand, Option.map_some]
    cases input.toDecimal <;> rfl

/-- What is made of a draft is decided by the last setting of each part. -/
theorem create_setAll_empty (registry : Registry) (usual : Context) (settings : List Setting) :
    ((empty.setAll settings).create registry).under usual =
      answer registry usual (Setting.last? Setting.currency? settings)
        (Setting.last? Setting.number? settings) (Setting.last? Setting.context? settings) := by
  have hnumber := congrArg Draft.number (setAll_empty settings)
  rw [create_under, findCurrency_eq_bind, findNumber_eq_bind hnumber, setAll_empty, answer]
  simp only [bind_assoc]

/-- A draft fails for its currency, or else for its number, or else because rounding fails. -/
theorem create_eq_error_iff {error : MoneyError} :
    (draft.create registry).under usual = .error error ↔
      draft.findCurrency registry = .error error ∨
      ∃ currency, draft.findCurrency registry = .ok currency ∧
        (draft.findNumber = .error error ∨
          ∃ number cause, draft.findNumber = .ok number ∧
            (draft.context.getD usual).apply number = .error cause ∧ error = .number cause) := by
  rw [create_under, bind_eq_error_iff]
  simp only [bind_eq_error_iff, Money.withContext_eq_error_iff, exists_and_left]

end Draft

/-- The draft of an amount whose number fits its context makes an amount with this very number. -/
theorem Money.create_draft {money : Money} (hfits : money.context.fits money.number = true)
    (registry : Registry) : money.draft.create registry =
      .known (.ok { money with context := money.context.forMoney }) := by
  have hmade : Money.withContext money.number money.currency money.context.forMoney =
      .ok ⟨money.currency, money.number, money.context.forMoney⟩ := Money.withContext_of_fits hfits
  rw [← hmade]
  rfl

/-- What is made of a draft is a function of the last setting of each part, of the registry and of
the default context: settings of different parts may change places, one that is overwritten does not
count, and of several faults that of the currency is reported before that of the number, and that
before one of rounding. The draft of an amount that was reached makes the same amount again, as
money, whatever the mode of rounding. -/
theorem Draft.create_decided_by_last_settings (registry : Registry) (usual : Context) :
    (∀ settings : List Setting, ((empty.setAll settings).create registry).under usual =
        answer registry usual (Setting.last? Setting.currency? settings)
          (Setting.last? Setting.number? settings) (Setting.last? Setting.context? settings)) ∧
      (∀ (draft : Draft) (setting other : Setting),
        (∀ part, ¬ (setting.sets part = true ∧ other.sets part = true)) →
          (draft.set setting).set other = (draft.set other).set setting) ∧
      (∀ (draft : Draft) (before after : List Setting) (setting : Setting),
        (∀ part, setting.sets part = true → ∃ later ∈ after, later.sets part = true) →
          draft.setAll (before ++ setting :: after) = draft.setAll (before ++ after)) ∧
      (∀ (draft : Draft) (error : MoneyError),
        (draft.create registry).under usual = .error error ↔
          draft.findCurrency registry = .error error ∨
          ∃ currency, draft.findCurrency registry = .ok currency ∧
            (draft.findNumber = .error error ∨
              ∃ number cause, draft.findNumber = .ok number ∧
                (draft.context.getD usual).apply number = .error cause ∧
                error = .number cause)) ∧
      ∀ money : Money, Reachable money → money.draft.create registry =
        .known (.ok { money with context := money.context.forMoney }) :=
  ⟨create_setAll_empty registry usual, fun _ _ _ => set_comm, fun _ _ _ _ => setAll_of_overwritten,
    fun _ _ => create_eq_error_iff, fun _ h => Money.create_draft h.fits registry⟩

/-- What is no number and a code that is not registered count until both are overwritten, the code
first, and an amount is taken over by a draft though its context forbids to round. -/
theorem Draft.create_decided_by_last_settings_of_overwritten_faults :
    let usd : Currency := ⟨"USD", by decide⟩
    let usual : Context := .money 3 .halfEven
    let noNumber : Setting := .number (.double 0x7FF8000000000000)
    let money : Money := ⟨usd, ⟨1234, 2⟩, ⟨4, .unnecessary, "Other"⟩⟩
    let make (settings : List Setting) :=
      ((empty.setAll settings).create .empty).under usual
    make [.code "usd", noNumber] = .error (.unknownCurrency "usd") ∧
      make [.code "usd", noNumber, .currency usd] =
        .error (.invalidArgument (.number .invalidInput)) ∧
      make [.code "usd", noNumber, .currency usd, .number (.integer 12345)] =
        .ok ⟨usd, ⟨123, -2⟩, usual⟩ ∧
      (∀ draft : Draft, draft.setAll [noNumber, .amount money] = draft.setAll [.amount money]) ∧
      (empty.set noNumber).set (.code "usd") = (empty.set (.code "usd")).set noNumber ∧
      money.draft.create .empty =
        .known (.ok ⟨usd, ⟨1234, 2⟩, .money 4 .unnecessary⟩) := by
  intro usd usual noNumber money make
  obtain ⟨hlast, hcomm, hoverwritten, hfault, hdraft⟩ :=
    create_decided_by_last_settings .empty usual
  have hreachable : Reachable money := .of_fits (by decide +kernel) (by decide +kernel)
  refine ⟨(hfault _ _).mpr (.inl (by decide +kernel)),
    (hfault _ _).mpr (.inr ⟨usd, rfl, .inl (by decide +kernel)⟩),
    (hlast _).trans (by decide +kernel), fun draft => hoverwritten draft [] _ _ fun part _ => ?_,
    hcomm _ _ _ fun part => ?_, hdraft money hreachable⟩
  · exact ⟨.amount money, List.mem_singleton_self _, by cases part <;> rfl⟩
  · cases part <;> decide

end Monetary
