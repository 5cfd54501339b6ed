import Monetary.Currency.Registry
import Monetary.Proofs.Currency.Spelling
import Mathlib.Data.Set.Card

/-!
# The codes that a registry knows

A registry knows a set of codes. Along every run this set consists of the codes that the registry
was started with and the normal forms of the spellings that were registered so far, and no currency
is there twice: a registration adds the normal form of its text if it has one, and lookups leave
the registry as it is. All answers follow from this invariant, so that it does not matter in which
spelling a code was registered, in which it is asked for, and how often and in which order.
-/

namespace Monetary.Registry

/-- A call on a registry. -/
inductive Call where
  | register (text : String)
  | find (text : String)
  | contains (text : String)

/-- What a call is answered with. -/
inductive Answer where
  | currency (result : Except MoneyError Currency)
  | known (isKnown : Bool)

/-- The answer to a call, the registry after it, and what is reported. -/
def call (registry : Registry) : Call → Answer × Registry × List Event
  | .register text => (.currency (registry.register text).1, (registry.register text).2)
  | .find text => (.currency (registry.find text), registry, [])
  | .contains text => (.known (registry.contains text), registry, [])

/-- A registry after some calls. -/
def run (registry : Registry) (calls : List Call) : Registry :=
  calls.foldl (fun registry call => (registry.call call).2.1) registry

/-- What a registry is started with. -/
inductive Start where
  | empty
  | iso

/-- The registry at its start. -/
def Start.registry : Start → Registry
  | .empty => .empty
  | .iso => .iso

/-- The codes that a registry is started with. -/
def Start.codes : Start → List String
  | .empty => []
  | .iso => isoCodes

/-- The codes that a registry is started with, and the normal forms of the spellings that are
registered by some calls. -/
def codesAfter (start : Start) (calls : List Call) : Set String :=
  {code | code ∈ start.codes ∨ ∃ text,
    .register text ∈ calls ∧ Currency.IsSpelling text ∧ Currency.normalForm text = code}

/-- The codes of the known currencies, in the order in which these were added. -/
def codes (registry : Registry) : List String :=
  registry.currencies.map Currency.code

/-- A registry knows the currencies of some codes, each of them once. -/
structure Holds (registry : Registry) (known : Set String) : Prop where
  nodup : registry.codes.Nodup
  mem_iff : ∀ code, code ∈ registry.codes ↔ code ∈ known

variable {registry : Registry} {known : Set String} {text : String} {currency : Currency}

/-- A currency is known exactly if its code is among the codes. -/
theorem knows_iff : registry.knows currency = true ↔ currency.code ∈ registry.codes := by
  simp [knows, codes, Currency.code_inj]

/-- A text that spells no code is refused; a spelling is answered with its currency, which is added
and reported if it was not known. -/
theorem register_cases (registry : Registry) (text : String) :
    (¬ Currency.IsSpelling text ∧
      registry.register text =
        (.error (.invalidArgument (.currencyCode text)), registry, [])) ∨
    ∃ currency, Currency.IsSpelling text ∧ currency.code = Currency.normalForm text ∧
      (currency.code ∈ registry.codes ∧ registry.register text = (.ok currency, registry, []) ∨
        currency.code ∉ registry.codes ∧ registry.register text =
          (.ok currency, ⟨registry.currencies ++ [currency]⟩, [registered currency])) := by
  by_cases hspelling : Currency.IsSpelling text
  · obtain ⟨currency, hread, hcode⟩ := hspelling.exists_ofText?
    refine .inr ⟨currency, hspelling, hcode, ?_⟩
    unfold register Currency.read
    rw [hread, ← knows_iff]
    dsimp only
    by_cases hknown : registry.knows currency = true
    · exact .inl ⟨hknown, if_pos hknown⟩
    · refine .inr ⟨hknown, ?_⟩
      rw [if_neg hknown, add, if_neg hknown]
  · refine .inl ⟨hspelling, ?_⟩
    unfold register Currency.read
    rw [Currency.ofText?_eq_none hspelling]

/-- At the start a registry holds the codes that it is started with. -/
theorem holds_start (start : Start) : Holds start.registry {code | code ∈ start.codes} := by
  cases start with
  | empty => exact ⟨List.nodup_nil, fun _ => Iff.rfl⟩
  | iso =>
    have hcodes : iso.codes = isoCodes := by decide +kernel
    exact ⟨by rw [Start.registry, hcodes]; decide, fun code => by rw [Start.registry, hcodes]; rfl⟩

namespace Holds

/-- Registering a text adds its normal form, if it spells a code. -/
theorem register (h : Holds registry known) (text : String) :
    Holds (registry.register text).2.1
      {code | code ∈ known ∨ Currency.IsSpelling text ∧ Currency.normalForm text = code} := by
  obtain ⟨hnodup, hmem⟩ := h
  rcases registry.register_cases text with ⟨hother, hregister⟩ |
    ⟨currency, hspelling, hcode, ⟨hknown, hregister⟩ | ⟨hnew, hregister⟩⟩
  · rw [hregister]
    refine ⟨hnodup, fun code => (hmem code).trans ?_⟩
    simp [hother]
  · rw [hregister]
    refine ⟨hnodup, fun code => (hmem code).trans ⟨.inl, ?_⟩⟩
    rintro (hold | ⟨-, rfl⟩)
    · exact hold
    · exact (hmem _).mp (hcode ▸ hknown)
  · rw [hregister]
    have hcodes : codes ⟨registry.currencies ++ [currency]⟩ =
        registry.codes ++ [currency.code] := List.map_append
    constructor
    · rw [hcodes]
      exact List.nodup_append.mpr ⟨hnodup, List.nodup_singleton _, by
        rintro code hold _ hlast rfl
        exact hnew (List.mem_singleton.mp hlast ▸ hold)⟩
    · intro code
      rw [hcodes, List.mem_append, List.mem_singleton, hmem, hcode]
      simp [hspelling, eq_comm]

/-- A call keeps what a registry holds in step with the codes that were registered. -/
theorem call {start : Start} {calls : List Call} (h : Holds registry (codesAfter start calls))
    (next : Call) : Holds (registry.call next).2.1 (codesAfter start (calls ++ [next])) := by
  have hlookup (hother : ∀ text, next ≠ .register text) :
      codesAfter start (calls ++ [next]) = codesAfter start calls := by
    ext code
    simp [codesAfter, fun text => Ne.symm (hother text)]
  cases next with
  | register text =>
    have hcodes : codesAfter start (calls ++ [.register text]) =
        {code | code ∈ codesAfter start calls ∨
          Currency.IsSpelling text ∧ Currency.normalForm text = code} := by
      ext code
      simp only [codesAfter, List.mem_append, List.mem_singleton, Call.register.injEq,
        Set.mem_ofPred_eq, or_and_right, exists_or, exists_eq_left, or_assoc]
    have hcall : (registry.call (.register text)).2 = (registry.register text).2 := by
      rw [Registry.call]
    rw [hcodes, hcall]
    exact h.register text
  | find text =>
    rw [hlookup nofun]
    exact h
  | contains text =>
    rw [hlookup nofun]
    exact h

/-- A spelling of a code that the registry holds is contained and found as the currency of that
code; any other text is not contained, and is reported as it was given. -/
theorem lookup_cases (h : Holds registry known) (text : String) :
    (∃ currency, (Currency.IsSpelling text ∧ Currency.normalForm text ∈ known) ∧
      currency.code = Currency.normalForm text ∧
        registry.find text = .ok currency ∧ registry.contains text = true) ∨
    ¬ (Currency.IsSpelling text ∧ Currency.normalForm text ∈ known) ∧
      registry.find text = .error (.unknownCurrency text) ∧ registry.contains text = false := by
  unfold find contains
  by_cases hspelling : Currency.IsSpelling text
  · obtain ⟨currency, hread, hcode⟩ := hspelling.exists_ofText?
    rw [hread, ← hcode, ← h.mem_iff, ← knows_iff]
    dsimp only
    by_cases hknows : registry.knows currency = true
    · exact .inl ⟨currency, ⟨hspelling, hknows⟩, rfl, if_pos hknows, hknows⟩
    · exact .inr ⟨fun hknown => hknows hknown.2, if_neg hknows, Bool.eq_false_iff.mpr hknows⟩
  · rw [Currency.ofText?_eq_none hspelling]
    exact .inr ⟨fun hknown => hspelling hknown.1, rfl, rfl⟩

/-- A text is found exactly if it spells a code that the registry holds, and then as the currency of
that code. -/
theorem find_eq_ok_iff (h : Holds registry known) : registry.find text = .ok currency ↔
    Currency.IsSpelling text ∧ Currency.normalForm text ∈ known ∧
      currency.code = Currency.normalForm text := by
  rw [← and_assoc]
  rcases h.lookup_cases text with ⟨found, hknown, hcode, hfind, -⟩ | ⟨hunknown, hfind, -⟩
  · rw [hfind, Except.ok.injEq, and_iff_right hknown, ← hcode, Currency.code_inj, eq_comm]
  · rw [hfind]
    exact iff_of_false nofun fun hknown => hunknown hknown.1

/-- A text that is not found is reported as it was given. -/
theorem find_eq_error_iff (h : Holds registry known) {error : MoneyError} :
    registry.find text = .error error ↔ error = .unknownCurrency text ∧
      ¬ (Currency.IsSpelling text ∧ Currency.normalForm text ∈ known) := by
  rcases h.lookup_cases text with ⟨_, hknown, -, hfind, -⟩ | ⟨hunknown, hfind, -⟩
  · rw [hfind]
    exact iff_of_false nofun fun hother => hother.2 hknown
  · rw [hfind, Except.error.injEq, and_iff_left hunknown, eq_comm]

/-- A text counts as contained exactly if it spells a code that the registry holds. -/
theorem contains_iff (h : Holds registry known) : registry.contains text = true ↔
    Currency.IsSpelling text ∧ Currency.normalForm text ∈ known := by
  rcases h.lookup_cases text with ⟨_, hknown, -, -, hcontains⟩ | ⟨hunknown, -, hcontains⟩
  · exact iff_of_true hcontains hknown
  · rw [hcontains]
    exact iff_of_false nofun hunknown

/-- A registry has as many currencies as it holds codes. -/
theorem size_eq (h : Holds registry known) : registry.size = known.ncard := by
  have hknown : known = ↑registry.codes.toFinset := by
    ext code
    rw [List.coe_toFinset, Set.mem_ofPred_eq, h.mem_iff]
  rw [hknown, Set.ncard_coe_finset, List.toFinset_card_of_nodup h.nodup]
  exact (List.length_map _).symm

/-- Calls keep what a registry holds in step with the codes that were registered. -/
theorem run (start : Start) (calls : List Call) :
    Holds (start.registry.run calls) (codesAfter start calls) := by
  induction calls using List.reverseRecOn with
  | nil => simpa [codesAfter, Registry.run] using holds_start start
  | append_singleton calls next ih =>
    rw [Registry.run, List.foldl_append]
    exact ih.call next

end Holds

/-- A registration is reported once, and only if the registry grows by it. -/
theorem register_reports (registry : Registry) (text : String) :
    ((∃ event ∈ (registry.register text).2.2, event.level = .debug) ↔
        (registry.register text).2.1.size = registry.size + 1) ∧
      (registry.register text).2.1.size = registry.size + (registry.register text).2.2.length := by
  rcases registry.register_cases text with ⟨-, hregister⟩ |
    ⟨currency, -, -, ⟨-, hregister⟩ | ⟨-, hregister⟩⟩
  · simp [hregister]
  · simp [hregister]
  · simp [hregister, size, registered]

/-- After any run, a text names a known currency exactly if it spells a code that the registry was
started with or that was registered in some spelling, and the registry has as many currencies as
there are such codes. Lookups neither change it nor report anything; a registration that is refused
does not change it, and any other one is reported exactly if it adds a currency. -/
theorem run_answers_by_normal_form (start : Start) (calls : List Call) :
    let registry := start.registry.run calls
    let known := codesAfter start calls
    registry.size = known.ncard ∧
    ∀ text : String,
      ((∃ currency, Currency.read text = .ok currency) ↔ Currency.IsSpelling text) ∧
      (∀ other currency another, Currency.read text = .ok currency →
        Currency.read other = .ok another →
          (currency = another ↔ Currency.normalForm text = Currency.normalForm other)) ∧
      (registry.contains text = true ↔
        Currency.IsSpelling text ∧ Currency.normalForm text ∈ known) ∧
      ((∃ currency, registry.find text = .ok currency) ↔ registry.contains text = true) ∧
      (∀ currency, registry.find text = .ok currency →
        currency.code = Currency.normalForm text ∧ Currency.read currency.code = .ok currency ∧
          registry.find currency.code = .ok currency) ∧
      (∀ error, registry.find text = .error error → error = .unknownCurrency text) ∧
      (registry.call (.find text)).2 = (registry, []) ∧
      (registry.call (.contains text)).2 = (registry, []) ∧
      (¬ Currency.IsSpelling text → registry.register text =
        (.error (.invalidArgument (.currencyCode text)), registry, [])) ∧
      (Currency.IsSpelling text → ∃ currency, (registry.register text).1 = .ok currency ∧
        currency.code = Currency.normalForm text) ∧
      ((∃ event ∈ (registry.register text).2.2, event.level = .debug) ↔
        (registry.register text).2.1.size = registry.size + 1) ∧
      (registry.register text).2.1.size =
        registry.size + (registry.register text).2.2.length := by
  intro registry known
  have hholds : Holds registry known := .run start calls
  refine ⟨hholds.size_eq, fun text => ?_⟩
  obtain ⟨hreports, hgrowth⟩ := registry.register_reports text
  refine ⟨?_, ?_, hholds.contains_iff, ?_, ?_, ?_, rfl, rfl, ?_, ?_, hreports, hgrowth⟩
  · constructor
    · rintro ⟨currency, hread⟩
      exact (Currency.read_eq_ok_iff.mp hread).1
    · intro hspelling
      obtain ⟨currency, -, hcode⟩ := hspelling.exists_ofText?
      exact ⟨currency, Currency.read_eq_ok_iff.mpr ⟨hspelling, hcode⟩⟩
  · intro other currency another hread hother
    rw [← (Currency.read_eq_ok_iff.mp hread).2, ← (Currency.read_eq_ok_iff.mp hother).2,
      Currency.code_inj]
  · rw [hholds.contains_iff]
    constructor
    · rintro ⟨currency, hfind⟩
      obtain ⟨hspelling, hknown, -⟩ := hholds.find_eq_ok_iff.mp hfind
      exact ⟨hspelling, hknown⟩
    · rintro ⟨hspelling, hknown⟩
      obtain ⟨currency, -, hcode⟩ := hspelling.exists_ofText?
      exact ⟨currency, hholds.find_eq_ok_iff.mpr ⟨hspelling, hknown, hcode⟩⟩
  · intro currency hfind
    obtain ⟨-, hknown, hcode⟩ := hholds.find_eq_ok_iff.mp hfind
    obtain ⟨hspelling, hform⟩ := currency.isSpelling_code
    exact ⟨hcode, Currency.read_eq_ok_iff.mpr ⟨hspelling, hform.symm⟩,
      hholds.find_eq_ok_iff.mpr ⟨hspelling, by rwa [hform, hcode], hform.symm⟩⟩
  · intro error hfind
    exact (hholds.find_eq_error_iff.mp hfind).1
  · intro hother
    rcases registry.register_cases text with ⟨-, hregister⟩ | ⟨_, hspelling, -⟩
    · exact hregister
    · exact absurd hspelling hother
  · intro hspelling
    rcases registry.register_cases text with ⟨hother, -⟩ |
      ⟨currency, -, hcode, ⟨-, hregister⟩ | ⟨-, hregister⟩⟩
    · exact absurd hspelling hother
    · exact ⟨currency, by rw [hregister], hcode⟩
    · exact ⟨currency, by rw [hregister], hcode⟩

/-- One currency is registered in two spellings and found in a third one, and what lies between them
is no code. -/
theorem run_answers_by_normal_form_of_three_spellings :
    let calls : List Call := [.register " usd", .register "US-D", .find "usd", .register "Usd\u3000"]
    let registry := Start.empty.registry.run calls
    registry.size = 1 ∧ registry.contains "uSD\n" = true ∧
      registry.register "u sd" =
        (.error (.invalidArgument (.currencyCode "u sd")), registry, []) := by
  intro calls registry
  obtain ⟨-, hanswers⟩ := run_answers_by_normal_form .empty calls
  obtain ⟨-, -, hcontains, -⟩ := hanswers "uSD\n"
  obtain ⟨-, -, -, -, -, -, -, -, hrefused, -⟩ := hanswers "u sd"
  have hspelling {text : String} (h : isCode (Currency.normalForm text).toList = true) :
      Currency.IsSpelling text := Currency.isCode_normalForm_iff.mp h
  refine ⟨by decide +kernel, hcontains.mpr ⟨hspelling (by decide +kernel), .inr ?_⟩,
    hrefused (mt Currency.isCode_normalForm_iff.mpr (by decide +kernel))⟩
  exact ⟨" usd", List.mem_cons_self, hspelling (by decide +kernel), by decide +kernel⟩

end Monetary.Registry
