import Monetary.Money.Storage
import Monetary.Proofs.Context.Resolution
import Monetary.Proofs.Decimal.Canonical
import Monetary.Proofs.Json.RoundTrip
import Monetary.Proofs.Money.Reachable

/-!
# Stored amounts are restored

The stored form of an amount holds its number in the canonical notation, which is read as this very
number, the code of its currency, and its context. Restoring it brings the number to the context
again, and this changes nothing and cannot fail, because the number fits the context already. Only
the kind of amount is not kept: what is restored is money.

A record may be stored in many other forms, with parts missing or written differently. An amount
that is made from such a record fits its context like every other, so that storing it leads to a
form that is restored from then on.

Through texts this holds of every format that reads a record from the text it has for it. JSON is
one, since the names of the fields of a record differ from each other.
-/

namespace Monetary

namespace JsonValue

/-- A field is found under its name among fields with different names. -/
theorem field?_of_mem {fields : List (String × JsonValue)} {name : String} {value : JsonValue}
    (hnodup : (fields.map Prod.fst).Nodup) (h : (name, value) ∈ fields) :
    field? name (fields.map fun field => (points field.1, field.2)) = some (some value) := by
  have hfilter : fields.filter (fun field => points field.1 == points name) = [(name, value)] := by
    have hsame (other : String) : (points other == points name) = (other == name) := by
      rw [Bool.eq_iff_iff, beq_iff_eq, beq_iff_eq, points_injective.eq_iff]
    simp only [hsame]
    induction fields with
    | nil => cases h
    | cons field fields ih =>
      rw [List.map_cons, List.nodup_cons] at hnodup
      rcases List.mem_cons.mp h with rfl | hlater
      · have hothers : fields.filter (fun field => field.1 == name) = [] := by
          rw [List.filter_eq_nil_iff]
          intro other hother hname
          exact hnodup.1 (List.mem_map.mpr ⟨other, hother, beq_iff_eq.mp hname⟩)
        rw [List.filter_cons, hothers, if_pos (beq_self_eq_true name)]
      · have hother : ¬ (field.1 == name) = true := by
          intro hname
          exact hnodup.1 (List.mem_map.mpr ⟨_, hlater, (beq_iff_eq.mp hname).symm⟩)
        rw [List.filter_cons, if_neg hother]
        exact ih hnodup.2 hlater
  unfold field?
  rw [List.filter_map]
  simp only [Function.comp_def, hfilter]
  rfl

/-- The fields of an object are found in the order of their names. -/
theorem recordFields?_object (fields : List (String × JsonValue))
    (hnodup : (fields.map Prod.fst).Nodup) :
    recordFields? (fields.map Prod.fst)
        (.object (fields.map fun field => (points field.1, field.2))) =
      some (fields.map fun field => some field.2) := by
  have hnames : checkNames? (fields.map fun field => (points field.1, field.2)) =
      some (fields.map fun field => (points field.1, field.2)) := by
    rw [checkNames?, if_pos]
    simp [text?_points]
  have hfound (part : List (String × JsonValue)) (hpart : ∀ field ∈ part, field ∈ fields) :
      (part.map Prod.fst).mapM (fun name =>
        field? name (fields.map fun field => (points field.1, field.2))) =
      some (part.map fun field => some field.2) := by
    induction part with
    | nil => rfl
    | cons field part ih =>
      obtain ⟨hfield, hpart⟩ := List.forall_mem_cons.mp hpart
      rw [List.map_cons, List.mapM_cons, field?_of_mem hnodup hfield, ih hpart]
      rfl
  rw [recordFields?, hnames]
  exact hfound fields fun _ hfield => hfield

/-- An optional text is read from the value that is written for it. -/
theorem textField?_elim (text : Option String) :
    textField? (some (text.elim .null ofText)) = some text := by
  cases text with
  | none => rfl
  | some text => simp [textField?, optionalText?, ofText, text?_points]

/-- A precision is read from its digits. -/
theorem precision?_digits (precision : UInt32) :
    precision? (.number (Text.digits precision.toNat)) = some precision := by
  have hlimit : precision.toNat < 4294967296 := precision.toNat_lt
  simp [precision?, Text.readDigits_digits, hlimit]

/-- A rounding mode is read from its name. -/
theorem rounding?_name (mode : Rounding) : rounding? (.ofText mode.name) = some mode := by
  have hname : Rounding.ofName? mode.name = some mode := by
    cases mode <;> cbv
  simp [rounding?, ofText, text?_points, hname]

/-- An optional text is written as a value that is read back. -/
theorem isWritable_elim (text : Option String) : IsWritable (text.elim .null ofText) := by
  cases text with
  | none => exact .null
  | some text => exact .string text

end JsonValue

open JsonValue (points IsWritable)

namespace ContextRecord

/-- A stored context is read from the value that is written for it. -/
theorem ofJson?_toJson (record : ContextRecord) : ofJson? record.toJson = some record := by
  have hnames : fieldNames.Nodup := by decide
  have hfields : JsonValue.recordFields? fieldNames record.toJson =
      some [some (.number (Text.digits record.precision.toNat)),
        some (.ofText record.rounding.name), some (record.amountType.elim .null .ofText)] :=
    JsonValue.recordFields?_object [("precision", _), ("rounding", _), ("amount_type", _)] hnames
  rw [ofJson?, hfields]
  simp [JsonValue.precision?_digits, JsonValue.rounding?_name, JsonValue.textField?_elim]

/-- A stored context is written as a value that is read back. -/
theorem isWritable_toJson (record : ContextRecord) : IsWritable record.toJson := by
  refine .object ?_ ?_
  · simp
  · simp only [List.forall_mem_cons]
    exact ⟨.number (JsonToken.isNumeral_digits _), .string _, JsonValue.isWritable_elim _, by simp⟩

end ContextRecord

namespace MoneyRecord

/-- A stored amount is read from the value that is written for it. -/
theorem ofJson?_toJson (record : MoneyRecord) : ofJson? record.toJson = some record := by
  have hnames : fieldNames.Nodup := by decide
  have hfields : JsonValue.recordFields? fieldNames record.toJson =
      some [some (record.number.elim .null .ofText), some (record.currency.elim .null .ofText),
        some (record.context.elim .null ContextRecord.toJson)] :=
    JsonValue.recordFields?_object [("number", _), ("currency", _), ("context", _)] hnames
  have hcontext : contextField? (some (record.context.elim .null ContextRecord.toJson)) =
      some record.context := by
    cases record.context with
    | none => rfl
    | some context =>
      change (ContextRecord.ofJson? context.toJson).map some = _
      rw [ContextRecord.ofJson?_toJson]
      rfl
  rw [ofJson?, hfields]
  simp [JsonValue.textField?_elim, hcontext]

/-- A stored amount is written as a value that is read back. -/
theorem isWritable_toJson (record : MoneyRecord) : IsWritable record.toJson := by
  have hcontext : IsWritable (record.context.elim .null ContextRecord.toJson) := by
    cases record.context with
    | none => exact .null
    | some context => exact context.isWritable_toJson
  refine .object ?_ ?_
  · simp
  · simp only [List.forall_mem_cons]
    exact ⟨JsonValue.isWritable_elim _, JsonValue.isWritable_elim _, hcontext, by simp⟩

/-- A record is read from the text that is written for it. -/
theorem read?_text (record : MoneyRecord) : read? record.text = some record := by
  rw [read?, text, record.isWritable_toJson.parse?_print]
  exact record.ofJson?_toJson

end MoneyRecord

/-- What is known of a format: it reads a record from the text that it has for this record. -/
structure RecordFormat.IsLawful (format : RecordFormat) : Prop where
  decode?_encode (record : MoneyRecord) : format.decode? (format.encode record) = some record

/-- The JSON texts are such a format. -/
theorem RecordFormat.isLawful_json : RecordFormat.json.IsLawful where
  decode?_encode := MoneyRecord.read?_text

/-- A record is loaded from its text as it is restored without it. -/
theorem RecordFormat.IsLawful.load_encode {format : RecordFormat} (h : format.IsLawful)
    (registry : Registry) (record : MoneyRecord) :
    format.load registry (format.encode record) =
      (record.toMoney registry).map fun answer => answer.mapError .rejected := by
  rw [load, h.decode?_encode]

/-- A text is loaded as the amount of a record that is read from it. -/
theorem RecordFormat.load_eq_ok_iff {format : RecordFormat} {registry : Registry} {text : String}
    {usual : Context} {money : Money} :
    (format.load registry text).under usual = .ok money ↔
      ∃ record, format.decode? text = some record ∧
        (record.toMoney registry).under usual = .ok money := by
  unfold load
  cases format.decode? text with
  | none => simp
  | some record =>
    cases h : (record.toMoney registry).under usual <;> simp [Except.mapError, h]

namespace Money

variable {format : RecordFormat}

/-- Amounts that can be stored: the number is within the context, and the exponent of its leading
digit is one that a numeral may carry. -/
structure IsStorable (money : Money) : Prop where
  fits : money.context.fits money.number = true
  readable : Decimal.isExponent money.number.leadingExponent = true

/-- Whatever the default context, an amount is restored as another one, from its record and from
the text that a format has for the record. -/
def RestoredAs (format : RecordFormat) (registry : Registry) (money restored : Money) : Prop :=
  ∀ usual : Context, ((MoneyRecord.ofMoney money).toMoney registry).under usual = .ok restored ∧
    (format.load registry (format.save money)).under usual = .ok restored

/-- An amount that can be stored is restored, as an amount of money, if its currency is known. -/
theorem IsStorable.restoredAs {money : Money} (h : money.IsStorable) (hformat : format.IsLawful)
    {registry : Registry} (hknown : registry.knows money.currency = true) :
    RestoredAs format registry money { money with context := money.context.forMoney } := by
  intro usual
  have hcurrency : (MoneyRecord.ofMoney money).findCurrency registry = .ok money.currency := by
    simp [MoneyRecord.findCurrency, MoneyRecord.ofMoney, Registry.find, Currency.ofText?_code,
      hknown]
  have hnumber : (MoneyRecord.ofMoney money).findNumber = .ok money.number := by
    simp [MoneyRecord.findNumber, MoneyRecord.ofMoney, Decimal.read_canonicalText h.readable]
  -- The kind of amount has no part in what fits, so the number is brought to where it is.
  have hfits : money.context.forMoney.fits money.number = true := h.fits
  have hrecord : ((MoneyRecord.ofMoney money).toMoney registry).under usual =
      .ok { money with context := money.context.forMoney } := by
    rw [MoneyRecord.toMoney, hcurrency, hnumber]
    exact withContext_of_fits hfits
  refine ⟨hrecord, ?_⟩
  rw [RecordFormat.save, hformat.load_encode, Contextual.under_map, hrecord]
  rfl

end Money

/-- The amounts of a run can be stored: their number is within their context, and its digits can
be counted. -/
theorem Reachable.isStorable {money : Money} (h : Reachable money) : money.IsStorable := by
  refine ⟨h.fits, ?_⟩
  have hdigits : money.number.digits ≤ digitLimit := h.digits_le
  have hlow := Decimal.leastScale_le_toInt money.number.scale
  have hhigh := Decimal.toInt_le_greatestScale money.number.scale
  simp only [Decimal.leastScale, Decimal.greatestScale, digitLimit] at hlow hhigh hdigits
  rw [Decimal.isExponent, Decimal.leadingExponent, Bool.and_eq_true, decide_eq_true_iff,
    decide_eq_true_iff]
  omega

/-- A registry finds currencies that it knows. -/
theorem Registry.knows_of_find {registry : Registry} {text : String} {currency : Currency}
    (h : registry.find text = .ok currency) : registry.knows currency = true := by
  unfold find at h
  split at h
  · split at h
    · rename_i hknown
      cases h
      exact hknown
    · cases h
  · cases h

/-- What a record is restored as has a known currency, and a number within its context, which is
one for money if the default context is. -/
theorem MoneyRecord.toMoney_elim {registry : Registry} {record : MoneyRecord} {usual : Context}
    {money : Money} (husual : usual.amountType = Context.moneyType)
    (h : (record.toMoney registry).under usual = .ok money) :
    registry.knows money.currency = true ∧ money.context.fits money.number = true ∧
      money.context.forMoney = money.context := by
  rw [← Origin.make, Origin.make_eq, Origin.parts] at h
  obtain ⟨_, hparts, hmoney⟩ := bind_eq_ok_iff.mp h
  obtain ⟨currency, hcurrency, hparts⟩ := bind_eq_ok_iff.mp hparts
  obtain ⟨number, hnumber, hparts⟩ := bind_eq_ok_iff.mp hparts
  cases hparts
  obtain ⟨fitted, hfitted, rfl⟩ := Money.withContext_eq_ok_iff.mp hmoney
  refine ⟨?_, Context.fits_of_apply_eq_ok hfitted, ?_⟩
  · unfold findCurrency at hcurrency
    split at hcurrency
    · cases hcurrency
    · exact Registry.knows_of_find hcurrency
  · -- Without a context of its own the record is one under the default context.
    cases hcontext : record.context with
    | none => simp [Context.forMoney, ← husual]
    | some context => rfl

namespace Money

/-- The amount of a record is restored from then on, by every registry that still knows the
currencies that were known. -/
theorem restoredAs_of_toMoney (hformat : format.IsLawful) {registry later : Registry}
    {record : MoneyRecord} {environment : Environment} {money : Money}
    (hlater : ∀ currency, registry.knows currency = true → later.knows currency = true)
    (h : (record.toMoney registry).under environment.resolve.context = .ok money)
    (hreadable : Decimal.isExponent money.number.leadingExponent = true) :
    RestoredAs format later money money := by
  obtain ⟨hknown, hfits, hmoney⟩ := MoneyRecord.toMoney_elim environment.amountType_resolve h
  have hrestored := IsStorable.restoredAs ⟨hfits, hreadable⟩ hformat (hlater _ hknown)
  rwa [hmoney] at hrestored

/-- JSON texts hold every record, and the following is true of them and of every other format that
does. The amounts of a run are restored with the same number and currency, and with a context of the
same precision and rounding mode, if their currency is known. What a record or a text is taken for
is stored in a form that is restored as this very amount from then on. -/
theorem storage_round_trip :
    RecordFormat.json.IsLawful ∧ ∀ format : RecordFormat, format.IsLawful →
      (∀ (money : Money) (registry : Registry), Reachable money →
        registry.knows money.currency = true →
          RestoredAs format registry money
            ⟨money.currency, money.number, .money money.context.precision money.context.rounding⟩) ∧
      ∀ (environment : Environment) (registry later : Registry) (money : Money),
        (∀ currency, registry.knows currency = true → later.knows currency = true) →
        Decimal.isExponent money.number.leadingExponent = true →
          (∀ record : MoneyRecord,
            (record.toMoney registry).under environment.resolve.context = .ok money →
              RestoredAs format later money money) ∧
          ∀ text : String,
            (format.load registry text).under environment.resolve.context = .ok money →
              RestoredAs format later money money := by
  refine ⟨RecordFormat.isLawful_json, fun format hformat => ⟨?_, ?_⟩⟩
  · intro money registry h hknown
    exact h.isStorable.restoredAs hformat hknown
  intro environment registry later money hlater hreadable
  have hrecords (record : MoneyRecord)
      (h : (record.toMoney registry).under environment.resolve.context = .ok money) :
      RestoredAs format later money money :=
    restoredAs_of_toMoney hformat hlater h hreadable
  refine ⟨hrecords, fun text htext => ?_⟩
  obtain ⟨record, -, hrecord⟩ := RecordFormat.load_eq_ok_iff.mp htext
  exact hrecords record hrecord

/-- Neither the strictest rounding mode nor the least scale keeps an amount from being restored, and
a JSON text with little more than a currency is loaded as an amount that is restored. -/
theorem storage_round_trip_at_least_scale :
    let usd : Currency := ⟨"USD", by decide⟩
    let least : Decimal := ⟨-105, -2147483648⟩
    let sparse := "\x7b\"number\": \" +1e3\", \"currency\": \"usd\"\x7d"
    RestoredAs .json .iso ⟨usd, least, ⟨3, .unnecessary, "FastMoney"⟩⟩
        ⟨usd, least, .money 3 .unnecessary⟩ ∧
      ∃ money : Money, money.number = ⟨1, -3⟩ ∧
        (load .iso sparse).under Environment.bare.resolve.context = .ok money ∧
        RestoredAs .json .iso money money := by
  intro usd least sparse
  obtain ⟨hreached, hread⟩ := storage_round_trip.2 .json storage_round_trip.1
  have hreachable : Reachable ⟨usd, least, ⟨3, .unnecessary, "FastMoney"⟩⟩ :=
    .of_fits (by decide +kernel) (by decide +kernel)
  have hloaded : (load .iso sparse).under Environment.bare.resolve.context =
      .ok ⟨usd, ⟨1, -3⟩, .money 16 .halfEven⟩ := by decide +kernel
  have htexts := (hread .bare .iso .iso ⟨usd, ⟨1, -3⟩, .money 16 .halfEven⟩
    (fun _ h => h) (by decide +kernel)).2
  exact ⟨hreached _ .iso hreachable (by decide +kernel), _, rfl, hloaded, htexts sparse hloaded⟩

end Money

end Monetary
