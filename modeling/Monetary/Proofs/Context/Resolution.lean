import Monetary.Proofs.Config.Precedence
import Monetary.Proofs.Context.Spelling

/-!
# The choice of the default context

What the settings choose is said here without regard to the order in which they are read. A setting
may be of no use: a rounding mode without a precision, and a width beside one. If every other text
can be read, the settings choose one context, and this is the default context; the settings of no
use need not be readable and change nothing. If some text of use cannot be read, the choice falls
back to `DECIMAL64`, as it does for a file that cannot be read. Only a fallback is reported as an
error.
-/

namespace Monetary

namespace Setting

/-- Whether a setting is of use: a rounding mode is beside a precision, a width without one. -/
def isUsed (textOf : Setting → Option String) : Setting → Bool
  | .precision => true
  | .roundingMode => (textOf .precision).isSome
  | .mathContext => (textOf .precision).isNone

/-- A text can be read as one of a setting: it tells a precision, or names a mode or a width. -/
def IsReadable : Setting → String → Prop
  | .precision, text => ∃ precision, Resolution.IsSpelling precision text
  | .roundingMode, text => ∃ mode : Rounding, mode.IsSpelling text
  | .mathContext, text => ∃ width : Width, width.IsSpelling text

end Setting

/-- Every text of use can be read. -/
def AllReadable (textOf : Setting → Option String) : Prop :=
  ∀ (setting : Setting) (text : String), setting.isUsed textOf = true →
    textOf setting = some text → setting.IsReadable text

/-- The context that the texts of the settings choose. -/
inductive Chooses (textOf : Setting → Option String) : Context → Prop where
  | precision {text : String} {precision : UInt32} (htext : textOf .precision = some text)
      (hprecision : Resolution.IsSpelling precision text)
      (hmode : textOf .roundingMode = none) : Chooses textOf (.money precision .halfUp)
  | precisionAndMode {text name : String} {precision : UInt32} {mode : Rounding}
      (htext : textOf .precision = some text)
      (hprecision : Resolution.IsSpelling precision text)
      (hname : textOf .roundingMode = some name) (hmode : mode.IsSpelling name) :
      Chooses textOf (.money precision mode)
  | width {name : String} {width : Width} (hprecision : textOf .precision = none)
      (hname : textOf .mathContext = some name) (hwidth : width.IsSpelling name) :
      Chooses textOf width.context
  | nothing (hprecision : textOf .precision = none) (hwidth : textOf .mathContext = none) :
      Chooses textOf Width.decimal64.context

/-- A chosen context is one for money. -/
theorem Chooses.amountType_eq {textOf : Setting → Option String} {context : Context}
    (h : Chooses textOf context) : context.amountType = Context.moneyType := by
  cases h <;> rfl

/-- A context is only chosen by settings that can be read, as far as they are of use. -/
theorem Chooses.allReadable {textOf : Setting → Option String} {context : Context}
    (h : Chooses textOf context) : AllReadable textOf := by
  intro setting text hused htext
  -- Of each setting the text is either read by the choice, or absent, or of no use.
  have hread {setting : Setting} {known : String} (hknown : textOf setting = some known)
      (hread : setting.IsReadable known) (htext : textOf setting = some text) :
      setting.IsReadable text := by
    rw [hknown] at htext
    cases htext
    exact hread
  cases h with
  | precision hprecision hparsed hunnamed =>
    cases setting with
    | precision => exact hread hprecision ⟨_, hparsed⟩ htext
    | roundingMode => simp [hunnamed] at htext
    | mathContext => simp [Setting.isUsed, hprecision] at hused
  | precisionAndMode hprecision hparsed hname hmode =>
    cases setting with
    | precision => exact hread hprecision ⟨_, hparsed⟩ htext
    | roundingMode => exact hread hname ⟨_, hmode⟩ htext
    | mathContext => simp [Setting.isUsed, hprecision] at hused
  | width hprecision hname hwidth =>
    cases setting with
    | precision => simp [hprecision] at htext
    | roundingMode => simp [Setting.isUsed, hprecision] at hused
    | mathContext => exact hread hname ⟨_, hwidth⟩ htext
  | nothing hprecision hwidth =>
    cases setting with
    | precision => simp [hprecision] at htext
    | roundingMode => simp [Setting.isUsed, hprecision] at hused
    | mathContext => simp [hwidth] at htext

namespace Resolution

variable {textOf : Setting → Option String}

/-- The rounding mode is half-up if none is named, or else the named one. -/
theorem readRounding_eq_ok_iff {name? : Option String} {mode : Rounding} :
    readRounding name? = .ok mode ↔ (name? = none ∧ mode = .halfUp) ∨
      ∃ name, name? = some name ∧ mode.IsSpelling name := by
  simp only [← Rounding.read_eq_ok_iff]
  cases name? with
  | none => simp [readRounding, eq_comm]
  | some name => cases h : Rounding.read name <;> simp [readRounding, h]

/-- A width is read exactly from the texts that name it. -/
theorem widthRead_eq_ok_iff {name : String} {width : Width} :
    Width.read name = .ok width ↔ width.IsSpelling name := by
  rw [← Width.read?_eq_some_iff, Width.read]
  cases Width.read? name <;> simp

/-- What the settings lead to is the context that they choose, and no error. -/
theorem chooses_of_ofSettings {resolution : Resolution} (h : ofSettings textOf = .ok resolution) :
    Chooses textOf resolution.context ∧ resolution.event.level = .info := by
  unfold ofSettings at h
  split at h
  · rename_i text htext
    obtain ⟨precision, hread, h⟩ := bind_eq_ok_iff.mp h
    obtain ⟨mode, hmode, h⟩ := bind_eq_ok_iff.mp h
    cases h
    have hspelling := readPrecision_eq_ok_iff.mp hread
    rcases readRounding_eq_ok_iff.mp hmode with ⟨hunnamed, rfl⟩ | ⟨name, hname, hmode⟩
    · exact ⟨.precision htext hspelling hunnamed, rfl⟩
    · exact ⟨.precisionAndMode htext hspelling hname hmode, rfl⟩
  · rename_i hprecision
    split at h
    · rename_i name hname
      obtain ⟨width, hread, h⟩ := bind_eq_ok_iff.mp h
      cases h
      exact ⟨.width hprecision hname (widthRead_eq_ok_iff.mp hread), rfl⟩
    · rename_i hwidth
      cases h
      exact ⟨.nothing hprecision hwidth, rfl⟩

/-- The settings lead to a choice exactly if every text of use can be read. -/
theorem exists_ofSettings_iff :
    (∃ resolution, ofSettings textOf = .ok resolution) ↔ AllReadable textOf := by
  constructor
  · rintro ⟨resolution, h⟩
    exact (chooses_of_ofSettings h).1.allReadable
  · intro h
    unfold ofSettings
    cases hprecision : textOf .precision with
    | some text =>
      obtain ⟨precision, hspelling⟩ := h .precision text rfl hprecision
      have hread := readPrecision_eq_ok_iff.mpr hspelling
      have hmode : ∃ mode, readRounding (textOf .roundingMode) = .ok mode := by
        cases hname : textOf .roundingMode with
        | none => exact ⟨_, rfl⟩
        | some name =>
          obtain ⟨mode, hmode⟩ := h .roundingMode name (by simp [Setting.isUsed, hprecision]) hname
          exact ⟨mode, readRounding_eq_ok_iff.mpr (.inr ⟨name, rfl, hmode⟩)⟩
      obtain ⟨mode, hmode⟩ := hmode
      exact ⟨custom precision mode,
        bind_eq_ok_iff.mpr ⟨precision, hread, bind_eq_ok_iff.mpr ⟨mode, hmode, rfl⟩⟩⟩
    | none =>
      cases hname : textOf .mathContext with
      | none => exact ⟨unconfigured, rfl⟩
      | some name =>
        obtain ⟨width, hread⟩ := h .mathContext name (by simp [Setting.isUsed, hprecision]) hname
        exact ⟨ofWidth width, bind_eq_ok_iff.mpr ⟨width, widthRead_eq_ok_iff.mpr hread, rfl⟩⟩

/-- The context that the settings choose is the one that they lead to. -/
theorem ofSettings_of_chooses {context : Context} (h : Chooses textOf context) :
    ∃ event, ofSettings textOf = .ok ⟨context, event⟩ := by
  unfold ofSettings
  cases h with
  | precision htext hspelling hunnamed =>
    rw [htext, hunnamed]
    exact ⟨_, bind_eq_ok_iff.mpr ⟨_, readPrecision_eq_ok_iff.mpr hspelling, rfl⟩⟩
  | precisionAndMode htext hspelling hname hmode =>
    rw [htext, hname]
    have hread := readPrecision_eq_ok_iff.mpr hspelling
    have hchosen := readRounding_eq_ok_iff.mpr (.inr ⟨_, rfl, hmode⟩)
    exact ⟨_, bind_eq_ok_iff.mpr ⟨_, hread, bind_eq_ok_iff.mpr ⟨_, hchosen, rfl⟩⟩⟩
  | width hprecision hname hread =>
    rw [hprecision, hname]
    exact ⟨_, bind_eq_ok_iff.mpr ⟨_, widthRead_eq_ok_iff.mpr hread, rfl⟩⟩
  | nothing hprecision hwidth =>
    rw [hprecision, hwidth]
    exact ⟨_, rfl⟩

/-- Only the settings of use count. -/
theorem ofSettings_congr {other : Setting → Option String}
    (h : ∀ setting : Setting, setting.isUsed textOf = true → textOf setting = other setting) :
    ofSettings textOf = ofSettings other := by
  unfold ofSettings
  rw [← h .precision rfl]
  cases hprecision : textOf .precision with
  | some text =>
    dsimp only
    rw [h .roundingMode (by simp [Setting.isUsed, hprecision])]
  | none =>
    dsimp only
    rw [h .mathContext (by simp [Setting.isUsed, hprecision])]

end Resolution

/-- Settings choose no more than one context. -/
theorem Chooses.unique {textOf : Setting → Option String} {context other : Context}
    (h : Chooses textOf context) (hother : Chooses textOf other) : context = other := by
  obtain ⟨event, hsettings⟩ := Resolution.ofSettings_of_chooses h
  obtain ⟨_, hothers⟩ := Resolution.ofSettings_of_chooses hother
  rw [hsettings] at hothers
  cases hothers
  rfl

namespace Environment

/-- A process with a readable file follows its settings, or falls back. -/
theorem resolve_of_entries {environment : Environment} {entries : List (String × String)}
    (h : environment.file.entries? = some entries) : environment.resolve =
      .orFallback (Resolution.ofSettings (environment.effective? entries)) := by
  obtain ⟨config, hload, hsettings⟩ := exists_load h
  rw [resolve, hload, ← hsettings]
  rfl

/-- A process whose file is not readable falls back. -/
theorem resolve_of_no_entries {environment : Environment}
    (h : environment.file.entries? = none) : ∃ error, environment.resolve = .fallback error := by
  obtain ⟨error, hload⟩ := exists_load_error h
  rw [resolve, hload]
  exact ⟨_, rfl⟩

/-- A process falls back if a text of use cannot be read. -/
theorem resolve_of_not_allReadable {environment : Environment}
    {entries : List (String × String)} (h : environment.file.entries? = some entries)
    (hunreadable : ¬ AllReadable (environment.effective? entries)) :
    ∃ error, environment.resolve = .fallback error := by
  rw [resolve_of_entries h]
  cases hsettings : Resolution.ofSettings (environment.effective? entries) with
  | error error => exact ⟨error, rfl⟩
  | ok resolution => exact absurd (Resolution.exists_ofSettings_iff.mp ⟨_, hsettings⟩) hunreadable

/-- A process has the context that its settings choose if every text of use can be read. -/
theorem chooses_of_allReadable {environment : Environment} {entries : List (String × String)}
    (h : environment.file.entries? = some entries)
    (hreadable : AllReadable (environment.effective? entries)) :
    Chooses (environment.effective? entries) environment.resolve.context ∧
      environment.resolve.event.level = .info := by
  obtain ⟨resolution, hsettings⟩ := Resolution.exists_ofSettings_iff.mpr hreadable
  rw [resolve_of_entries h, hsettings]
  exact Resolution.chooses_of_ofSettings hsettings

/-- Whatever the environment, the default context is one for money. -/
theorem amountType_resolve (environment : Environment) :
    environment.resolve.context.amountType = Context.moneyType := by
  cases hentries : environment.file.entries? with
  | none =>
    obtain ⟨error, hresolve⟩ := resolve_of_no_entries hentries
    rw [hresolve]
    rfl
  | some entries =>
    by_cases hreadable : AllReadable (environment.effective? entries)
    · exact (chooses_of_allReadable hentries hreadable).1.amountType_eq
    · obtain ⟨error, hresolve⟩ := resolve_of_not_allReadable hentries hreadable
      rw [hresolve]
      rfl

end Environment

end Monetary
