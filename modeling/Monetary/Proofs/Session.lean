import Monetary.Proofs.Context.Resolution
import Monetary.Session

/-!
# The default context in the course of a process

Every call leaves the environment of a process as it is, and only a call that asks for the default
context chooses it. So the session knows no default context until the first such call, and from
then on always the one that the environment leads to. This is the invariant of a run: every answer
is given under the same context, and its choice is reported once.
-/

namespace Monetary

namespace Session

/-- A call that concerns what a process knows in common. -/
inductive Call : Type 1 where
  | askContext
  /-- An operation whose answer may depend on the default context. -/
  | settle {α : Type} (answer : Contextual α)
  | register (text : String)

/-- Whether a call asks for the default context. -/
def Call.asks : Call → Bool
  | .askContext => true
  | .settle (.known _) => false
  | .settle (.byDefault _) => true
  | .register _ => false

/-- A process after a call. -/
def after (session : Session) : Call → Session
  | .askContext => session.defaultContext.2.2
  | .settle answer => (session.settle answer).2
  | .register text => (session.register text).2.2

/-- A process after some calls. -/
def run (session : Session) (calls : List Call) : Session :=
  calls.foldl after session

/-- Registering a currency only changes the registry of a process. -/
theorem register_after (session : Session) (text : String) :
    (session.register text).2.2 =
      { session with registry := (session.registry.register text).2.1 } := by
  unfold register
  rcases session.registry.register text with ⟨answer, registry, events⟩
  rfl

/-- A process in an environment, before or after its default context is asked for. -/
structure InCourse (environment : Environment) (asked : Bool) (session : Session) : Prop where
  environment_eq : session.environment = environment
  chosen?_eq : session.chosen? = if asked then some environment.resolve.context else none

namespace InCourse

variable {environment : Environment} {asked : Bool} {session : Session}

/-- The default context is that of the environment, and is reported when it is first asked for. -/
theorem defaultContext_eq (h : InCourse environment asked session) :
    session.defaultContext =
      (environment.resolve.context, if asked then [] else [environment.resolve.event],
        { session with chosen? := some environment.resolve.context }) := by
  obtain ⟨registry, started, chosen?⟩ := session
  obtain ⟨rfl, hchosen⟩ := h
  cases asked with
  | false =>
    obtain rfl : chosen? = none := hchosen
    rfl
  | true =>
    obtain rfl : chosen? = some started.resolve.context := hchosen
    rfl

/-- An answer is given under the context of the environment. -/
theorem settle_fst {α : Type} (h : InCourse environment asked session) (answer : Contextual α) :
    (session.settle answer).1 = answer.under environment.resolve.context := by
  cases answer with
  | known answer => rfl
  | byDefault answerUnder =>
    rw [settle, h.defaultContext_eq]
    rfl

/-- A process that has been asked for its default context. -/
theorem afterDefault (h : InCourse environment asked session) :
    InCourse environment true session.defaultContext.2.2 := by
  rw [h.defaultContext_eq]
  exact ⟨h.environment_eq, rfl⟩

/-- A call leaves a process in its environment, and has the default context chosen if it asks for
it. -/
theorem after (h : InCourse environment asked session) (call : Call) :
    InCourse environment (asked || call.asks) (session.after call) := by
  cases call with
  | askContext =>
    rw [Call.asks, Bool.or_true]
    exact h.afterDefault
  | settle answer =>
    cases answer with
    | known answer =>
      rw [Call.asks, Bool.or_false]
      exact h
    | byDefault answerUnder =>
      rw [Call.asks, Bool.or_true]
      exact h.afterDefault
  | register text =>
    rw [Call.asks, Bool.or_false, Session.after, register_after]
    exact ⟨h.environment_eq, h.chosen?_eq⟩

/-- Calls leave a process in its environment, and have the default context chosen if one of them
asks for it. -/
theorem run (h : InCourse environment asked session) (calls : List Call) :
    InCourse environment (asked || calls.any Call.asks) (session.run calls) := by
  induction calls generalizing asked session with
  | nil =>
    rw [List.any_nil, Bool.or_false]
    exact h
  | cons call calls ih =>
    rw [List.any_cons, ← Bool.or_assoc]
    exact ih (h.after call)

end InCourse

/-- A process that has just started was not asked for its default context. -/
theorem inCourse_start (environment : Environment) :
    InCourse environment false (start environment) :=
  ⟨rfl, rfl⟩

/-- A process with a readable file is under the context that its settings choose by the texts that
count for them, and under `DECIMAL64` if one of these cannot be read or the file cannot be. Only
then is an error reported, once, with the first call that asks for the context. -/
theorem default_context_layered (environment : Environment) :
    (environment.file.entries? = none →
      environment.resolve.context = Width.decimal64.context ∧
        environment.resolve.event.level = .error) ∧
    (∀ entries, environment.file.entries? = some entries →
      let textOf := environment.effective? entries
      (AllReadable textOf →
        Chooses textOf environment.resolve.context ∧ environment.resolve.event.level = .info) ∧
      (¬ AllReadable textOf →
        environment.resolve.context = Width.decimal64.context ∧
          environment.resolve.event.level = .error) ∧
      ∀ (other : Environment) (others : List (String × String)),
        other.file.entries? = some others →
        (∀ setting : Setting, setting.isUsed textOf = true →
          textOf setting = other.effective? others setting) →
        other.resolve = environment.resolve) ∧
    ∀ calls : List Call,
      let session := (start environment).run calls
      session.defaultContext.1 = environment.resolve.context ∧
        session.defaultContext.2.1 =
          (if calls.any Call.asks then [] else [environment.resolve.event]) ∧
        ∀ (α : Type) (answer : Contextual α),
          (session.settle answer).1 = answer.under environment.resolve.context := by
  refine ⟨fun hentries => ?_, fun entries hentries => ⟨?_, ?_, ?_⟩, fun calls => ?_⟩
  · obtain ⟨error, hresolve⟩ := Environment.resolve_of_no_entries hentries
    rw [hresolve]
    exact ⟨rfl, rfl⟩
  · exact Environment.chooses_of_allReadable hentries
  · intro hunreadable
    obtain ⟨error, hresolve⟩ := Environment.resolve_of_not_allReadable hentries hunreadable
    rw [hresolve]
    exact ⟨rfl, rfl⟩
  · intro other others hothers hsame
    rw [Environment.resolve_of_entries hentries, Environment.resolve_of_entries hothers,
      Resolution.ofSettings_congr hsame]
  · have hcourse := (inCourse_start environment).run calls
    rw [Bool.false_or] at hcourse
    refine ⟨?_, ?_, fun α answer => hcourse.settle_fst answer⟩
    · rw [hcourse.defaultContext_eq]
    · rw [hcourse.defaultContext_eq]

/-- The precision of the environment counts, though the file gives one under the short key and one
under the long key; its rounding mode is no text and as good as none, so that the one in the file
under the long key counts, and what it says of a width is of no use. The choice is reported by the
second of these calls, and not again after it. Where the environment says nothing, the last
precision under the short key counts, though the one under the long key stands below it, and the
rounding mode as before. A width counts without a precision, and a file with a line that is no entry
for nothing, whatever the environment says. -/
theorem default_context_layered_over_file :
    let text := "money.defaults.precision = 5\n! note\nmoney.defaults.precision: 6\n" ++
      "org.javamoney.moneta.Money.defaults.precision = 9\n" ++
      "org.javamoney.moneta.Money.defaults.roundingMode = round_down"
    let file := ConfigFile.readable "money.properties" text.toUTF8
    let environment : Environment := {
      file
      bytesOf := fun setting => match setting with
        | .precision => some " +7".toUTF8
        | .roundingMode => some ⟨#[255]⟩
        | .mathContext => some "wide".toUTF8 }
    let silent : Environment := { file, bytesOf := fun _ => none }
    let narrow : Environment := {
      file := .readable "money.properties" "money.defaults.mathContext = Decimal32".toUTF8
      bytesOf := fun _ => none }
    let broken : Environment := {
      environment with file := .readable "money.properties" "money.defaults.precision".toUTF8 }
    environment.resolve.context = .money 7 .down ∧ environment.resolve.event.level = .info ∧
      ((start environment).run [.register "ABC", .askContext]).defaultContext.2.1 = [] ∧
      silent.resolve.context = .money 6 .down ∧ narrow.resolve.context = .money 7 .halfEven ∧
      broken.resolve.context = .money 16 .halfEven ∧ broken.resolve.event.level = .error := by
  intro text file environment silent narrow broken
  let entries := [("money.defaults.precision", "5"), ("money.defaults.precision", "6"),
    ("org.javamoney.moneta.Money.defaults.precision", "9"),
    ("org.javamoney.moneta.Money.defaults.roundingMode", "round_down")]
  have hentries : file.entries? = some entries := by decide +kernel
  have hoverridden : environment.effective? entries .precision = some " +7" := by decide +kernel
  have hlast : silent.effective? entries .precision = some "6" := by decide +kernel
  have hnoText : environment.effective? entries .roundingMode = some "round_down" := by
    decide +kernel
  have hlong : silent.effective? entries .roundingMode = some "round_down" := by decide +kernel
  have hseven : Resolution.IsSpelling 7 " +7" :=
    Resolution.readPrecision_eq_ok_iff.mp (by decide +kernel)
  have hsix : Resolution.IsSpelling 6 "6" :=
    Resolution.readPrecision_eq_ok_iff.mp (by decide +kernel)
  have hdown : Rounding.down.IsSpelling "round_down" :=
    Rounding.read_eq_ok_iff.mp (by decide +kernel)
  have hchooses : Chooses (environment.effective? entries) (.money 7 .down) :=
    .precisionAndMode hoverridden hseven hnoText hdown
  have hchoosesLast : Chooses (silent.effective? entries) (.money 6 .down) :=
    .precisionAndMode hlast hsix hlong hdown
  let widths := [("money.defaults.mathContext", "Decimal32")]
  have hwidths : narrow.file.entries? = some widths := by decide +kernel
  have hnoPrecision : narrow.effective? widths .precision = none := by decide +kernel
  have hname : narrow.effective? widths .mathContext = some "Decimal32" := by decide +kernel
  have hwidth : Width.decimal32.IsSpelling "Decimal32" :=
    Width.read?_eq_some_iff.mp (by decide +kernel)
  have hchoosesWidth : Chooses (narrow.effective? widths) (.money 7 .halfEven) :=
    .width hnoPrecision hname hwidth
  have hbroken : broken.file.entries? = none := by decide +kernel
  obtain ⟨-, hreadable, hcourse⟩ := default_context_layered environment
  obtain ⟨-, hreadableLast, -⟩ := default_context_layered silent
  obtain ⟨-, hreadableWidth, -⟩ := default_context_layered narrow
  obtain ⟨hfallback, -, -⟩ := default_context_layered broken
  obtain ⟨hresolve, hlevel⟩ := (hreadable entries hentries).1 hchooses.allReadable
  obtain ⟨hresolveLast, -⟩ := (hreadableLast entries hentries).1 hchoosesLast.allReadable
  obtain ⟨hresolveWidth, -⟩ := (hreadableWidth widths hwidths).1 hchoosesWidth.allReadable
  exact ⟨hresolve.unique hchooses, hlevel, (hcourse [.register "ABC", .askContext]).2.1,
    hresolveLast.unique hchoosesLast, hresolveWidth.unique hchoosesWidth, hfallback hbroken⟩

end Session

end Monetary
