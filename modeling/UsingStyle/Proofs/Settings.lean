import UsingStyle.Proofs.Text.LineEnds
import UsingStyle.Settings

/-! # Invalid settings

Every setting is judged by itself: it is invalid if it has a value and the value is refused. Which
names of encodings are refused is a matter of the codecs, and what follows holds for any. Reading
the settings reports each invalid one once, in the order of their declaration, and gives no settings
then. What it says about a setting is on one line, whatever the refused value holds.
-/

namespace UsingStyle

open Untyped

/-! ## Problems of a checked value -/

namespace Untyped.Checked

variable {α β : Type}

/-- The problems of a value; none if it passes its check. -/
def problems : Checked α → List Problem
  | .ok _ => []
  | .error ps => ps

@[simp] theorem problems_ok (a : α) : problems (.ok a) = [] := rfl

@[simp] theorem problems_fail (cause : Cause) :
    problems (fail cause : Checked α) = [⟨[], cause⟩] := rfl

theorem problems_under (step : Step) (x : Checked α) :
    problems (under step x) = (problems x).map (Problem.under step) := by
  cases x <;> rfl

theorem problems_both (x : Checked α) (y : Checked β) :
    problems (both x y) = problems x ++ problems y := by
  cases x <;> cases y <;> simp [both, problems]

theorem problems_map (f : α → β) (x : Checked α) : problems (x.map f) = problems x := by
  cases x <;> rfl

theorem eq_error_of_problems {x : Checked α} (h : problems x ≠ []) : x = .error (problems x) := by
  cases x with
  | ok a => exact absurd rfl h
  | error ps => rfl

end Untyped.Checked

namespace Settings

/-! ## The settings one by one -/

/-- The settings. -/
inductive Field where
  | logLevel
  | workers
  | encoding
  | sortKey
  deriving DecidableEq, Repr

namespace Field

/-- All settings, in the order of their declaration. -/
def all : List Field :=
  [logLevel, workers, encoding, sortKey]

/-- The name of a setting. -/
def name : Field → String
  | logLevel => "log_level"
  | workers => "workers"
  | encoding => "encoding"
  | sortKey => "sort_key"

/-- Why a value of the setting is refused. -/
def refusal? (codecs : Codecs) (s : String) : Field → Option Cause
  | logLevel =>
    if (LogLevel.ofText? s).isNone then some (.refused ("Unknown log level: " ++ Text.literal s))
    else none
  | workers =>
    match integerOfText s with
    | .ok n => if n < 1 then some (.tooSmall 1) else none
    | .error .malformed => some .notIntegerText
    | .error .tooLong => some .integerTooLong
  | encoding =>
    if '\x00' ∈ s.toList then some (.refused "embedded null character")
    else if (codecs.lookup? s).isNone then
      some (.refused ("Unknown encoding: " ++ Text.literal s))
    else none
  | sortKey => if s = "name" ∨ s = "alias" then none else some .notSortKey

/-- What is wrong with the setting, if it has a value and the value is refused. -/
def cause? (codecs : Codecs) (sources : Sources) (f : Field) : Option Cause :=
  (sources.value? f.name).bind fun s => f.refusal? codecs s

/-- The setting and what is wrong with it. -/
def entry (f : Field) (cause : Cause) : String :=
  f.name ++ ": " ++ cause.message

/-- The problem of the setting. -/
def problem (f : Field) (cause : Cause) : Problem :=
  ⟨[.field f.name], cause⟩

end Field

/-- The invalid settings with what is wrong with each, in the order of their declaration. -/
def invalid (codecs : Codecs) (sources : Sources) : List (Field × Cause) :=
  Field.all.filterMap fun f => (f.cause? codecs sources).map fun cause => (f, cause)

theorem mem_invalid_iff {codecs : Codecs} {sources : Sources} {f : Field} {cause : Cause} :
    (f, cause) ∈ invalid codecs sources ↔ f.cause? codecs sources = some cause := by
  have hall : f ∈ Field.all := by cases f <;> decide
  simp [invalid, hall]

theorem invalid_ne_nil_iff {codecs : Codecs} {sources : Sources} :
    invalid codecs sources ≠ [] ↔ ∃ f cause, Field.cause? codecs sources f = some cause := by
  constructor
  · intro h
    obtain ⟨⟨f, cause⟩, hmem⟩ := List.exists_mem_of_ne_nil _ h
    exact ⟨f, cause, mem_invalid_iff.1 hmem⟩
  · rintro ⟨f, cause, hcause⟩
    exact List.ne_nil_of_mem (mem_invalid_iff.2 hcause)

theorem fst_invalid (codecs : Codecs) (sources : Sources) :
    (invalid codecs sources).map Prod.fst =
      Field.all.filter fun f => (f.cause? codecs sources).isSome := by
  rw [invalid, List.map_filterMap, ← List.filterMap_eq_filter]
  congr 1
  funext f
  cases h : f.cause? codecs sources <;> simp [Option.guard, h]

/-- The environment comes before the settings file. -/
theorem value?_of_environment {sources : Sources} {setting value : String}
    (h : valueIn? (sources.environment.map fun v => (v.1, some v.2)) setting = some value) :
    sources.value? setting = some value := by
  rw [Sources.value?, h]
  rfl

/-! ## Checks and refusals -/

theorem problems_checkLogLevel (codecs : Codecs) (s : String) :
    (checkLogLevel s).problems =
      (Field.logLevel.refusal? codecs s).toList.map fun cause => ⟨[], cause⟩ := by
  unfold checkLogLevel Field.refusal?
  cases h : LogLevel.ofText? s <;> simp

theorem problems_checkWorkers (codecs : Codecs) (s : String) :
    (integerText 1 s).problems =
      (Field.workers.refusal? codecs s).toList.map fun cause => ⟨[], cause⟩ := by
  unfold integerText Field.refusal? atLeast
  rcases h : integerOfText s with (_ | _) | n
  · simp
  · simp
  · by_cases hn : n < 1 <;> simp [hn]

theorem problems_checkEncoding (codecs : Codecs) (s : String) :
    (checkEncoding codecs s).problems =
      (Field.encoding.refusal? codecs s).toList.map fun cause => ⟨[], cause⟩ := by
  unfold checkEncoding Field.refusal?
  by_cases hnull : '\x00' ∈ s.toList
  · simp [hnull]
  · cases hlookup : codecs.lookup? s <;> simp [hnull]

theorem problems_checkSortKey (codecs : Codecs) (s : String) :
    (checkSortKey s).problems =
      (Field.sortKey.refusal? codecs s).toList.map fun cause => ⟨[], cause⟩ := by
  unfold checkSortKey Field.refusal? SortKey.ofWord chooseByWord
  by_cases hname : s = "name"
  · subst hname
    rfl
  · by_cases halias : s = "alias"
    · subst halias
      rfl
    · simp [SortKey.word, hname, halias, Ne.symm hname, Ne.symm halias]

/-- A setting has the problem that its value is refused for. -/
theorem problems_setting {α : Type} {codecs : Codecs} (sources : Sources) (f : Field) (absent : α)
    {check : String → Checked α}
    (h : ∀ s, (check s).problems = (f.refusal? codecs s).toList.map fun cause => ⟨[], cause⟩) :
    (setting sources f.name absent check).problems =
      (f.cause? codecs sources).toList.map f.problem := by
  unfold setting Field.cause?
  cases sources.value? f.name with
  | none => rfl
  | some s =>
      simp only [Checked.problems_under, h, List.map_map, Option.bind_some]
      rfl

theorem map_problem_invalid (codecs : Codecs) (sources : Sources) :
    ((invalid codecs sources).map fun p => p.1.problem p.2) =
      Field.all.flatMap fun f => (f.cause? codecs sources).toList.map f.problem := by
  rw [invalid, List.map_filterMap, List.filterMap_eq_flatMap_toList]
  congr 1
  funext f
  cases f.cause? codecs sources <;> rfl

/-- The problems of all settings are those of the invalid ones. -/
theorem problems_read (codecs : Codecs) (sources : Sources) :
    (read codecs sources).problems = (invalid codecs sources).map fun p => p.1.problem p.2 := by
  have hparts : (read codecs sources).problems =
      (setting sources Field.logLevel.name default.logLevel checkLogLevel).problems ++
        ((setting sources Field.workers.name default.workers (integerText 1)).problems ++
          ((setting sources Field.encoding.name default.encoding
              (checkEncoding codecs)).problems ++
            (setting sources Field.sortKey.name default.sortKey checkSortKey).problems)) := by
    rw [read, Checked.problems_map, Checked.problems_both, Checked.problems_both,
      Checked.problems_both]
    rfl
  rw [hparts, problems_setting sources .logLevel _ (problems_checkLogLevel codecs),
    problems_setting sources .workers _ (problems_checkWorkers codecs),
    problems_setting sources .encoding _ (problems_checkEncoding codecs),
    problems_setting sources .sortKey _ (problems_checkSortKey codecs), map_problem_invalid]
  simp [Field.all]

theorem read_of_invalid {codecs : Codecs} {sources : Sources} (h : invalid codecs sources ≠ []) :
    read codecs sources = .error ((invalid codecs sources).map fun p => p.1.problem p.2) := by
  rw [← problems_read]
  apply Checked.eq_error_of_problems
  rw [problems_read]
  simpa using h

/-! ## What is said about invalid settings -/

/-- What is said about a refused value has no line end. -/
theorem unbroken_of_refusal? {codecs : Codecs} {f : Field} {s : String} {cause : Cause}
    (h : f.refusal? codecs s = some cause) : Text.Unbroken cause.message := by
  have hshown : ∀ {said shown : String}, Text.Unbroken said → Text.Unbroken shown →
      Text.Unbroken (Cause.refused (said ++ shown)).message := by
    intro said shown hsaid hvalue
    exact Text.unbroken_append_iff.2
      ⟨Text.unbroken_ofList (by decide), Text.unbroken_append_iff.2 ⟨hsaid, hvalue⟩⟩
  cases f with
  | logLevel =>
      rw [Field.refusal?, Option.ite_none_right_eq_some] at h
      obtain ⟨-, ⟨⟩⟩ := h
      exact hshown (Text.unbroken_ofList (by decide)) (Text.unbroken_literal s)
  | workers =>
      rw [Field.refusal?] at h
      split at h
      · obtain ⟨-, ⟨⟩⟩ := Option.ite_none_right_eq_some.1 h
        exact Text.unbroken_append_iff.2
          ⟨Text.unbroken_ofList (by decide), Text.unbroken_integer 1⟩
      · cases h
        exact Text.unbroken_ofList (by decide)
      · cases h
        exact Text.unbroken_ofList (by decide)
  | encoding =>
      rw [Field.refusal?] at h
      split at h
      · cases h
        exact Text.unbroken_append_iff.2
          ⟨Text.unbroken_ofList (by decide), Text.unbroken_ofList (by decide)⟩
      · obtain ⟨-, ⟨⟩⟩ := Option.ite_none_right_eq_some.1 h
        exact hshown (Text.unbroken_ofList (by decide)) (Text.unbroken_literal s)
  | sortKey =>
      obtain ⟨-, ⟨⟩⟩ := Option.ite_none_left_eq_some.1 h
      exact Text.unbroken_ofList (by decide)

theorem unbroken_entry {codecs : Codecs} {sources : Sources} {f : Field} {cause : Cause}
    (h : (f, cause) ∈ invalid codecs sources) : Text.Unbroken (f.entry cause) := by
  obtain ⟨s, -, hrefusal⟩ := Option.bind_eq_some_iff.1 (mem_invalid_iff.1 h)
  have hname : Text.Unbroken f.name := by
    cases f <;> exact Text.unbroken_ofList (by decide)
  have hcolon : Text.Unbroken ": " := Text.unbroken_ofList (by decide)
  exact Text.unbroken_append_iff.2
    ⟨Text.unbroken_append_iff.2 ⟨hname, hcolon⟩, unbroken_of_refusal? hrefusal⟩

end Settings
end UsingStyle
