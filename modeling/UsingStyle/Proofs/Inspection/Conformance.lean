import UsingStyle.Proofs.Inspection.Registry
import Mathlib.Data.List.Induction

/-! # Conforming lists of directives

A list conforms when it is a sorted block of aliased directives followed by a block of directives
without alias, and when every marking fits its directive. An inspection compares neighbours only,
and also goes on behind a directive that does not fit. That it finds nothing exactly in the
conforming lists rests on two facts about each place: a directive fits behind the last ones of a
conforming list if and only if it fits behind all of them.
-/

namespace UsingStyle

/-- The text that aliased directives are sorted by. -/
def Directive.sortText (key : SortKey) (d : Directive) : String :=
  match key with
  | .name => d.name
  | .aliasName => d.aliasName.getD ""

/-- The marking that the shape of the directive asks for. -/
def Directive.FitsMarking (d : Directive) (marking : Option Marking) : Prop :=
  match d.aliasName with
  | none => marking.map Marking.kind = some .cantAlias
  | some a =>
    if a = d.terminalName then marking = none else marking.map Marking.kind = some .renamed

/-- A sorted block of aliased directives, then a block of directives without alias, all of them
marked as they should be. Texts are compared by code points. -/
def Conforms (key : SortKey) (ds : List Directive) : Prop :=
  ∃ aliased nonAliased, ds = aliased ++ nonAliased ∧
    (∀ d ∈ aliased, d.isAliased = true) ∧ (∀ d ∈ nonAliased, d.isAliased = false) ∧
    aliased.Pairwise (fun a b => a.sortText key ≤ b.sortText key) ∧
    ∀ d ∈ ds, d.FitsMarking (Marking.ofTrivia? d.trailing)

/-! ## Markings -/

theorem markingFinding?_eq_none_iff (d : Directive) (marking : Option Marking) :
    d.markingFinding? marking = none ↔ d.FitsMarking marking := by
  unfold Directive.markingFinding? Directive.shape Directive.FitsMarking
  cases d.aliasName with
  | none =>
      cases marking with
      | none => simp
      | some m =>
          obtain ⟨kind, text⟩ := m
          cases kind <;> simp
  | some a =>
      by_cases ha : a = d.terminalName
      · cases marking with
        | none => simp [ha]
        | some m =>
            obtain ⟨kind, text⟩ := m
            cases kind <;> simp [ha]
      · cases marking with
        | none => simp [ha]
        | some m =>
            obtain ⟨kind, text⟩ := m
            cases kind <;> simp [ha]

/-! ## Places -/

/-- `b` may stand anywhere behind `a`. -/
def Directive.MayPrecede (key : SortKey) (a b : Directive) : Prop :=
  b.isAliased = true → a.isAliased = true ∧ a.sortText key ≤ b.sortText key

theorem lastNonAliased_eq_none_iff (before : List Directive) :
    lastNonAliased before = none ↔ ∀ p ∈ before, p.isAliased = true := by
  simp [lastNonAliased]

theorem precedenceAfter_eq_none_iff (d : Directive) (before : List Directive) :
    d.precedenceAfter before = none ↔
      (d.isAliased = true → ∀ p ∈ before, p.isAliased = true) := by
  rw [← lastNonAliased_eq_none_iff]
  cases h : d.isAliased <;> simp [Directive.precedenceAfter, h]

theorem aliasName_of_lastAliased {before : List Directive} {p : Directive × String}
    (h : lastAliased before = some p) : p.1.aliasName = some p.2 := by
  obtain ⟨q, _, hq⟩ := List.exists_of_findSome?_eq_some h
  obtain ⟨a, ha, rfl⟩ := Option.map_eq_some_iff.1 hq
  exact ha

theorem ite_some_eq_none {α : Type} {c : Prop} [Decidable c] {x : α} :
    (if c then some x else none) = none ↔ ¬ c := by
  split <;> simp [*]

theorem alphabeticalAfter_eq_none_iff_of_some {key : SortKey} {d : Directive} {a : String}
    {before : List Directive} {p : Directive × String} (hd : d.aliasName = some a)
    (hl : lastAliased before = some p) :
    d.alphabeticalAfter key before = none ↔ p.1.sortText key ≤ d.sortText key := by
  have hp := aliasName_of_lastAliased hl
  cases key with
  | name =>
      simp only [Directive.alphabeticalAfter, hd, hl, Directive.sortText, ite_some_eq_none]
      exact Std.not_lt
  | aliasName =>
      simp only [Directive.alphabeticalAfter, hd, hl, hp, Directive.sortText, ite_some_eq_none,
        Option.getD_some]
      exact Std.not_lt

theorem alphabeticalAfter_eq_none_iff (key : SortKey) (d : Directive) (before : List Directive) :
    d.alphabeticalAfter key before = none ↔
      (d.isAliased = true → ∀ p, lastAliased before = some p →
        p.1.sortText key ≤ d.sortText key) := by
  cases hd : d.aliasName with
  | none => cases key <;> simp [Directive.alphabeticalAfter, Directive.isAliased, hd]
  | some a =>
      cases hl : lastAliased before with
      | none => cases key <;> simp [Directive.alphabeticalAfter, hd, hl]
      | some p =>
          rw [alphabeticalAfter_eq_none_iff_of_some hd hl]
          constructor
          · rintro hle - q hq
            cases hq
            exact hle
          · intro h
            exact h (by simp [Directive.isAliased, hd]) p rfl

/-- In a list where every directive may stand behind all earlier ones, the last one has the
greatest key. -/
theorem sortText_le_lastAliased {key : SortKey} {before : List Directive}
    (hsorted : before.Pairwise (Directive.MayPrecede key))
    (hall : ∀ p ∈ before, p.isAliased = true) {a : Directive} (ha : a ∈ before) :
    ∃ p, lastAliased before = some p ∧ a.sortText key ≤ p.1.sortText key := by
  obtain ⟨front, last, rfl⟩ := List.eq_nil_or_concat before |>.resolve_left (List.ne_nil_of_mem ha)
  rw [List.concat_eq_append] at *
  obtain ⟨b, hb⟩ := Option.isSome_iff_exists.1 (hall last (by simp))
  refine ⟨(last, b), by simp [lastAliased_concat, hb], ?_⟩
  obtain ⟨_, _, hcross⟩ := List.pairwise_append.1 hsorted
  rcases List.mem_append.1 ha with hfront | hlast
  · exact (hcross a hfront last (by simp) (hall last (by simp))).2
  · cases List.mem_singleton.1 hlast
    exact Std.le_refl _

/-- The two remembered directives decide as much as all directives before. -/
theorem placeFindings_eq_nil_iff {key : SortKey} {before : List Directive}
    (hsorted : before.Pairwise (Directive.MayPrecede key)) (d : Directive) :
    d.placeFindings key before = [] ↔ ∀ a ∈ before, a.MayPrecede key d := by
  rw [Directive.placeFindings, List.append_eq_nil_iff, Option.toList_eq_nil_iff,
    Option.toList_eq_nil_iff, precedenceAfter_eq_none_iff, alphabeticalAfter_eq_none_iff]
  constructor
  · rintro ⟨hblock, hlast⟩ a ha hd
    obtain ⟨p, hp, hle⟩ := sortText_le_lastAliased hsorted (hblock hd) ha
    exact ⟨hblock hd a ha, Std.le_trans hle (hlast hd p hp)⟩
  · intro h
    refine ⟨fun hd a ha => (h a ha hd).1, fun hd p hp => ?_⟩
    have hmem : p.1 ∈ before := by
      obtain ⟨q, hq, hqp⟩ := List.exists_of_findSome?_eq_some hp
      obtain ⟨_, _, rfl⟩ := Option.map_eq_some_iff.1 hqp
      exact List.mem_reverse.1 hq
    exact (h p.1 hmem hd).2

/-! ## Whole lists -/

theorem exists_blocks_of_pairwise {key : SortKey} {ds : List Directive}
    (h : ds.Pairwise (Directive.MayPrecede key)) :
    ∃ aliased nonAliased, ds = aliased ++ nonAliased ∧
      (∀ d ∈ aliased, d.isAliased = true) ∧ (∀ d ∈ nonAliased, d.isAliased = false) ∧
      aliased.Pairwise (fun a b => a.sortText key ≤ b.sortText key) := by
  induction ds with
  | nil => exact ⟨[], [], rfl, by simp, by simp, .nil⟩
  | cons d ds ih =>
      obtain ⟨hd, hds⟩ := List.pairwise_cons.1 h
      cases hkind : d.isAliased with
      | true =>
          obtain ⟨aliased, nonAliased, rfl, haliased, hnon, hsorted⟩ := ih hds
          refine ⟨d :: aliased, nonAliased, rfl, ?_, hnon, ?_⟩
          · exact List.forall_mem_cons.2 ⟨hkind, haliased⟩
          · refine List.pairwise_cons.2 ⟨fun b hb => ?_, hsorted⟩
            exact (hd b (List.mem_append_left _ hb) (haliased b hb)).2
      | false =>
          -- Behind a directive without alias nothing is aliased, so the first block is empty.
          refine ⟨[], d :: ds, rfl, by simp, List.forall_mem_cons.2 ⟨hkind, fun b hb => ?_⟩, .nil⟩
          cases hb' : b.isAliased with
          | false => rfl
          | true => simpa [hkind] using (hd b hb hb').1

theorem conforms_iff_pairwise (key : SortKey) (ds : List Directive) :
    Conforms key ds ↔ ds.Pairwise (Directive.MayPrecede key) ∧
      ∀ d ∈ ds, d.FitsMarking (Marking.ofTrivia? d.trailing) := by
  constructor
  · rintro ⟨aliased, nonAliased, rfl, haliased, hnon, hsorted, hmarked⟩
    have hfirst : ∀ (a : Directive), ∀ b ∈ nonAliased, a.MayPrecede key b := by
      intro a b hb hba
      simp [hnon b hb] at hba
    refine ⟨List.pairwise_append.2 ⟨?_, ?_, fun a _ b hb => hfirst a b hb⟩, hmarked⟩
    · exact hsorted.imp_of_mem fun ha _ hle _ => ⟨haliased _ ha, hle⟩
    · exact List.pairwise_of_forall_mem_list fun a _ b hb => hfirst a b hb
  · rintro ⟨hpair, hmarked⟩
    obtain ⟨aliased, nonAliased, hds, haliased, hnon, hsorted⟩ := exists_blocks_of_pairwise hpair
    exact ⟨aliased, nonAliased, hds, haliased, hnon, hsorted, hmarked⟩

theorem findingsAfter_eq_nil_iff {key : SortKey} {before : List Directive}
    (hsorted : before.Pairwise (Directive.MayPrecede key)) (d : Directive) :
    d.findingsAfter key before = [] ↔
      d.FitsMarking (Marking.ofTrivia? d.trailing) ∧ ∀ a ∈ before, a.MayPrecede key d := by
  rw [Directive.findingsAfter, List.append_eq_nil_iff, Option.toList_eq_nil_iff,
    markingFinding?_eq_none_iff, placeFindings_eq_nil_iff hsorted]

/-- Nothing is found in a list exactly when it conforms. The induction adds directives at the end,
since a directive is judged by those before it. -/
theorem judged_forall_nil_iff (key : SortKey) (ds : List Directive) :
    (∀ p ∈ judged key ds, p.2 = []) ↔ Conforms key ds := by
  rw [conforms_iff_pairwise]
  induction ds using List.reverseRecOn with
  | nil => simp [judged]
  | append_singleton ds d ih =>
      simp only [judged_concat, List.forall_mem_append, List.forall_mem_singleton, ih,
        List.pairwise_append, List.pairwise_singleton, true_and]
      constructor
      · rintro ⟨⟨hpair, hmarked⟩, hnil⟩
        obtain ⟨hfits, hcross⟩ := (findingsAfter_eq_nil_iff hpair d).1 hnil
        exact ⟨⟨hpair, hcross⟩, hmarked, hfits⟩
      · rintro ⟨⟨hpair, hcross⟩, hmarked, hfits⟩
        exact ⟨⟨hpair, hmarked⟩, (findingsAfter_eq_nil_iff hpair d).2 ⟨hfits, hcross⟩⟩

theorem inspect_eq_nil_iff (key : SortKey) (ds : List Directive) :
    inspect key ds = .ok [] ↔ ∀ p ∈ judged key ds, p.2 = [] := by
  rw [inspect_eq_register]
  exact Registry.register_empty_records_eq_nil

/-- An inspection has no record to return exactly for the conforming lists. This also holds of
directives that are given as data, at any integer places. -/
theorem inspect_eq_nil_iff_conforms (key : SortKey) (ds : List Directive) :
    (inspect key ds = .ok [] ↔ Conforms key ds) ∧
      (inspectGiven key ds = .ok [] ↔ Conforms key ds) := by
  rw [← judged_forall_nil_iff, ← inspect_eq_nil_iff]
  refine ⟨Iff.rfl, inspect_of_inspectGiven, fun h => ?_⟩
  -- No finding, so none that could not be printed.
  have hnil := (inspect_eq_nil_iff key ds).1 h
  rw [inspectGiven_eq_inspect fun p hp f hf => by simp [hnil p hp] at hf]
  exact h

end UsingStyle
