import UsingStyle.Proofs.Directive.Source
import UsingStyle.Proofs.Inspection.Registry
import Mathlib.Data.List.Forall2

/-! # Records of a source

The directives of a source stand at strictly increasing places, so each one with findings gets a
record of its own and the inspection never fails.
-/

namespace UsingStyle

/-- The directives with at least one finding, each with its findings. -/
def offending (key : SortKey) (ds : List Directive) : List (Directive × List Finding) :=
  (judged key ds).filter fun p => !p.2.isEmpty

/-- The record with all findings of a directive. -/
def Record.ofFindings (p : Directive × List Finding) : Record :=
  ⟨p.1.line.toNat, p.1.column.toNat, p.2.map Finding.message⟩

namespace Registry

/-- Behind the records `rs`, directives at increasing places get their records one by one. -/
theorem register_increasing {l : List (Directive × List Finding)}
    (hpos : ∀ p ∈ l, 0 ≤ p.1.line ∧ 0 ≤ p.1.column)
    (hplaces : l.Pairwise (fun p q => p.1.Precedes q.1)) {rs : List Record}
    (hbehind : ∀ p ∈ l, ∀ r ∈ rs, r.Before p.1.line.toNat p.1.column.toNat) :
    register ⟨rs⟩ l =
      .ok ⟨rs ++ (l.filter fun p => !p.2.isEmpty).map Record.ofFindings⟩ := by
  induction l generalizing rs with
  | nil => simp [register]
  | cons p l ih =>
      obtain ⟨d, fs⟩ := p
      obtain ⟨⟨hline, hcolumn⟩, hposl⟩ := List.forall_mem_cons.1 hpos
      obtain ⟨hd, hplacesl⟩ := List.pairwise_cons.1 hplaces
      obtain ⟨hrs, hrsl⟩ := List.forall_mem_cons.1 hbehind
      simp only [register, addFindings_behind hline hcolumn hrs, bind, Except.bind]
      rw [ih hposl hplacesl]
      · cases fs <;> simp [Record.ofFindings]
      · -- The new record, if any, stands at the place of `d`, before all that follow.
        intro q hq r hr
        rcases List.mem_append.1 hr with hold | hnew
        · exact hrsl q hq r hold
        · have hprec := hd q hq
          have hq0 := hposl q hq
          split at hnew
          · simp at hnew
          · cases List.mem_singleton.1 hnew
            unfold Directive.Precedes at hprec
            unfold Record.Before
            dsimp only at hprec hline hcolumn ⊢
            omega

end Registry

/-! ## Findings of a source -/

theorem map_fst_judgedAfter (key : SortKey) (before ds : List Directive) :
    (judgedAfter key before ds).map Prod.fst = ds := by
  induction ds generalizing before with
  | nil => rfl
  | cons d ds ih => simp [judgedAfter, ih]

theorem map_fst_judged (key : SortKey) (ds : List Directive) :
    (judged key ds).map Prod.fst = ds := by
  rw [judged_eq_judgedAfter, map_fst_judgedAfter]

theorem mem_of_mem_judged {key : SortKey} {ds : List Directive} {p : Directive × List Finding}
    (h : p ∈ judged key ds) : p.1 ∈ ds := by
  rw [← map_fst_judged key ds]
  exact List.mem_map_of_mem h

theorem exists_findingsAfter_of_mem_judged {key : SortKey} {ds : List Directive}
    {p : Directive × List Finding} (h : p ∈ judged key ds) :
    ∃ before, p.2 = p.1.findingsAfter key before := by
  obtain ⟨i, hi, rfl⟩ := List.mem_mapIdx.1 h
  exact ⟨ds.take i, rfl⟩

theorem pairwise_judged_scan (key : SortKey) (text : String) :
    (judged key (scan text)).Pairwise (fun p q => p.1.Precedes q.1) := by
  have h := pairwise_scan text
  rw [← map_fst_judged key (scan text)] at h
  exact List.pairwise_map.1 h

theorem length_findingsAfter_le (key : SortKey) (d : Directive) (before : List Directive) :
    (d.findingsAfter key before).length ≤ 3 := by
  have hle : ∀ o : Option Finding, o.toList.length ≤ 1 := by
    intro o
    cases o <;> simp
  have hmarking := hle (d.markingFinding? (Marking.ofTrivia? d.trailing))
  have hprecedence := hle (d.precedenceAfter before)
  have halphabetical := hle (d.alphabeticalAfter key before)
  simp only [Directive.findingsAfter, Directive.placeFindings, List.length_append]
  omega

theorem inspectText_eq (key : SortKey) (text : String) :
    inspectText key text = .ok ((offending key (scan text)).map Record.ofFindings) := by
  have hpos : ∀ p ∈ judged key (scan text), 0 ≤ p.1.line ∧ 0 ≤ p.1.column :=
    fun p hp => zero_le_of_mem_scan (mem_of_mem_judged hp)
  have hbehind : ∀ p ∈ judged key (scan text), ∀ r ∈ ([] : List Record),
      r.Before p.1.line.toNat p.1.column.toNat := by simp
  rw [inspectText, inspect_eq_register, Registry.empty,
    Registry.register_increasing hpos (pairwise_judged_scan key text) hbehind]
  rfl

/-- The inspection of a source succeeds, and its records are the directives with findings, one by
one and in source order: the record of a directive stands at its place and holds the messages of
its own findings, at least one and at most three. -/
theorem inspectText_records_match (key : SortKey) (text : String) :
    ∃ records, inspectText key text = .ok records ∧
      List.Forall₂ (fun (r : Record) (p : Directive × List Finding) =>
          (r.line : Int) = p.1.line ∧ (r.column : Int) = p.1.column ∧
            r.errors = p.2.map Finding.message)
        records (offending key (scan text)) ∧
      (∀ r ∈ records, 1 ≤ r.errors.length ∧ r.errors.length ≤ 3) ∧
      records.Pairwise (fun a b => a.line < b.line ∨ a.line = b.line ∧ a.column < b.column) := by
  refine ⟨_, inspectText_eq key text, ?_, ?_, ?_⟩
  · rw [List.forall₂_map_left_iff, List.forall₂_same]
    intro p hp
    have hp0 := zero_le_of_mem_scan (mem_of_mem_judged (List.mem_of_mem_filter hp))
    exact ⟨Int.toNat_of_nonneg hp0.1, Int.toNat_of_nonneg hp0.2, rfl⟩
  · intro r hr
    obtain ⟨p, hp, rfl⟩ := List.mem_map.1 hr
    obtain ⟨hjudged, hne⟩ := List.mem_filter.1 hp
    obtain ⟨before, hbefore⟩ := exists_findingsAfter_of_mem_judged hjudged
    have hle := length_findingsAfter_le key p.1 before
    have hpos : 0 < p.2.length := by simpa [List.length_pos_iff] using hne
    rw [← hbefore] at hle
    simp only [Record.ofFindings, List.length_map]
    exact ⟨hpos, hle⟩
  · rw [List.pairwise_map]
    refine ((pairwise_judged_scan key text).filter _).imp_of_mem fun {p q} hp hq h => ?_
    have hp0 := zero_le_of_mem_scan (mem_of_mem_judged (List.mem_of_mem_filter hp))
    have hq0 := zero_le_of_mem_scan (mem_of_mem_judged (List.mem_of_mem_filter hq))
    unfold Directive.Precedes at h
    dsimp only [Record.ofFindings]
    omega

end UsingStyle
