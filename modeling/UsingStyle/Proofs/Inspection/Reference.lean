import UsingStyle.Proofs.Inspection.Places
import UsingStyle.Proofs.Inspection.Records

/-! # Records of any directives

Directives that are given as data stand at any places, in any order, and several may share one.
Where no place is negative, the records are the findings of all directives, grouped by place. The
only other outcome is that a finding cites a line whose number is too long to be printed.
-/

namespace UsingStyle

/-- The findings as messages at the places of their directives. -/
def remarks (l : List (Directive × List Finding)) : List Remark :=
  l.flatMap fun p => p.2.map fun f => ⟨p.1.line.toNat, p.1.column.toNat, f.message⟩

/-! ## Negative places -/

namespace Directive

def isMisplaced (d : Directive) : Bool :=
  d.line < 0 || d.column < 0

/-- The error about a negative place: about the line, or else about the column. -/
def misplacement (d : Directive) : InspectionError :=
  if d.line < 0 then .naming .negativeLine d.line else .naming .negativeColumn d.column

theorem isMisplaced_eq_false_iff {d : Directive} :
    d.isMisplaced = false ↔ 0 ≤ d.line ∧ 0 ≤ d.column := by
  simp [isMisplaced]

end Directive

/-- A directive with findings stands at a negative place. -/
def stumbles (p : Directive × List Finding) : Bool :=
  p.1.isMisplaced && !p.2.isEmpty

namespace Registry

theorem add_of_misplaced {d : Directive} (h : d.isMisplaced = true) (r : Registry)
    (message : String) : r.add d.line d.column message = .error d.misplacement := by
  unfold add Directive.misplacement
  by_cases hline : d.line < 0
  · rw [if_pos hline, if_pos hline]
  · have hcolumn : d.column < 0 := by simpa [Directive.isMisplaced, hline] using h
    rw [if_neg hline, if_neg hline, if_pos hcolumn]

theorem addFindings_of_misplaced {d : Directive} (h : d.isMisplaced = true) (r : Registry)
    (f : Finding) (fs : List Finding) :
    r.addFindings d.line d.column (f :: fs) = .error d.misplacement := by
  rw [addFindings, add_of_misplaced h]

theorem addFindings_of_nonneg {line column : Int} (hline : 0 ≤ line) (hcolumn : 0 ≤ column)
    (r : Registry) (fs : List Finding) :
    r.addFindings line column fs =
      .ok ⟨collect r.records (fs.map fun f => ⟨line.toNat, column.toNat, f.message⟩)⟩ := by
  induction fs generalizing r with
  | nil => rfl
  | cons f fs ih =>
      simp only [addFindings, add_of_nonneg hline hcolumn, ih]
      rfl

/-- Registering stops at the first directive with findings at a negative place. Without one, all
findings are collected. -/
theorem register_eq (r : Registry) (l : List (Directive × List Finding)) :
    r.register l =
      match l.find? stumbles with
      | some p => .error p.1.misplacement
      | none => .ok ⟨collect r.records (remarks l)⟩ := by
  induction l generalizing r with
  | nil => rfl
  | cons p l ih =>
      obtain ⟨d, fs⟩ := p
      rw [register, List.find?_cons]
      cases hd : d.isMisplaced with
      | true =>
          cases fs with
          | nil =>
              have hfirst : stumbles (d, []) = false := by simp [stumbles]
              rw [hfirst]
              exact ih r
          | cons f fs =>
              have hfirst : stumbles (d, f :: fs) = true := by simp [stumbles, hd]
              rw [hfirst, addFindings_of_misplaced hd]
              rfl
      | false =>
          obtain ⟨hline, hcolumn⟩ := Directive.isMisplaced_eq_false_iff.1 hd
          have hfirst : stumbles (d, fs) = false := by simp [stumbles, hd]
          rw [hfirst, addFindings_of_nonneg hline hcolumn]
          refine (ih _).trans ?_
          simp only [remarks, List.flatMap_cons, collect, List.foldl_append]

end Registry

theorem inspect_eq (key : SortKey) (ds : List Directive) :
    inspect key ds =
      match (judged key ds).find? stumbles with
      | some p => .error p.1.misplacement
      | none => .ok (grouped (remarks (judged key ds))) := by
  rw [inspect_eq_register, Registry.register_eq]
  split
  · rfl
  · rw [← collect_eq_grouped]
    rfl

/-! ## Numbers that are too long -/

theorem Directive.citedLine?_of_markingFinding? {d : Directive} {marking : Option Marking}
    {f : Finding} (h : d.markingFinding? marking = some f) : f.citedLine? = none := by
  unfold markingFinding? at h
  split at h <;> cases h <;> rfl

theorem Order.Remembers.writableFindings_eq {o : Order} {before : List Directive}
    (h : o.Remembers before) (key : SortKey) (d : Directive) :
    o.writableFindings key d =
      if (d.placeFindings key before).all Finding.isWritable then .ok (d.placeFindings key before)
      else .error .lineTooLong := by
  unfold Order.writableFindings
  rw [h.findings key d]
  rfl

theorem Order.writable_of_writableFindings {o : Order} {before : List Directive}
    (h : o.Remembers before) {key : SortKey} {d : Directive} {fs : List Finding}
    (hfs : o.writableFindings key d = .ok fs) :
    ∀ f ∈ d.placeFindings key before, f.isWritable = true := by
  rw [h.writableFindings_eq] at hfs
  split at hfs
  · rename_i hall
    exact List.all_eq_true.1 hall
  · contradiction

theorem Order.error_of_writableFindings {o : Order} {key : SortKey} {d : Directive}
    {e : InspectionError} (h : o.writableFindings key d = .error e) :
    e = .lineTooLong ∨ o.findings key d = .error e := by
  unfold writableFindings at h
  cases hf : o.findings key d with
  | error e' =>
      rw [hf] at h
      cases h
      exact .inr rfl
  | ok fs =>
      simp only [hf, bind, Except.bind] at h
      split at h
      · contradiction
      · cases h
        exact .inl rfl

/-- An inspection that ends well has only findings that can be printed. -/
theorem writable_of_inspectFrom {key : SortKey} {o : Order} {before : List Directive}
    (h : o.Remembers before) {r : Registry} {ds : List Directive} {rs : List Record}
    (hok : inspectFrom (fun o => o.writableFindings key) o r ds = .ok rs) :
    ∀ p ∈ judgedAfter key before ds, ∀ f ∈ p.2, f.isWritable = true := by
  induction ds generalizing o before r with
  | nil => simp [judgedAfter]
  | cons d ds ih =>
      simp only [inspectFrom, bind_eq_ok] at hok
      obtain ⟨_, _, _, hfs, _, _, hrest⟩ := hok
      refine List.forall_mem_cons.2 ⟨fun f hf => ?_, ih (h.advance d) hrest⟩
      rcases List.mem_append.1 hf with hmarking | hplace
      · have hcites := Directive.citedLine?_of_markingFinding? (Option.mem_toList.1 hmarking)
        rw [Finding.isWritable, hcites]
        rfl
      · exact Order.writable_of_writableFindings h hfs f hplace

theorem bind_eq_error {α β : Type} {x : Except InspectionError α}
    {f : α → Except InspectionError β} {e : InspectionError} :
    (x >>= f) = .error e ↔ x = .error e ∨ ∃ a, x = .ok a ∧ f a = .error e := by
  cases x with
  | error e' => simp [bind, Except.bind]
  | ok a => simp [bind, Except.bind]

/-- A stricter judge changes nothing else but its own errors. -/
theorem inspectFrom_error_of_imp
    {judge judge' : Order → Directive → Except InspectionError (List Finding)}
    {own : InspectionError} (hok : ∀ o d fs, judge o d = .ok fs → judge' o d = .ok fs)
    (herror : ∀ o d e, judge o d = .error e → e = own ∨ judge' o d = .error e) {o : Order}
    {r : Registry} {ds : List Directive} {e : InspectionError}
    (h : inspectFrom judge o r ds = .error e) : e = own ∨ inspectFrom judge' o r ds = .error e := by
  induction ds generalizing o r with
  | nil => contradiction
  | cons d ds ih =>
      simp only [inspectFrom, bind_eq_error] at h ⊢
      rcases h with hmarking | ⟨r₁, hr₁, hjudge | ⟨fs, hfs, hplace | ⟨r₂, hr₂, hrest⟩⟩⟩
      · exact .inr (.inl hmarking)
      · exact (herror o d e hjudge).imp_right fun h' => .inr ⟨r₁, hr₁, .inl h'⟩
      · exact .inr (.inr ⟨r₁, hr₁, .inr ⟨fs, hok o d fs hfs, .inl hplace⟩⟩)
      · exact (ih hrest).imp_right fun h' =>
          .inr ⟨r₁, hr₁, .inr ⟨fs, hok o d fs hfs, .inr ⟨r₂, hr₂, h'⟩⟩⟩

theorem writable_of_inspectGiven {key : SortKey} {ds : List Directive} {rs : List Record}
    (h : inspectGiven key ds = .ok rs) : ∀ p ∈ judged key ds, ∀ f ∈ p.2, f.isWritable = true := by
  rw [judged_eq_judgedAfter]
  exact writable_of_inspectFrom Order.remembers_empty h

theorem inspect_error_of_inspectGiven {key : SortKey} {ds : List Directive} {e : InspectionError}
    (h : inspectGiven key ds = .error e) : e = .lineTooLong ∨ inspect key ds = .error e :=
  inspectFrom_error_of_imp (fun _ _ _ => Order.findings_of_writableFindings)
    (fun _ _ _ => Order.error_of_writableFindings) h

theorem all_isWritable_iff {l : List (Directive × List Finding)} :
    (l.all fun p => p.2.all Finding.isWritable) = true ↔
      ∀ p ∈ l, ∀ f ∈ p.2, f.isWritable = true := by
  simp only [List.all_eq_true]

/-- Where no directive with findings stands at a negative place, nothing but a number that is too
long keeps the findings from being grouped. -/
theorem inspectGiven_of_forall_not_stumbles {key : SortKey} {ds : List Directive}
    (h : (judged key ds).find? stumbles = none) :
    inspectGiven key ds =
      if (judged key ds).all fun p => p.2.all Finding.isWritable then
        .ok (grouped (remarks (judged key ds)))
      else .error .lineTooLong := by
  have hinspect : inspect key ds = .ok (grouped (remarks (judged key ds))) := by
    rw [inspect_eq, h]
  split
  · rename_i hall
    rw [inspectGiven_eq_inspect (all_isWritable_iff.1 hall), hinspect]
  · rename_i hall
    cases hgiven : inspectGiven key ds with
    | ok rs => exact absurd (all_isWritable_iff.2 (writable_of_inspectGiven hgiven)) hall
    | error e =>
        rcases inspect_error_of_inspectGiven hgiven with rfl | herror
        · rfl
        · rw [hinspect] at herror
          contradiction

/-! ## Places that are not negative -/

theorem find?_stumbles_eq_none {key : SortKey} {ds : List Directive}
    (hplaces : ∀ d ∈ ds, 0 ≤ d.line ∧ 0 ≤ d.column) :
    (judged key ds).find? stumbles = none := by
  rw [List.find?_eq_none]
  intro p hp
  have hplace := Directive.isMisplaced_eq_false_iff.2 (hplaces p.1 (mem_of_mem_judged hp))
  simp [stumbles, hplace]

/-- The records of directives at places that are not negative are their findings, grouped by place:
strictly in the order of places, the messages of a place in the order of the directives, and no
place without a message. Every finding is there, and none twice. Directives that are given as data
have no records if a finding cites a number too long to be printed. -/
theorem inspectGiven_eq_grouped {key : SortKey} {ds : List Directive}
    (hplaces : ∀ d ∈ ds, 0 ≤ d.line ∧ 0 ≤ d.column) :
    inspectGiven key ds =
        (if (judged key ds).all fun p => p.2.all Finding.isWritable then
          .ok (grouped (remarks (judged key ds)))
        else .error .lineTooLong) ∧
      inspect key ds = .ok (grouped (remarks (judged key ds))) ∧
      Groups (remarks (judged key ds)) (grouped (remarks (judged key ds))) ∧
      ((grouped (remarks (judged key ds))).flatMap Record.remarks).Perm
        (remarks (judged key ds)) := by
  have hnone : (judged key ds).find? stumbles = none := find?_stumbles_eq_none hplaces
  refine ⟨inspectGiven_of_forall_not_stumbles hnone, ?_, groups_grouped _, perm_remarks_grouped _⟩
  rw [inspect_eq, hnone]

/-- Two directives share a place, and the last one stands above them. -/
def crowdedDirectives : List Directive :=
  [⟨"using B = X.B;", "X.B", 3, 0, some "B", []⟩, ⟨"using A = W.C;", "W.C", 3, 0, some "A", []⟩,
    ⟨"using D;", "D", 1, 4, none, []⟩]

theorem inspectGiven_crowdedDirectives :
    inspectGiven .name crowdedDirectives =
        .ok (grouped (remarks (judged .name crowdedDirectives))) ∧
      (inspectGiven .name crowdedDirectives).map
          (List.map fun r => (r.line, r.column, r.errors.length)) =
        .ok [(1, 4, 1), (3, 0, 2)] := by
  refine ⟨?_, by decide +kernel⟩
  rw [(inspectGiven_eq_grouped (by decide)).1, if_pos (by decide +kernel)]

/-- A directive on the last line whose index can still be printed. The number that people count is
one digit longer. -/
def Directive.farBelow : Directive :=
  ⟨"using A;", "A", (Nat.pow 10 Text.maxDigits - 1 : Nat), 0, none, [" ", "// can't alias"]⟩

theorem not_forall_inspectGiven_eq_grouped :
    ¬ ∀ (key : SortKey) (ds : List Directive), (∀ d ∈ ds, 0 ≤ d.line ∧ 0 ≤ d.column) →
      inspectGiven key ds = .ok (grouped (remarks (judged key ds))) := by
  intro h
  have herror : inspectGiven .name
      [.farBelow, ⟨"using B = C.B;", "C.B", 0, 0, some "B", []⟩] = .error .lineTooLong := by
    decide +kernel
  rw [h .name _ (by decide +kernel)] at herror
  contradiction

end UsingStyle
