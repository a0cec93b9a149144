import UsingStyle.Inspection

/-! # Findings by the directives before

The inspection remembers two directives and adds messages as it goes. Here the findings of a
directive are stated without a state: by its own marking, and by the last aliased and the last
non-aliased directive before it. `inspect_eq_register` says that an inspection registers exactly
these findings, directive by directive.
-/

namespace UsingStyle

/-- The last aliased directive, with its alias. -/
def lastAliased (before : List Directive) : Option (Directive × String) :=
  before.reverse.findSome? fun p => p.aliasName.map fun a => (p, a)

def lastNonAliased (before : List Directive) : Option Directive :=
  before.reverse.find? fun p => !p.isAliased

namespace Directive

/-- The finding that an aliased directive stands behind one without alias. -/
def precedenceAfter (d : Directive) (before : List Directive) : Option Finding :=
  if d.isAliased then (lastNonAliased before).map (Finding.afterNonAliased d) else none

/-- The finding that an aliased directive stands behind one with a greater key. -/
def alphabeticalAfter (key : SortKey) (d : Directive) (before : List Directive) : Option Finding :=
  match key, d.aliasName, lastAliased before with
  | .name, some _, some (p, _) => if d.name < p.name then some (.afterGreaterName d p) else none
  | .aliasName, some a, some (p, b) => if a < b then some (.afterGreaterAlias d a p b) else none
  | _, _, _ => none

/-- What is wrong with the place of a directive behind the directives `before`. -/
def placeFindings (key : SortKey) (d : Directive) (before : List Directive) : List Finding :=
  (d.precedenceAfter before).toList ++ (d.alphabeticalAfter key before).toList

/-- All findings of a directive behind the directives `before`: about its marking, about the block
it stands in, and about its place in the alphabet. -/
def findingsAfter (key : SortKey) (d : Directive) (before : List Directive) : List Finding :=
  (d.markingFinding? (Marking.ofTrivia? d.trailing)).toList ++ d.placeFindings key before

end Directive

/-- Each directive with its findings. -/
def judged (key : SortKey) (ds : List Directive) : List (Directive × List Finding) :=
  ds.mapIdx fun i d => (d, d.findingsAfter key (ds.take i))

/-- The same, where the directives `before` precede the list. -/
def judgedAfter (key : SortKey) : List Directive → List Directive → List (Directive × List Finding)
  | _, [] => []
  | before, d :: ds => (d, d.findingsAfter key before) :: judgedAfter key (before ++ [d]) ds

theorem judgedAfter_eq_mapIdx (key : SortKey) (before ds : List Directive) :
    judgedAfter key before ds =
      ds.mapIdx fun i d => (d, d.findingsAfter key (before ++ ds.take i)) := by
  induction ds generalizing before with
  | nil => rfl
  | cons d ds ih => simp [judgedAfter, ih, List.mapIdx_cons]

theorem judged_eq_judgedAfter (key : SortKey) (ds : List Directive) :
    judged key ds = judgedAfter key [] ds := by
  simp [judged, judgedAfter_eq_mapIdx]

theorem judgedAfter_append (key : SortKey) (before ds es : List Directive) :
    judgedAfter key before (ds ++ es) =
      judgedAfter key before ds ++ judgedAfter key (before ++ ds) es := by
  induction ds generalizing before with
  | nil => simp [judgedAfter]
  | cons d ds ih => simp [judgedAfter, ih]

theorem judged_concat (key : SortKey) (ds : List Directive) (d : Directive) :
    judged key (ds ++ [d]) = judged key ds ++ [(d, d.findingsAfter key ds)] := by
  simp [judged_eq_judgedAfter, judgedAfter_append, judgedAfter]

/-! ## What the order remembers -/

theorem lastAliased_concat (before : List Directive) (d : Directive) :
    lastAliased (before ++ [d]) = (d.aliasName.map fun a => (d, a)).or (lastAliased before) := by
  cases h : d.aliasName <;> simp [lastAliased, h]

theorem lastNonAliased_concat (before : List Directive) (d : Directive) :
    lastNonAliased (before ++ [d]) = if d.isAliased then lastNonAliased before else some d := by
  cases h : d.isAliased <;> simp [lastNonAliased, h]

namespace Order

/-- The order holds what matters of the directives `before`. Both fields also say that what is
remembered is well formed. -/
structure Remembers (o : Order) (before : List Directive) : Prop where
  aliased : o.previousAliased? = .ok (lastAliased before)
  nonAliased : o.previousNonAliased? = .ok (lastNonAliased before)

theorem remembers_empty : empty.Remembers [] := ⟨rfl, rfl⟩

theorem Remembers.advance {o : Order} {before : List Directive} (h : o.Remembers before)
    (d : Directive) : (o.advance d).Remembers (before ++ [d]) := by
  cases hd : d.aliasName with
  | none =>
      refine ⟨?_, ?_⟩
      · simpa [Order.advance, hd, lastAliased_concat, previousAliased?] using h.aliased
      · simp [Order.advance, hd, lastNonAliased_concat, previousNonAliased?, Directive.isAliased]
  | some a =>
      refine ⟨?_, ?_⟩
      · simp [Order.advance, hd, lastAliased_concat, previousAliased?]
      · simpa [Order.advance, hd, lastNonAliased_concat, previousNonAliased?,
          Directive.isAliased] using h.nonAliased

theorem precedenceFinding?_lastNonAliased {d : Directive} {a : String} (hd : d.aliasName = some a)
    (before : List Directive) :
    precedenceFinding? d (lastNonAliased before) = d.precedenceAfter before := by
  simp [precedenceFinding?, Directive.precedenceAfter, Directive.isAliased, hd]

theorem alphabeticalFinding?_lastAliased {d : Directive} {a : String} (hd : d.aliasName = some a)
    (key : SortKey) (before : List Directive) :
    alphabeticalFinding? key d a (lastAliased before) = d.alphabeticalAfter key before := by
  unfold alphabeticalFinding? Directive.alphabeticalAfter
  rw [hd]
  cases lastAliased before with
  | none => cases key <;> rfl
  | some previous => cases key <;> rfl

/-- The findings of the order are those by the directives before; no precondition fails. -/
theorem Remembers.findings {o : Order} {before : List Directive} (h : o.Remembers before)
    (key : SortKey) (d : Directive) : o.findings key d = .ok (d.placeFindings key before) := by
  unfold Order.findings
  rw [h.aliased, h.nonAliased]
  cases hd : d.aliasName with
  | none =>
      simp [bind, Except.bind, pure, Except.pure, Directive.placeFindings,
        Directive.precedenceAfter, Directive.alphabeticalAfter, Directive.isAliased, hd]
  | some a =>
      simp only [bind, Except.bind, pure, Except.pure]
      rw [precedenceFinding?_lastNonAliased hd, alphabeticalFinding?_lastAliased hd]
      rfl

theorem Remembers.writableFindings {o : Order} {before : List Directive} (h : o.Remembers before)
    {key : SortKey} {d : Directive}
    (hw : ∀ f ∈ d.placeFindings key before, f.isWritable = true) :
    o.writableFindings key d = o.findings key d := by
  have hall : (d.placeFindings key before).all Finding.isWritable = true := List.all_eq_true.2 hw
  unfold Order.writableFindings
  simp [h.findings key d, bind, Except.bind, hall, pure, Except.pure]

theorem findings_of_writableFindings {o : Order} {key : SortKey} {d : Directive}
    {fs : List Finding} (h : o.writableFindings key d = .ok fs) : o.findings key d = .ok fs := by
  unfold Order.writableFindings at h
  cases hf : o.findings key d with
  | error e => simp [hf, bind, Except.bind] at h
  | ok gs =>
      simp only [hf, bind, Except.bind] at h
      split at h
      · exact h
      · contradiction

end Order

/-! ## Registering the findings -/

namespace Registry

/-- Adds the findings of each directive at its place. -/
def register : Registry → List (Directive × List Finding) → Except InspectionError Registry
  | r, [] => .ok r
  | r, (d, fs) :: rest => do
    let r ← r.addFindings d.line d.column fs
    r.register rest

theorem addFindings_append (line column : Int) (r : Registry) (fs gs : List Finding) :
    r.addFindings line column (fs ++ gs) =
      (r.addFindings line column fs).bind fun r => r.addFindings line column gs := by
  induction fs generalizing r with
  | nil => rfl
  | cons f fs ih =>
      simp only [List.cons_append, addFindings]
      cases r.add line column f.message with
      | error e => rfl
      | ok r => exact ih r

end Registry

theorem inspectFrom_eq_register (key : SortKey) {o : Order} {before : List Directive}
    (h : o.Remembers before) (r : Registry) (ds : List Directive) :
    inspectFrom (fun o => o.findings key) o r ds =
      (r.register (judgedAfter key before ds)).map Registry.records := by
  -- the order and the list `before` advance together
  induction ds generalizing o before r with
  | nil => rfl
  | cons d ds ih =>
      simp only [inspectFrom, judgedAfter, Registry.register, Directive.findingsAfter,
        Registry.addFindings_append, h.findings key d, bind, Except.bind]
      cases r.addFindings d.line d.column
          (d.markingFinding? (Marking.ofTrivia? d.trailing)).toList with
      | error e => rfl
      | ok r =>
          dsimp only
          cases r.addFindings d.line d.column (d.placeFindings key before) with
          | error e => rfl
          | ok r => exact ih (h.advance d) r

theorem inspect_eq_register (key : SortKey) (ds : List Directive) :
    inspect key ds = (Registry.empty.register (judged key ds)).map Registry.records := by
  rw [judged_eq_judgedAfter]
  exact inspectFrom_eq_register key Order.remembers_empty .empty ds

/-! ## Directives that are given as data -/

theorem bind_eq_ok {α β : Type} {x : Except InspectionError α}
    {f : α → Except InspectionError β} {b : β} :
    (x >>= f) = .ok b ↔ ∃ a, x = .ok a ∧ f a = .ok b := by
  cases x with
  | error e => simp [bind, Except.bind]
  | ok a => simp [bind, Except.bind]

/-- A stricter judge can only add errors. -/
theorem inspectFrom_ok_of_imp
    {judge judge' : Order → Directive → Except InspectionError (List Finding)}
    (himp : ∀ o d fs, judge o d = .ok fs → judge' o d = .ok fs) {o : Order} {r : Registry}
    {ds : List Directive} {rs : List Record} (h : inspectFrom judge o r ds = .ok rs) :
    inspectFrom judge' o r ds = .ok rs := by
  induction ds generalizing o r with
  | nil => exact h
  | cons d ds ih =>
      simp only [inspectFrom, bind_eq_ok] at h ⊢
      obtain ⟨r₁, hr₁, fs, hfs, r₂, hr₂, hrest⟩ := h
      exact ⟨r₁, hr₁, fs, himp o d fs hfs, r₂, hr₂, ih hrest⟩

theorem inspect_of_inspectGiven {key : SortKey} {ds : List Directive} {rs : List Record}
    (h : inspectGiven key ds = .ok rs) : inspect key ds = .ok rs :=
  inspectFrom_ok_of_imp (fun _ _ _ => Order.findings_of_writableFindings) h

theorem inspectFrom_writableFindings {key : SortKey} {o : Order} {before ds : List Directive}
    (h : o.Remembers before) (r : Registry)
    (hw : ∀ p ∈ judgedAfter key before ds, ∀ f ∈ p.2, f.isWritable = true) :
    inspectFrom (fun o => o.writableFindings key) o r ds =
      inspectFrom (fun o => o.findings key) o r ds := by
  induction ds generalizing o before r with
  | nil => rfl
  | cons d ds ih =>
      simp only [judgedAfter, List.forall_mem_cons, Directive.findingsAfter] at hw
      obtain ⟨hd, hds⟩ := hw
      have hplace : ∀ f ∈ d.placeFindings key before, f.isWritable = true :=
        fun f hf => hd f (List.mem_append_right _ hf)
      have hrest : ∀ r, inspectFrom (fun o => o.writableFindings key) (o.advance d) r ds =
          inspectFrom (fun o => o.findings key) (o.advance d) r ds :=
        fun r => ih (h.advance d) r hds
      simp only [inspectFrom, h.writableFindings hplace, hrest]

/-- Where every finding can be printed, directives given as data are inspected like those of a
source. -/
theorem inspectGiven_eq_inspect {key : SortKey} {ds : List Directive}
    (hw : ∀ p ∈ judged key ds, ∀ f ∈ p.2, f.isWritable = true) :
    inspectGiven key ds = inspect key ds := by
  rw [judged_eq_judgedAfter] at hw
  exact inspectFrom_writableFindings Order.remembers_empty .empty hw

end UsingStyle
