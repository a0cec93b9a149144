import UsingStyle.Proofs.Inspection.Reference
import UsingStyle.Report.Read

/-! # Preconditions of an inspection

A negative place is noticed only when a message is to be put there. An inspection can therefore
fail for two reasons: at the first directive that has findings and stands at a negative place, or
where a number is too long to be printed. What it remembers is always well formed, and the records
of an inspection that ends well stand at places of directives.
-/

namespace UsingStyle

/-! ## What the order remembers is well formed -/

namespace Order

/-- What is remembered as aliased has an alias, and what is remembered as non-aliased has none. -/
structure WellFormed (o : Order) : Prop where
  aliased : ∀ d ∈ o.aliased, d.isAliased = true
  nonAliased : ∀ d ∈ o.nonAliased, d.isAliased = false

theorem wellFormed_empty : empty.WellFormed :=
  ⟨by simp [empty], by simp [empty]⟩

theorem WellFormed.advance {o : Order} (h : o.WellFormed) (d : Directive) :
    (o.advance d).WellFormed := by
  unfold Order.advance
  cases hd : d.aliasName with
  | none =>
      refine ⟨h.aliased, fun p hp => ?_⟩
      cases hp
      simp [Directive.isAliased, hd]
  | some a =>
      refine ⟨fun p hp => ?_, h.nonAliased⟩
      cases hp
      simp [Directive.isAliased, hd]

theorem WellFormed.foldl_advance {o : Order} (h : o.WellFormed) (ds : List Directive) :
    (ds.foldl Order.advance o).WellFormed := by
  induction ds generalizing o with
  | nil => exact h
  | cons d ds ih => exact ih (h.advance d)

theorem Remembers.foldl_advance {o : Order} {before : List Directive} (h : o.Remembers before)
    (ds : List Directive) : (ds.foldl Order.advance o).Remembers (before ++ ds) := by
  induction ds generalizing o before with
  | nil => simpa using h
  | cons d ds ih => simpa using ih (h.advance d)

end Order

/-- An inspection goes on behind the first directives with the order that they leave. -/
theorem inspectFrom_append (judge : Order → Directive → Except InspectionError (List Finding))
    (o : Order) (r : Registry) (ds es : List Directive) :
    inspectFrom judge o r (ds ++ es) =
      inspectFrom judge o r ds >>= fun rs =>
        inspectFrom judge (ds.foldl Order.advance o) ⟨rs⟩ es := by
  induction ds generalizing o r with
  | nil => rfl
  | cons d ds ih => simp only [List.cons_append, inspectFrom, ih, bind_assoc, List.foldl_cons]

/-! ## The first directive at a negative place -/

theorem Directive.citedLine?_of_mem_placeFindings {key : SortKey} {d : Directive}
    {before : List Directive} {f : Finding} (h : f ∈ d.placeFindings key before) :
    f.citedLine?.isNone = false := by
  rcases List.mem_append.1 h with hprecedence | halphabetical
  · have hf := Option.mem_toList.1 hprecedence
    unfold precedenceAfter at hf
    split at hf
    · obtain ⟨p, _, rfl⟩ := Option.map_eq_some_iff.1 hf
      rfl
    · contradiction
  · have hf := Option.mem_toList.1 halphabetical
    unfold alphabeticalAfter at hf
    split at hf
    · split at hf
      · cases hf
        rfl
      · contradiction
    · split at hf
      · cases hf
        rfl
      · contradiction
    · contradiction

/-- Whether all that is printed of the findings can be printed when the first one is refused. One
about the marking comes first and cites no line; the others are printed together. -/
def printsUntilRefused (fs : List Finding) : Bool :=
  fs.any (fun f => f.citedLine?.isNone) || fs.all Finding.isWritable

theorem inspectFrom_of_stumbles {key : SortKey} {o : Order} {before : List Directive}
    (h : o.Remembers before) {d : Directive}
    (hd : stumbles (d, d.findingsAfter key before) = true) (r : Registry) (ds : List Directive) :
    inspectFrom (fun o => o.writableFindings key) o r (d :: ds) =
      .error (if printsUntilRefused (d.findingsAfter key before) then d.misplacement
        else .lineTooLong) := by
  obtain ⟨hplace, hne⟩ : d.isMisplaced = true ∧ d.findingsAfter key before ≠ [] := by
    simpa [stumbles] using hd
  cases hmarking : d.markingFinding? (Marking.ofTrivia? d.trailing) with
  | some f =>
      have hcites := Directive.citedLine?_of_markingFinding? hmarking
      have hprints : printsUntilRefused (d.findingsAfter key before) = true := by
        simp [printsUntilRefused, Directive.findingsAfter, hmarking, hcites]
      simp only [inspectFrom, hmarking, Option.toList_some,
        Registry.addFindings_of_misplaced hplace, hprints]
      rfl
  | none =>
      have hfindings : d.findingsAfter key before = d.placeFindings key before := by
        simp [Directive.findingsAfter, hmarking]
      have hcite : (d.placeFindings key before).any (fun f => f.citedLine?.isNone) = false := by
        rw [List.any_eq_false]
        intro f hf
        rw [Directive.citedLine?_of_mem_placeFindings hf]
        exact Bool.false_ne_true
      rw [hfindings] at hne ⊢
      obtain ⟨f, fs, hfs⟩ := List.exists_cons_of_ne_nil hne
      simp only [printsUntilRefused, hcite, Bool.false_or, inspectFrom, hmarking,
        Option.toList_none, Registry.addFindings, h.writableFindings_eq]
      by_cases hall : (d.placeFindings key before).all Finding.isWritable = true
      · rw [if_pos hall, if_pos hall, hfs]
        simp only [bind, Except.bind, Registry.addFindings_of_misplaced hplace]
      · rw [if_neg hall, if_neg hall]
        rfl

theorem exists_append_of_judged_eq_append {key : SortKey} {ds : List Directive}
    {l l' : List (Directive × List Finding)} (h : judged key ds = l ++ l') :
    ∃ xs ys, ds = xs ++ ys ∧ judged key xs = l ∧ judgedAfter key xs ys = l' := by
  have hds : ds = l.map Prod.fst ++ l'.map Prod.fst := by
    rw [← List.map_append, ← h, map_fst_judged]
  refine ⟨_, _, hds, ?_⟩
  have hlength : (judged key (l.map Prod.fst)).length = l.length := by
    rw [judged, List.length_mapIdx, List.length_map]
  rw [hds, judged_eq_judgedAfter, judgedAfter_append, List.nil_append, ← judged_eq_judgedAfter] at h
  exact List.append_inj h hlength

/-- The inspection ends at the first directive with findings at a negative place, if not before. -/
theorem inspectGiven_of_stumbles {key : SortKey} {ds : List Directive}
    {before after : List (Directive × List Finding)} {p : Directive × List Finding}
    (h : judged key ds = before ++ p :: after) (hbefore : ∀ q ∈ before, stumbles q = false)
    (hp : stumbles p = true) :
    inspectGiven key ds =
      .error (if before.all (fun q => q.2.all Finding.isWritable) && printsUntilRefused p.2 then
        p.1.misplacement else .lineTooLong) := by
  obtain ⟨xs, ys, rfl, hxs, hys⟩ := exists_append_of_judged_eq_append h
  have hnone : (judged key xs).find? stumbles = none := by
    rw [hxs, List.find?_eq_none]
    intro q hq
    rw [hbefore q hq]
    exact Bool.false_ne_true
  have hfront := inspectGiven_of_forall_not_stumbles hnone
  rw [hxs] at hfront
  have hrun := inspectFrom_append (fun o => o.writableFindings key) .empty .empty xs ys
  change inspectGiven key (xs ++ ys) = inspectGiven key xs >>= _ at hrun
  rw [hrun, hfront]
  by_cases hall : before.all (fun q => q.2.all Finding.isWritable) = true
  · cases ys with
    | nil => simp [judgedAfter] at hys
    | cons d ys =>
        obtain ⟨rfl, _⟩ := List.cons.inj hys
        have hmemory := Order.remembers_empty.foldl_advance xs
        rw [if_pos hall, hall, Bool.true_and]
        exact inspectFrom_of_stumbles hmemory hp _ ys
  · rw [if_neg hall, Bool.eq_false_iff.2 hall]
    rfl

theorem exists_first_stumbling {l : List (Directive × List Finding)}
    (h : ∃ p ∈ l, stumbles p = true) :
    ∃ before p after, l = before ++ p :: after ∧ (∀ q ∈ before, stumbles q = false) ∧
      stumbles p = true := by
  obtain ⟨p, hfind⟩ := Option.isSome_iff_exists.1 (List.find?_isSome.2 h)
  obtain ⟨hp, before, after, hl, hbefore⟩ := List.find?_eq_some_iff_append.1 hfind
  exact ⟨before, p, after, hl, fun q hq => by simpa using hbefore q hq, hp⟩

theorem exists_error_of_stumbles {key : SortKey} {ds : List Directive}
    (h : ∃ p ∈ judged key ds, stumbles p = true) : ∃ e, inspectGiven key ds = .error e := by
  obtain ⟨before, p, after, hjudged, hbefore, hp⟩ := exists_first_stumbling h
  exact ⟨_, inspectGiven_of_stumbles hjudged hbefore hp⟩

/-! ## Which error it is -/

/-- Whether the error is about a precondition, and not about printing a number. -/
def InspectionError.isPrecondition : InspectionError → Bool
  | lineTooLong => false
  | aliasMissing | aliasUnexpected | negativeLine _ | negativeColumn _ => true

namespace Directive

/-- The negative line, or the column if the line is not negative. -/
def negativePlace (d : Directive) : Int :=
  if d.line < 0 then d.line else d.column

def placeError (d : Directive) : InspectionError :=
  if d.line < 0 then .negativeLine d.line else .negativeColumn d.column

theorem misplacement_eq (d : Directive) :
    d.misplacement =
      if Text.isWritable d.negativePlace then d.placeError else .lineTooLong := by
  unfold misplacement negativePlace placeError InspectionError.naming
  by_cases hline : d.line < 0
  · simp only [if_pos hline]
  · simp only [if_neg hline]

theorem isPrecondition_placeError (d : Directive) : d.placeError.isPrecondition = true := by
  unfold placeError
  split <;> rfl

end Directive

/-- The first directive with findings at a negative place is `p`, and up to there no number comes
up that is too long to be printed. -/
def StopsAt (l : List (Directive × List Finding)) (p : Directive × List Finding) : Prop :=
  ∃ before after, l = before ++ p :: after ∧
    (∀ q ∈ before, stumbles q = false ∧ ∀ f ∈ q.2, f.isWritable = true) ∧ stumbles p = true ∧
    printsUntilRefused p.2 = true ∧ Text.isWritable p.1.negativePlace = true

theorem inspectGiven_of_stopsAt {key : SortKey} {ds : List Directive}
    {p : Directive × List Finding} (h : StopsAt (judged key ds) p) :
    inspectGiven key ds = .error p.1.placeError := by
  obtain ⟨before, after, hjudged, hbefore, hp, hprints, hnumber⟩ := h
  have hall : before.all (fun q => q.2.all Finding.isWritable) = true :=
    all_isWritable_iff.2 fun q hq => (hbefore q hq).2
  rw [inspectGiven_of_stumbles hjudged (fun q hq => (hbefore q hq).1) hp, hall, hprints,
    Directive.misplacement_eq, hnumber]
  rfl

theorem stopsAt_of_inspectGiven {key : SortKey} {ds : List Directive} {e : InspectionError}
    (he : e.isPrecondition = true) (h : inspectGiven key ds = .error e) :
    ∃ p, StopsAt (judged key ds) p ∧ e = p.1.placeError := by
  by_cases hsome : ∃ p ∈ judged key ds, stumbles p = true
  · obtain ⟨before, p, after, hjudged, hbefore, hp⟩ := exists_first_stumbling hsome
    rw [inspectGiven_of_stumbles hjudged hbefore hp, Directive.misplacement_eq] at h
    split at h
    · rename_i hprints
      obtain ⟨hall, hrefused⟩ := Bool.and_eq_true_iff.1 hprints
      have hwritable := all_isWritable_iff.1 hall
      split at h
      · rename_i hnumber
        cases h
        exact ⟨p, ⟨before, after, hjudged, fun q hq => ⟨hbefore q hq, hwritable q hq⟩, hp, hrefused,
          hnumber⟩, rfl⟩
      · cases h
        exact absurd he Bool.false_ne_true
    · cases h
      exact absurd he Bool.false_ne_true
  · have hnone : (judged key ds).find? stumbles = none :=
      List.find?_eq_none.2 fun p hp hstumbles => hsome ⟨p, hp, hstumbles⟩
    rw [inspectGiven_of_forall_not_stumbles hnone] at h
    split at h
    · contradiction
    · cases h
      exact absurd he Bool.false_ne_true

theorem exists_stopsAt {l : List (Directive × List Finding)}
    (hprintable : ∀ p ∈ l, (∀ f ∈ p.2, f.isWritable = true) ∧
      (stumbles p = true → Text.isWritable p.1.negativePlace = true))
    (h : ∃ p ∈ l, stumbles p = true) : ∃ p, StopsAt l p := by
  obtain ⟨before, p, after, rfl, hbefore, hp⟩ := exists_first_stumbling h
  obtain ⟨hfront, hrest⟩ := List.forall_mem_append.1 hprintable
  obtain ⟨hwritable, hnumber⟩ := hrest p List.mem_cons_self
  have hprints : printsUntilRefused p.2 = true := by
    rw [printsUntilRefused, List.all_eq_true.2 hwritable, Bool.or_true]
  exact ⟨p, before, after, rfl, fun q hq => ⟨hbefore q hq, (hfront q hq).1⟩, hp, hprints,
    hnumber hp⟩

/-! ## Records are valid -/

/-- Items that pass a check one by one make a list that passes it. -/
theorem items_map {α β : Type} {check : α → Untyped.Checked β} {f : β → α}
    (h : ∀ b, check (f b) = .ok b) (index : Nat) (bs : List β) :
    Untyped.Checked.items check index (bs.map f) = .ok bs := by
  induction bs generalizing index with
  | nil => rfl
  | cons b bs ih =>
      rw [List.map_cons, Untyped.Checked.items, ih, h]
      rfl

theorem Record.ofFields_of_nonneg {line column : Int} (hline : 0 ≤ line) (hcolumn : 0 ≤ column)
    (errors : List String) :
    Record.ofFields [("line", .int line), ("column", .int column),
      ("errors", .list (errors.map .text))] = .ok ⟨line.toNat, column.toNat, errors⟩ := by
  have hatLine : Untyped.atLeast 0 line = .ok line := if_neg (by omega)
  have hatColumn : Untyped.atLeast 0 column = .ok column := if_neg (by omega)
  have hitems : Untyped.Checked.items Untyped.text 0 (errors.map Untyped.Value.text) = .ok errors :=
    items_map (f := Untyped.Value.text) (fun _ => rfl) 0 errors
  simp [Record.ofFields, Untyped.required, Untyped.optional, Untyped.lookup, Untyped.natural,
    Untyped.listOf, Untyped.Checked.under, Untyped.Checked.both, hatLine, hatColumn, hitems,
    Except.map]

/-- Each record stands at the place of a directive, and that place is not negative. -/
theorem exists_ofFields_of_mem {key : SortKey} {ds : List Directive} {rs : List Record}
    (h : inspectGiven key ds = .ok rs) {r : Record} (hr : r ∈ rs) :
    ∃ d ∈ ds, Record.ofFields [("line", .int d.line), ("column", .int d.column),
      ("errors", .list (r.errors.map .text))] = .ok r := by
  have hinspect := inspect_of_inspectGiven h
  rw [inspect_eq] at hinspect
  split at hinspect
  · contradiction
  · rename_i hnone
    cases hinspect
    have hmessages := ((groups_grouped _).mem_places r.place).1 ⟨r, hr, rfl⟩
    obtain ⟨m, hm, hplace⟩ := messagesAt_ne_nil_iff.1 hmessages
    obtain ⟨p, hp, hm⟩ := List.mem_flatMap.1 hm
    obtain ⟨f, hf, rfl⟩ := List.mem_map.1 hm
    have hnot : p.1.isMisplaced = false := by
      have := List.find?_eq_none.1 hnone p hp
      simpa [stumbles, List.ne_nil_of_mem hf] using this
    obtain ⟨hline, hcolumn⟩ := Directive.isMisplaced_eq_false_iff.1 hnot
    have hsame : p.1.line.toNat = r.line ∧ p.1.column.toNat = r.column := by
      simpa [Remark.place, Record.place] using hplace
    refine ⟨p.1, mem_of_mem_judged hp, ?_⟩
    rw [Record.ofFields_of_nonneg hline hcolumn, hsame.1, hsame.2]

/-- A precondition fails exactly at the first directive with findings at a negative place, and the
error names that place, unless a number that is too long had to be printed before. No such directive
passes. Where every number can be printed, a precondition fails exactly when there is one. The order
that the inspection comes to behind any first directives is well formed and passes both checks of
what it remembers, and every record is a valid one. -/
theorem inspectGiven_preconditions (key : SortKey) (ds : List Directive) :
    (∀ e, e.isPrecondition = true →
      (inspectGiven key ds = .error e ↔ ∃ p, StopsAt (judged key ds) p ∧ e = p.1.placeError)) ∧
    ((∃ p ∈ judged key ds, stumbles p = true) → ∃ e, inspectGiven key ds = .error e) ∧
    ((∀ p ∈ judged key ds, (∀ f ∈ p.2, f.isWritable = true) ∧
        (stumbles p = true → Text.isWritable p.1.negativePlace = true)) →
      ((∃ e, e.isPrecondition = true ∧ inspectGiven key ds = .error e) ↔
        ∃ p ∈ judged key ds, stumbles p = true)) ∧
    (∀ before after, ds = before ++ after →
      (before.foldl Order.advance .empty).WellFormed ∧
      (before.foldl Order.advance .empty).Remembers before ∧
      inspectGiven key ds = inspectGiven key before >>= fun rs =>
        inspectFrom (fun o => o.writableFindings key) (before.foldl Order.advance .empty) ⟨rs⟩
          after) ∧
    ∀ rs, inspectGiven key ds = .ok rs → ∀ r ∈ rs,
      ∃ d ∈ ds, Record.ofFields [("line", .int d.line), ("column", .int d.column),
        ("errors", .list (r.errors.map .text))] = .ok r := by
  refine ⟨fun e he => ⟨stopsAt_of_inspectGiven he, ?_⟩, exists_error_of_stumbles,
    fun hprintable => ⟨?_, fun h => ?_⟩, ?_, fun rs hrs r hr => exists_ofFields_of_mem hrs hr⟩
  · rintro ⟨p, hp, rfl⟩
    exact inspectGiven_of_stopsAt hp
  · rintro ⟨e, he, herror⟩
    obtain ⟨p, ⟨before, after, hjudged, _, hp, _⟩, _⟩ := stopsAt_of_inspectGiven he herror
    exact ⟨p, by simp [hjudged], hp⟩
  · obtain ⟨p, hp⟩ := exists_stopsAt hprintable h
    exact ⟨_, p.1.isPrecondition_placeError, inspectGiven_of_stopsAt hp⟩
  · rintro before after rfl
    exact ⟨Order.wellFormed_empty.foldl_advance before,
      Order.remembers_empty.foldl_advance before, inspectFrom_append _ _ _ _ _⟩

/-- A directive above the first line, without a finding of its own. -/
def Directive.aboveAll : Directive :=
  ⟨"using A;", "A", -1, 0, none, [" ", "// can't alias"]⟩

def Directive.leftOfAll : Directive :=
  ⟨"using B = C.B;", "C.B", 2, -7, some "B", []⟩

/-- Only the second directive is noticed, as it stands behind one without alias. -/
theorem inspectGiven_of_negative_column :
    inspectGiven .name [.aboveAll, .leftOfAll] = .error (.negativeColumn (-7)) := by
  have hstops : StopsAt (judged .name [.aboveAll, .leftOfAll])
      (.leftOfAll, [.afterNonAliased .leftOfAll .aboveAll]) :=
    ⟨[(.aboveAll, [])], [], by decide +kernel, by decide +kernel, by decide, by decide +kernel,
      by decide +kernel⟩
  exact ((inspectGiven_preconditions _ _).1 _ rfl).2 ⟨_, hstops, rfl⟩

theorem not_forall_precondition_iff_stumbles :
    ¬ ∀ (key : SortKey) (ds : List Directive),
      ((∃ e, e.isPrecondition = true ∧ inspectGiven key ds = .error e) ↔
        ∃ p ∈ judged key ds, stumbles p = true) := by
  intro h
  have herror : inspectGiven .name
      [.farBelow, ⟨"using B = C.B;", "C.B", -1, 0, some "B", []⟩] = .error .lineTooLong := by
    decide +kernel
  obtain ⟨e, he, hsame⟩ := (h .name
    [.farBelow, ⟨"using B = C.B;", "C.B", -1, 0, some "B", []⟩]).2 (by decide +kernel)
  rw [herror] at hsame
  cases hsame
  exact absurd he Bool.false_ne_true

end UsingStyle
