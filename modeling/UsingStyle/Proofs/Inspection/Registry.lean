import UsingStyle.Proofs.Inspection.Findings

/-! # Registering findings place by place

A message is never lost, so a registry that holds a record keeps one. Where the places come in
increasing order, each directive with findings gets a record of its own, behind all earlier ones.
-/

namespace UsingStyle

/-! ## Records do not vanish -/

theorem addMessage_ne_nil (line column : Nat) (message : String) (rs : List Record) :
    addMessage line column message rs ≠ [] := by
  cases rs with
  | nil => exact List.cons_ne_nil _ _
  | cons r rs =>
      unfold addMessage
      split
      · exact List.cons_ne_nil _ _
      · split <;> exact List.cons_ne_nil _ _

namespace Registry

theorem records_ne_nil_of_add {r r' : Registry} {line column : Int} {message : String}
    (h : r.add line column message = .ok r') : r'.records ≠ [] := by
  unfold add at h
  split at h
  · contradiction
  · split at h
    · contradiction
    · cases h
      exact addMessage_ne_nil _ _ _ _

theorem records_ne_nil_of_addFindings {r r' : Registry} {line column : Int} {fs : List Finding}
    (h : r.addFindings line column fs = .ok r') (hr : r.records ≠ [] ∨ fs ≠ []) :
    r'.records ≠ [] := by
  induction fs generalizing r with
  | nil =>
      cases h
      exact hr.resolve_right (fun hne => hne rfl)
  | cons f fs ih =>
      unfold addFindings at h
      split at h
      · contradiction
      · rename_i r₁ hadd
        exact ih h (.inl (records_ne_nil_of_add hadd))

theorem records_ne_nil_of_register {r r' : Registry} {l : List (Directive × List Finding)}
    (h : r.register l = .ok r') (hr : r.records ≠ [] ∨ ∃ p ∈ l, p.2 ≠ []) : r'.records ≠ [] := by
  induction l generalizing r with
  | nil =>
      cases h
      simpa using hr
  | cons p l ih =>
      obtain ⟨d, fs⟩ := p
      obtain ⟨r₁, hadd, hrest⟩ := bind_eq_ok.1 h
      refine ih hrest ?_
      by_cases hne : r.records ≠ [] ∨ fs ≠ []
      · exact .inl (records_ne_nil_of_addFindings hadd hne)
      · obtain ⟨hnil, hfs⟩ := not_or.1 hne
        obtain ⟨p, hp, hpne⟩ := hr.resolve_left hnil
        rcases List.mem_cons.1 hp with rfl | hp
        · exact absurd hpne hfs
        · exact .inr ⟨p, hp, hpne⟩

theorem register_of_forall_nil {l : List (Directive × List Finding)} (h : ∀ p ∈ l, p.2 = [])
    (r : Registry) : r.register l = .ok r := by
  induction l with
  | nil => rfl
  | cons p l ih =>
      obtain ⟨d, fs⟩ := p
      obtain ⟨rfl, hl⟩ := List.forall_mem_cons.1 h
      exact ih hl

/-- Registering in an empty registry leaves it empty exactly when there is no finding. -/
theorem register_empty_records_eq_nil {l : List (Directive × List Finding)} :
    (empty.register l).map records = .ok [] ↔ ∀ p ∈ l, p.2 = [] := by
  constructor
  · intro h p hp
    apply Decidable.byContradiction
    intro hne
    cases hr : empty.register l with
    | error e => simp [hr, Except.map] at h
    | ok r' =>
        simp only [hr, Except.map, Except.ok.injEq] at h
        exact records_ne_nil_of_register hr (.inr ⟨p, hp, hne⟩) h
  · intro h
    rw [register_of_forall_nil h]
    rfl

end Registry

/-! ## Places in increasing order -/

/-- The record stands on an earlier line, or further left on the same line. -/
def Record.Before (r : Record) (line column : Nat) : Prop :=
  r.line < line ∨ r.line = line ∧ r.column < column

theorem addMessage_behind {line column : Nat} {rs : List Record}
    (h : ∀ r ∈ rs, r.Before line column) (message : String) (tail : List Record) :
    addMessage line column message (rs ++ tail) = rs ++ addMessage line column message tail := by
  induction rs with
  | nil => rfl
  | cons r rs ih =>
      obtain ⟨hr, hrs⟩ := List.forall_mem_cons.1 h
      unfold Record.Before at hr
      have hat : r.isAt line column = false := by
        simp only [Record.isAt, Bool.and_eq_false_iff, beq_eq_false_iff_ne]
        omega
      have hafter : r.isAfter line column = false := by
        simp only [Record.isAfter, Bool.or_eq_false_iff, Bool.and_eq_false_iff,
          beq_eq_false_iff_ne, decide_eq_false_iff_not]
        omega
      simp [addMessage, hat, hafter, ih hrs]

namespace Registry

theorem add_of_nonneg {line column : Int} (hline : 0 ≤ line) (hcolumn : 0 ≤ column)
    (r : Registry) (message : String) :
    r.add line column message = .ok ⟨addMessage line.toNat column.toNat message r.records⟩ := by
  rw [add, if_neg (by omega), if_neg (by omega)]

theorem addFindings_last {line column : Int} (hline : 0 ≤ line) (hcolumn : 0 ≤ column)
    {rs : List Record} (h : ∀ r ∈ rs, r.Before line.toNat column.toNat) (messages : List String)
    (fs : List Finding) :
    addFindings line column ⟨rs ++ [⟨line.toNat, column.toNat, messages⟩]⟩ fs =
      .ok ⟨rs ++ [⟨line.toNat, column.toNat, messages ++ fs.map Finding.message⟩]⟩ := by
  induction fs generalizing messages with
  | nil => simp [addFindings]
  | cons f fs ih =>
      have hadd : addMessage line.toNat column.toNat f.message
          [⟨line.toNat, column.toNat, messages⟩] =
          [⟨line.toNat, column.toNat, messages ++ [f.message]⟩] := by
        simp [addMessage, Record.isAt]
      simp only [addFindings, add_of_nonneg hline hcolumn, addMessage_behind h, hadd, ih]
      simp

/-- Findings behind all places so far become one new record, unless there are none. -/
theorem addFindings_behind {line column : Int} (hline : 0 ≤ line) (hcolumn : 0 ≤ column)
    {rs : List Record} (h : ∀ r ∈ rs, r.Before line.toNat column.toNat) (fs : List Finding) :
    addFindings line column ⟨rs⟩ fs =
      .ok ⟨rs ++ if fs = [] then [] else [⟨line.toNat, column.toNat, fs.map Finding.message⟩]⟩ := by
  cases fs with
  | nil => simp [addFindings]
  | cons f fs =>
      have hadd := addMessage_behind h f.message []
      rw [List.append_nil] at hadd
      simp only [addFindings, add_of_nonneg hline hcolumn, hadd, addMessage,
        addFindings_last hline hcolumn h]
      simp

end Registry

end UsingStyle
