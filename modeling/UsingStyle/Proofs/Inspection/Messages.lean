import UsingStyle.Proofs.Inspection.Findings
import UsingStyle.Proofs.Text.Lines

/-! # Messages are lines

Whatever a message repeats of a source is quoted, so no message breaks the line, and none of the
records of an inspection holds a message that does.
-/

namespace UsingStyle

open Text

theorem isOneLine_message (f : Finding) : IsOneLine f.message := by
  have hcode : ∀ d : Directive, IsOneLine d.code := fun d => isOneLine_quote _
  delta Finding.message
  cases f
  -- the fixed words of each message are left
  all_goals
    simp only [isOneLine_append_iff, hcode, isOneLine_quote, isOneLine_integer, and_true]
    and_intros
  all_goals exact isOneLine_ofList_iff.2 (by decide)

/-- No message breaks the line. -/
def Record.IsLined (r : Record) : Prop :=
  ∀ message ∈ r.errors, IsOneLine message

instance (r : Record) : Decidable r.IsLined :=
  inferInstanceAs (Decidable (∀ message ∈ r.errors, IsOneLine message))

theorem isLined_addMessage {line column : Nat} {message : String} {rs : List Record}
    (hmessage : IsOneLine message) (hrs : ∀ r ∈ rs, r.IsLined) :
    ∀ r ∈ addMessage line column message rs, r.IsLined := by
  have hnew : (⟨line, column, [message]⟩ : Record).IsLined := List.forall_mem_singleton.2 hmessage
  induction rs with
  | nil => exact List.forall_mem_singleton.2 hnew
  | cons r rs ih =>
      obtain ⟨hr, hrest⟩ := List.forall_mem_cons.1 hrs
      rw [addMessage]
      split
      · refine List.forall_mem_cons.2 ⟨?_, hrest⟩
        exact List.forall_mem_append.2 ⟨hr, List.forall_mem_singleton.2 hmessage⟩
      · split
        · exact List.forall_mem_cons.2 ⟨hnew, hrs⟩
        · exact List.forall_mem_cons.2 ⟨hr, ih hrest⟩

namespace Registry

theorem isLined_add {r r' : Registry} {line column : Int} {message : String}
    (hmessage : IsOneLine message) (hr : ∀ record ∈ r.records, record.IsLined)
    (h : r.add line column message = .ok r') : ∀ record ∈ r'.records, record.IsLined := by
  unfold add at h
  split at h
  · contradiction
  · split at h
    · contradiction
    · cases h
      exact isLined_addMessage hmessage hr

theorem isLined_addFindings {r r' : Registry} {line column : Int} {fs : List Finding}
    (hr : ∀ record ∈ r.records, record.IsLined) (h : r.addFindings line column fs = .ok r') :
    ∀ record ∈ r'.records, record.IsLined := by
  induction fs generalizing r with
  | nil =>
      cases h
      exact hr
  | cons f fs ih =>
      unfold addFindings at h
      split at h
      · contradiction
      · rename_i r₁ hadd
        exact ih (isLined_add (isOneLine_message f) hr hadd) h

end Registry

/-- Whoever judges the places of the directives, the messages stay lines. -/
theorem isLined_inspectFrom {judge : Order → Directive → Except InspectionError (List Finding)}
    {o : Order} {r : Registry} {ds : List Directive} {records : List Record}
    (hr : ∀ record ∈ r.records, record.IsLined)
    (h : inspectFrom judge o r ds = .ok records) : ∀ record ∈ records, record.IsLined := by
  induction ds generalizing o r with
  | nil =>
      cases h
      exact hr
  | cons d ds ih =>
      simp only [inspectFrom, bind_eq_ok] at h
      obtain ⟨r₁, hmarking, fs, _, r₂, hplace, hrest⟩ := h
      have hr₁ := Registry.isLined_addFindings hr hmarking
      exact ih (Registry.isLined_addFindings hr₁ hplace) hrest

end UsingStyle
