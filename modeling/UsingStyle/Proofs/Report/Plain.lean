import UsingStyle.Report.Plain

/-! # When plain reports say something

The error stream of plain reports is for failures alone: it stays empty exactly if every file
passes.
-/

namespace UsingStyle.Report

theorem joinLines_eq_empty_iff {lines : List String} : joinLines lines = "" ↔ lines = [] := by
  cases lines with
  | nil => simp [joinLines]
  | cons line lines =>
      have hne : joinLines (line :: lines) ≠ "" := by
        intro h
        have hlen := congrArg String.length h
        rw [joinLines, List.map_cons, String.join_cons, String.length_append, String.length_append]
          at hlen
        simp at hlen
      simp [hne]

theorem errLines_eq_nil_iff {reports : List Report} :
    errLines reports = [] ↔ ∀ r ∈ reports, r.passed = true := by
  unfold errLines
  cases hfailed : reports.filter fun r => !r.passed with
  | nil =>
      have hall := List.filter_eq_nil_iff.1 hfailed
      simpa using hall
  | cons r failed =>
      have hr : r ∈ reports.filter fun r => !r.passed := by
        rw [hfailed]
        exact List.mem_cons_self
      have hmem := List.mem_filter.1 hr
      constructor
      · intro h
        simp at h
      · intro hall
        simp [hall r hmem.1] at hmem

theorem err_renderPlain_eq_empty_iff (verbose : Bool) {reports : List Report} :
    (renderPlain verbose reports).err = "" ↔ ∀ r ∈ reports, r.passed = true := by
  rw [← errLines_eq_nil_iff, ← joinLines_eq_empty_iff]
  rfl

end UsingStyle.Report
