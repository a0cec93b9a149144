import UsingStyle.Inspection.File
import UsingStyle.Proofs.Inspection.Records
import UsingStyle.Proofs.Pool

/-! # Inspecting many files

A file fails only where its text cannot be read or decoded: the inspection of a text always
succeeds. Over many files the outcome is that of the loop over the files, one after the other, which
stops at the first failure. How many workers share the files and how they take turns does not show.
-/

namespace UsingStyle

/-! ## One file -/

/-- The text of the file that a path leads to. -/
def FileTree.readText (codecs : Codecs) (t : FileTree) (encoding : String) (p : Path) :
    Except FileError String :=
  if encoding.toList.contains '\x00' then .error .nullInEncoding
  else if p.text.toList.contains '\x00' then .error .nullInPath
  else (t.read p).bind (decodeText codecs encoding)

/-- The report of a file with the given text. -/
def Report.ofText (key : SortKey) (p : Path) (text : String) : Report :=
  ⟨p.text, (offending key (scan text)).map Record.ofFindings⟩

/-- The report of one file. -/
def reportFile (codecs : Codecs) (t : FileTree) (key : SortKey) (encoding : String) (p : Path) :
    Except FileError Report :=
  (inspectFile codecs t key encoding p).map FileInspection.report

theorem inspectText_eq_ofText (key : SortKey) (p : Path) (text : String) :
    inspectText key text = .ok (Report.ofText key p text).records :=
  inspectText_eq key text

theorem inspectFile_eq (codecs : Codecs) (t : FileTree) (key : SortKey) (encoding : String)
    (p : Path) :
    inspectFile codecs t key encoding p = (t.readText codecs encoding p).map fun text =>
      ⟨(scan text).length, Report.ofText key p text⟩ := by
  by_cases hencoding : encoding.toList.contains '\x00' = true
  · simp only [inspectFile, FileTree.readText, if_pos hencoding]
    rfl
  by_cases hpath : p.text.toList.contains '\x00' = true
  · simp only [inspectFile, FileTree.readText, if_neg hencoding, if_pos hpath]
    rfl
  simp only [inspectFile, FileTree.readText, if_neg hencoding, if_neg hpath]
  cases hread : t.read p with
  | error e => rfl
  | ok bytes =>
      cases htext : decodeText codecs encoding bytes with
      | error e =>
          simp only [bind, Except.bind, htext]
          rfl
      | ok text =>
          have hinspect : inspect key (scan text) = .ok (Report.ofText key p text).records :=
            inspectText_eq_ofText key p text
          simp only [bind, Except.bind, htext, hinspect]
          rfl

theorem reportFile_eq (codecs : Codecs) (t : FileTree) (key : SortKey) (encoding : String)
    (p : Path) :
    reportFile codecs t key encoding p =
      (t.readText codecs encoding p).map (Report.ofText key p) := by
  rw [reportFile, inspectFile_eq]
  cases t.readText codecs encoding p <;> rfl

/-! ## Up to the first error -/

section UntilError

variable {ε α β γ : Type}

/-- The error is that of the first element that fails. -/
theorem untilError_snd_eq_some_iff {f : α → Except ε β} {l : List α} {e : ε} :
    (untilError (l.map f)).2 = some e ↔
      ∃ before a after, l = before ++ a :: after ∧ (∀ b ∈ before, ∃ c, f b = .ok c) ∧
        f a = .error e := by
  induction l with
  | nil => simp [untilError]
  | cons a l ih =>
      cases ha : f a with
      | error e' =>
          rw [List.map_cons, ha, untilError]
          constructor
          · intro h
            cases h
            exact ⟨[], a, l, rfl, by simp, ha⟩
          · rintro ⟨before, a', after, heq, hbefore, he⟩
            cases before with
            | nil =>
                cases heq
                rw [ha] at he
                cases he
                rfl
            | cons b before =>
                cases heq
                obtain ⟨c, hc⟩ := hbefore a List.mem_cons_self
                rw [ha] at hc
                contradiction
      | ok b =>
          rw [List.map_cons, ha, untilError, ih]
          constructor
          · rintro ⟨before, a', after, rfl, hbefore, he⟩
            exact ⟨a :: before, a', after, rfl, List.forall_mem_cons.2 ⟨⟨b, ha⟩, hbefore⟩, he⟩
          · rintro ⟨before, a', after, heq, hbefore, he⟩
            cases before with
            | nil =>
                cases heq
                rw [ha] at he
                contradiction
            | cons b' before =>
                cases heq
                exact ⟨before, a', after, rfl, (List.forall_mem_cons.1 hbefore).2, he⟩

/-- The loop that stops at the first error. -/
theorem mapM_eq_untilError (f : α → Except ε β) (g : β → γ) (l : List α) :
    (l.mapM fun a => (f a).map g) =
      (untilError (l.map f)).2.elim (.ok ((untilError (l.map f)).1.map g)) .error := by
  induction l with
  | nil => rfl
  | cons a l ih =>
      rw [List.mapM_cons, ih, List.map_cons]
      cases f a with
      | error e => rfl
      | ok b =>
          rw [untilError]
          cases (untilError (l.map f)).2 <;> rfl

theorem mapM_eq_ok_iff {f : α → Except ε β} {l : List α} {bs : List β} :
    l.mapM f = .ok bs ↔ List.Forall₂ (fun a b => f a = .ok b) l bs := by
  induction l generalizing bs with
  | nil => cases bs <;> simp [pure, Except.pure]
  | cons a l ih =>
      rw [List.mapM_cons]
      cases ha : f a with
      | error e => cases bs <;> simp [bind, Except.bind, ha]
      | ok b =>
          cases hl : l.mapM f with
          | error e => cases bs <;> simp [bind, Except.bind, ← ih, ha, hl]
          | ok rest => cases bs <;> simp [bind, Except.bind, pure, Except.pure, ← ih, ha, hl]

end UntilError

/-! ## Many files -/

theorem inspectFiles_eq (codecs : Codecs) (t : FileTree) (key : SortKey) (encoding : String)
    (workers : Workers) (turns : List Nat) (ps : List Path) :
    inspectFiles codecs t key encoding workers turns ps =
      untilError (ps.map (inspectFile codecs t key encoding)) := by
  unfold inspectFiles
  dsimp only
  split
  · rfl
  · rw [Pool.results_eq_map]

theorem reportFiles_eq_elim (codecs : Codecs) (t : FileTree) (key : SortKey) (encoding : String)
    (workers : Workers) (turns : List Nat) (ps : List Path) :
    reportFiles t key encoding workers turns ps codecs =
      (untilError (ps.map (inspectFile codecs t key encoding))).2.elim
        (.ok ((untilError (ps.map (inspectFile codecs t key encoding))).1.map
          FileInspection.report))
        .error := by
  unfold reportFiles
  rw [inspectFiles_eq]
  rcases untilError (ps.map (inspectFile codecs t key encoding)) with ⟨is, _ | e⟩ <;> rfl

section

variable {codecs : Codecs} {t : FileTree} {encoding : String} {p : Path}

theorem exists_inspectFile_iff {key : SortKey} :
    (∃ i, inspectFile codecs t key encoding p = .ok i) ↔
      ∃ text, t.readText codecs encoding p = .ok text := by
  rw [inspectFile_eq]
  cases t.readText codecs encoding p <;> simp [Except.map]

theorem inspectFile_eq_error_iff {key : SortKey} {e : FileError} :
    inspectFile codecs t key encoding p = .error e ↔ t.readText codecs encoding p = .error e := by
  rw [inspectFile_eq]
  cases t.readText codecs encoding p <;> simp [Except.map]

theorem reportFile_eq_ok_iff {key : SortKey} {r : Report} :
    reportFile codecs t key encoding p = .ok r ↔ r.path = p.text ∧
      ∃ text, t.readText codecs encoding p = .ok text ∧ inspectText key text = .ok r.records := by
  rw [reportFile_eq]
  cases t.readText codecs encoding p with
  | error e => simp [Except.map]
  | ok text =>
      have hinspect := inspectText_eq_ofText key p text
      constructor
      · intro h
        cases h
        exact ⟨rfl, text, rfl, hinspect⟩
      · rintro ⟨hpath, text', htext, hrecords⟩
        cases htext
        rw [hinspect] at hrecords
        obtain ⟨path, records⟩ := r
        cases hpath
        cases hrecords
        rfl

/-- The first file that cannot be read decides the error of a set of files. -/
theorem firstError_eq_some_iff (key : SortKey) {ps : List Path} {e : FileError} :
    (untilError (ps.map (inspectFile codecs t key encoding))).2 = some e ↔
      ∃ before p after, ps = before ++ p :: after ∧
        (∀ q ∈ before, ∃ text, t.readText codecs encoding q = .ok text) ∧
        t.readText codecs encoding p = .error e := by
  simp only [untilError_snd_eq_some_iff, exists_inspectFile_iff, inspectFile_eq_error_iff]

end

/-- Whatever codecs decode the files, however many workers share them and in whatever order they
act, the outcome is that of the loop over the files: one report for each path, in the order of the
paths, or the error of the first path whose file cannot be read. -/
theorem reportFiles_eq_loop (codecs : Codecs) (t : FileTree) (key : SortKey) (encoding : String)
    (workers : Workers) (turns : List Nat) (ps : List Path) :
    reportFiles t key encoding workers turns ps codecs =
        ps.mapM (reportFile codecs t key encoding) ∧
      (∀ reports, reportFiles t key encoding workers turns ps codecs = .ok reports ↔
        List.Forall₂ (fun p (r : Report) => r.path = p.text ∧
          ∃ text, t.readText codecs encoding p = .ok text ∧ inspectText key text = .ok r.records)
          ps reports) ∧
      (∀ e, reportFiles t key encoding workers turns ps codecs = .error e ↔
        ∃ before p after, ps = before ++ p :: after ∧
          (∀ q ∈ before, ∃ text, t.readText codecs encoding q = .ok text) ∧
          t.readText codecs encoding p = .error e) := by
  have hloop : reportFiles t key encoding workers turns ps codecs =
      ps.mapM (reportFile codecs t key encoding) := by
    rw [reportFiles_eq_elim]
    exact (mapM_eq_untilError (inspectFile codecs t key encoding) FileInspection.report ps).symm
  refine ⟨hloop, ?_, ?_⟩
  · intro reports
    rw [hloop, mapM_eq_ok_iff]
    simp only [reportFile_eq_ok_iff]
  · intro e
    rw [← firstError_eq_some_iff key, reportFiles_eq_elim]
    cases (untilError (ps.map (inspectFile codecs t key encoding))).2 <;> simp

end UsingStyle
