import UsingStyle.Proofs.Inspection.Registry
import Mathlib.Data.Finset.Sort
import Mathlib.Data.Prod.Lex

/-! # Records by place

Messages arrive one by one, at places in any order. `Groups` says without a state what the records
of a log of messages are: strictly ordered by place, one for each place with a message, with the
messages of the place in the order of the log. Adding a message keeps this, so any log is grouped,
and there is only one way to group it.
-/

namespace UsingStyle

/-- A message at a place. -/
structure Remark where
  line : Nat
  column : Nat
  message : String
  deriving DecidableEq, Repr

def Remark.place (m : Remark) : Nat ×ₗ Nat :=
  toLex (m.line, m.column)

def Record.place (r : Record) : Nat ×ₗ Nat :=
  toLex (r.line, r.column)

/-- The messages at a place, in the order of the log. -/
def messagesAt (log : List Remark) (p : Nat ×ₗ Nat) : List String :=
  (log.filter fun m => m.place = p).map Remark.message

theorem messagesAt_concat_self (log : List Remark) (m : Remark) :
    messagesAt (log ++ [m]) m.place = messagesAt log m.place ++ [m.message] := by
  simp [messagesAt]

theorem messagesAt_concat_of_ne (log : List Remark) {m : Remark} {p : Nat ×ₗ Nat}
    (h : m.place ≠ p) : messagesAt (log ++ [m]) p = messagesAt log p := by
  simp [messagesAt, h]

theorem messagesAt_ne_nil_iff {log : List Remark} {p : Nat ×ₗ Nat} :
    messagesAt log p ≠ [] ↔ ∃ m ∈ log, m.place = p := by
  simp [messagesAt]

/-! ## Adding a message -/

/-- The records after the messages of the log. -/
def collect (rs : List Record) (log : List Remark) : List Record :=
  log.foldl (fun rs m => addMessage m.line m.column m.message rs) rs

theorem Record.isAt_iff {r : Record} {m : Remark} :
    r.isAt m.line m.column = true ↔ r.place = m.place := by
  simp [Record.isAt, Record.place, Remark.place]

theorem Record.isAfter_iff {r : Record} {m : Remark} :
    r.isAfter m.line m.column = true ↔ m.place < r.place := by
  simp [Record.isAfter, Record.place, Remark.place, Prod.Lex.toLex_lt_toLex]

/-- A message goes to the end of the record at its place. Where there is none, it becomes a record
between those before and those behind its place. -/
theorem addMessage_cases {rs : List Record} (hsorted : rs.Pairwise (fun a b => a.place < b.place))
    (m : Remark) :
    ∃ front rear, (∀ r ∈ front, r.place < m.place) ∧ (∀ r ∈ rear, m.place < r.place) ∧
      (rs = front ++ rear ∧ addMessage m.line m.column m.message rs =
          front ++ ⟨m.line, m.column, [m.message]⟩ :: rear ∨
        ∃ errors, rs = front ++ ⟨m.line, m.column, errors⟩ :: rear ∧
          addMessage m.line m.column m.message rs =
            front ++ ⟨m.line, m.column, errors ++ [m.message]⟩ :: rear) := by
  induction rs with
  | nil => exact ⟨[], [], by simp, by simp, .inl ⟨rfl, rfl⟩⟩
  | cons r rs ih =>
      obtain ⟨hr, hrs⟩ := List.pairwise_cons.1 hsorted
      by_cases hat : r.place = m.place
      · have hplace : r.line = m.line ∧ r.column = m.column := by
          simpa [Record.place, Remark.place] using hat
        refine ⟨[], rs, by simp, fun q hq => hat ▸ hr q hq, .inr ⟨r.errors, ?_, ?_⟩⟩
        · rw [← hplace.1, ← hplace.2]
          rfl
        · rw [addMessage, if_pos (Record.isAt_iff.2 hat), ← hplace.1, ← hplace.2]
          rfl
      · have hnot : ¬ r.isAt m.line m.column = true := fun h => hat (Record.isAt_iff.1 h)
        by_cases hafter : m.place < r.place
        · refine ⟨[], r :: rs, by simp, ?_, .inl ⟨rfl, ?_⟩⟩
          · exact List.forall_mem_cons.2 ⟨hafter, fun q hq => hafter.trans (hr q hq)⟩
          · rw [addMessage, if_neg hnot, if_pos (Record.isAfter_iff.2 hafter)]
            rfl
        · have hadd : addMessage m.line m.column m.message (r :: rs) =
              r :: addMessage m.line m.column m.message rs := by
            rw [addMessage, if_neg hnot, if_neg (fun h => hafter (Record.isAfter_iff.1 h))]
          have hbefore : r.place < m.place := lt_of_le_of_ne (not_lt.1 hafter) hat
          obtain ⟨front, rear, hfront, hrear, hcut⟩ := ih hrs
          refine ⟨r :: front, rear, List.forall_mem_cons.2 ⟨hbefore, hfront⟩, hrear, ?_⟩
          rw [hadd]
          rcases hcut with ⟨hrs', hnew⟩ | ⟨errors, hrs', hnew⟩
          · exact .inl ⟨by rw [hrs']; rfl, by rw [hnew]; rfl⟩
          · exact .inr ⟨errors, by rw [hrs']; rfl, by rw [hnew]; rfl⟩

/-! ## Grouped messages -/

/-- The records hold the messages of the log place by place. -/
structure Groups (log : List Remark) (rs : List Record) : Prop where
  sorted : rs.Pairwise (fun a b => a.place < b.place)
  errors_eq : ∀ r ∈ rs, r.errors = messagesAt log r.place
  mem_places : ∀ p, (∃ r ∈ rs, r.place = p) ↔ messagesAt log p ≠ []

theorem groups_nil : Groups [] [] :=
  ⟨.nil, by simp, by simp [messagesAt]⟩

theorem place_ne_of_cut {m : Remark} {front rear : List Record}
    (hfront : ∀ r ∈ front, r.place < m.place) (hrear : ∀ r ∈ rear, m.place < r.place) :
    ∀ r ∈ front ++ rear, r.place ≠ m.place := by
  intro r hr
  rcases List.mem_append.1 hr with hr | hr
  · exact (hfront r hr).ne
  · exact (hrear r hr).ne'

/-- A record of the messages at the place of `m`, put between the records of the other places. -/
theorem groups_concat {log : List Remark} {m : Remark} {front rear : List Record}
    (hfront : ∀ r ∈ front, r.place < m.place) (hrear : ∀ r ∈ rear, m.place < r.place)
    (hsorted : (front ++ rear).Pairwise (fun a b => a.place < b.place))
    (herrors : ∀ r ∈ front ++ rear, r.errors = messagesAt log r.place)
    (hplaces : ∀ p ≠ m.place, (∃ r ∈ front ++ rear, r.place = p) ↔ messagesAt log p ≠ []) :
    Groups (log ++ [m])
      (front ++ ⟨m.line, m.column, messagesAt log m.place ++ [m.message]⟩ :: rear) := by
  have hmem : ∀ r, r ∈ front ++ ⟨m.line, m.column, messagesAt log m.place ++ [m.message]⟩ :: rear ↔
      r = ⟨m.line, m.column, messagesAt log m.place ++ [m.message]⟩ ∨ r ∈ front ++ rear := by
    intro r
    simp only [List.mem_append, List.mem_cons]
    tauto
  refine ⟨?_, fun r hr => ?_, fun p => ?_⟩
  · obtain ⟨hsfront, hsrear, hcross⟩ := List.pairwise_append.1 hsorted
    refine List.pairwise_append.2
      ⟨hsfront, List.pairwise_cons.2 ⟨hrear, hsrear⟩, fun a ha b hb => ?_⟩
    rcases List.mem_cons.1 hb with rfl | hb
    · exact hfront a ha
    · exact hcross a ha b hb
  · rcases (hmem r).1 hr with rfl | hr
    · exact (messagesAt_concat_self log m).symm
    · rw [messagesAt_concat_of_ne log (place_ne_of_cut hfront hrear r hr).symm]
      exact herrors r hr
  · by_cases hp : m.place = p
    · subst hp
      rw [messagesAt_concat_self]
      exact iff_of_true ⟨_, (hmem _).2 (.inl rfl), rfl⟩ (by simp)
    · rw [messagesAt_concat_of_ne log hp, ← hplaces p (Ne.symm hp)]
      refine exists_congr fun r => ?_
      rw [hmem]
      constructor
      · rintro ⟨rfl | hr, hplace⟩
        · exact absurd hplace hp
        · exact ⟨hr, hplace⟩
      · exact fun h => ⟨.inr h.1, h.2⟩

namespace Groups

variable {log : List Remark} {rs : List Record}

/-- Adding a message keeps the records grouped. -/
theorem addMessage (h : Groups log rs) (m : Remark) :
    Groups (log ++ [m]) (UsingStyle.addMessage m.line m.column m.message rs) := by
  obtain ⟨front, rear, hfront, hrear, hcut⟩ := addMessage_cases h.sorted m
  rcases hcut with ⟨rfl, hnew⟩ | ⟨errors, rfl, hnew⟩
  · have hnone : messagesAt log m.place = [] := by
      by_contra hne
      obtain ⟨r, hr, hplace⟩ := (h.mem_places m.place).2 hne
      exact place_ne_of_cut hfront hrear r hr hplace
    have := groups_concat hfront hrear h.sorted h.errors_eq fun p _ => h.mem_places p
    rwa [hnone, List.nil_append, ← hnew] at this
  · have hsub : (front ++ rear).Sublist (front ++ ⟨m.line, m.column, errors⟩ :: rear) :=
      List.Sublist.append_left (List.sublist_cons_self _ _) front
    have herrors : errors = messagesAt log m.place :=
      h.errors_eq ⟨m.line, m.column, errors⟩ (by simp)
    rw [hnew, herrors]
    refine groups_concat hfront hrear (h.sorted.sublist hsub)
      (fun r hr => h.errors_eq r (hsub.subset hr)) fun p hp => ?_
    rw [← h.mem_places p]
    refine exists_congr fun r => ?_
    simp only [List.mem_append, List.mem_cons]
    constructor
    · tauto
    · rintro ⟨hr | rfl | hr, hplace⟩
      · exact ⟨.inl hr, hplace⟩
      · exact absurd hplace.symm hp
      · exact ⟨.inr hr, hplace⟩

theorem collect (h : Groups log rs) (more : List Remark) :
    Groups (log ++ more) (UsingStyle.collect rs more) := by
  induction more generalizing log rs with
  | nil => simpa [UsingStyle.collect] using h
  | cons m more ih =>
      have := ih (h.addMessage m)
      rwa [List.append_assoc, List.singleton_append] at this

end Groups

/-! ## The only way to group -/

/-- The places of the log, each one once and in order. -/
def places (log : List Remark) : List (Nat ×ₗ Nat) :=
  (log.map Remark.place).toFinset.sort

/-- The messages of the log, place by place. -/
def grouped (log : List Remark) : List Record :=
  (places log).map fun p => ⟨(ofLex p).1, (ofLex p).2, messagesAt log p⟩

theorem Groups.map_place {log : List Remark} {rs : List Record} (h : Groups log rs) :
    rs.map Record.place = places log := by
  have hsorted : (rs.map Record.place).Pairwise (· < ·) := List.pairwise_map.2 h.sorted
  have hsame : (rs.map Record.place).toFinset = (log.map Remark.place).toFinset := by
    ext p
    rw [List.mem_toFinset, List.mem_toFinset, List.mem_map, List.mem_map, h.mem_places p,
      messagesAt_ne_nil_iff]
  rw [places, ← hsame]
  exact ((List.toFinset_sort (· ≤ ·) hsorted.nodup).2 (hsorted.imp le_of_lt)).symm

theorem Groups.eq_grouped {log : List Remark} {rs : List Record} (h : Groups log rs) :
    rs = grouped log := by
  have hself : ∀ r ∈ rs, (⟨r.line, r.column, messagesAt log r.place⟩ : Record) = r := by
    intro r hr
    rw [← h.errors_eq r hr]
  rw [grouped, ← h.map_place, List.map_map]
  exact (List.map_id' _).symm.trans (List.map_congr_left fun r hr => (hself r hr).symm)

theorem collect_eq_grouped (log : List Remark) : collect [] log = grouped log :=
  (groups_nil.collect log).eq_grouped

theorem groups_grouped (log : List Remark) : Groups log (grouped log) := by
  rw [← collect_eq_grouped]
  exact groups_nil.collect log

/-! ## Every message once -/

/-- The messages of a record, each with its place. -/
def Record.remarks (r : Record) : List Remark :=
  r.errors.map fun message => ⟨r.line, r.column, message⟩

theorem perm_remarks_addMessage (m : Remark) (rs : List Record) :
    ((addMessage m.line m.column m.message rs).flatMap Record.remarks).Perm
      (rs.flatMap Record.remarks ++ [m]) := by
  induction rs with
  | nil => simp [addMessage, Record.remarks]
  | cons r rs ih =>
      rw [addMessage]
      split
      · rename_i hat
        have hplace : r.line = m.line ∧ r.column = m.column := by
          simpa [Record.isAt] using hat
        have hremarks : ({ r with errors := r.errors ++ [m.message] } : Record).remarks =
            r.remarks ++ [m] := by
          simp [Record.remarks, hplace.1, hplace.2]
        rw [List.flatMap_cons, List.flatMap_cons, hremarks, List.append_assoc, List.append_assoc]
        exact List.Perm.append_left _ List.perm_append_comm
      · split
        · exact (List.perm_append_singleton m _).symm
        · rw [List.flatMap_cons, List.flatMap_cons, List.append_assoc]
          exact ih.append_left _

theorem perm_remarks_collect (rs : List Record) (log : List Remark) :
    ((collect rs log).flatMap Record.remarks).Perm (rs.flatMap Record.remarks ++ log) := by
  induction log generalizing rs with
  | nil => simp [collect]
  | cons m log ih =>
      refine (ih _).trans ?_
      have hstep := (perm_remarks_addMessage m rs).append_right log
      rwa [List.append_assoc] at hstep

/-- No message is lost, and none is held twice. -/
theorem perm_remarks_grouped (log : List Remark) :
    ((grouped log).flatMap Record.remarks).Perm log := by
  rw [← collect_eq_grouped]
  exact perm_remarks_collect [] log

end UsingStyle
