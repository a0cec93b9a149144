import UsingStyle.Proofs.Inspection.Places

/-! # Registries after any attempts

Messages may be offered at any places, negative ones included. An attempt at a negative place is
refused and changes nothing. What the registry holds after any sequence of attempts is therefore
decided place by place: the accepted messages of a place in the order of the attempts, whatever
happened at other places in between.
-/

namespace UsingStyle

/-- An attempt to add a message at a place. -/
structure Attempt where
  line : Int
  column : Int
  message : String
  deriving DecidableEq, Repr

namespace Attempt

/-- Whether the place is negative. -/
def isRefused (a : Attempt) : Bool :=
  a.line < 0 || a.column < 0

def remark (a : Attempt) : Remark :=
  ⟨a.line.toNat, a.column.toNat, a.message⟩

theorem isRefused_iff {a : Attempt} : a.isRefused = true ↔ a.line < 0 ∨ a.column < 0 := by
  simp [isRefused]

theorem isRefused_eq_false_iff {a : Attempt} : a.isRefused = false ↔ 0 ≤ a.line ∧ 0 ≤ a.column := by
  simp [isRefused]

end Attempt

/-- The messages that are accepted, in order. -/
def accepted (as : List Attempt) : List Remark :=
  (as.filter fun a => !a.isRefused).map Attempt.remark

/-- The messages of the attempts at a place, in order. -/
def offeredAt (as : List Attempt) (line column : Int) : List String :=
  (as.filter fun a => a.line = line ∧ a.column = column).map Attempt.message

namespace Registry

/-- The registry after an attempt, and the error if the attempt is refused. -/
def attempt (r : Registry) (a : Attempt) : Registry × Option InspectionError :=
  match r.add a.line a.column a.message with
  | .ok r' => (r', none)
  | .error e => (r, some e)

/-- The registry after all attempts. -/
def attempts (r : Registry) (as : List Attempt) : Registry :=
  as.foldl (fun r a => (r.attempt a).1) r

/-! ## One attempt -/

theorem attempt_of_accepted {a : Attempt} (h : a.isRefused = false) (r : Registry) :
    r.attempt a =
      (⟨addMessage a.remark.line a.remark.column a.remark.message r.records⟩, none) := by
  obtain ⟨hline, hcolumn⟩ := Attempt.isRefused_eq_false_iff.1 h
  rw [attempt, add_of_nonneg hline hcolumn]
  rfl

theorem attempt_of_refused {a : Attempt} (h : a.isRefused = true) (r : Registry) :
    ∃ e, r.attempt a = (r, some e) := by
  rw [attempt, add]
  by_cases hline : a.line < 0
  · rw [if_pos hline]
    exact ⟨_, rfl⟩
  · have hcolumn : a.column < 0 := (Attempt.isRefused_iff.1 h).resolve_left hline
    rw [if_neg hline, if_pos hcolumn]
    exact ⟨_, rfl⟩

theorem isSome_attempt (r : Registry) (a : Attempt) : (r.attempt a).2.isSome = a.isRefused := by
  cases h : a.isRefused with
  | false => rw [attempt_of_accepted h]; rfl
  | true =>
      obtain ⟨e, he⟩ := attempt_of_refused h r
      rw [he]
      rfl

/-! ## All attempts -/

theorem records_attempts (r : Registry) (as : List Attempt) :
    (r.attempts as).records = collect r.records (accepted as) := by
  induction as generalizing r with
  | nil => rfl
  | cons a as ih =>
      rw [attempts, List.foldl_cons, ← attempts, ih]
      cases h : a.isRefused with
      | false =>
          rw [attempt_of_accepted h, accepted, accepted, List.filter_cons_of_pos (by simp [h])]
          rfl
      | true =>
          obtain ⟨e, he⟩ := attempt_of_refused h r
          rw [he, accepted, accepted, List.filter_cons_of_neg (by simp [h])]

theorem groups_attempts (as : List Attempt) :
    Groups (accepted as) (empty.attempts as).records := by
  rw [records_attempts]
  exact groups_nil.collect (accepted as)

end Registry

/-- What is offered at a place that is not negative is accepted. -/
theorem messagesAt_accepted (as : List Attempt) (line column : Nat) :
    messagesAt (accepted as) (toLex (line, column)) = offeredAt as line column := by
  have hplace : ∀ a : Attempt, (!a.isRefused && decide (a.remark.place = toLex (line, column))) =
      decide (a.line = line ∧ a.column = column) := by
    intro a
    rw [Bool.eq_iff_iff, Bool.and_eq_true, Bool.not_eq_true', Attempt.isRefused_eq_false_iff,
      decide_eq_true_iff, decide_eq_true_iff, Remark.place, toLex_inj, Prod.mk.injEq]
    simp only [Attempt.remark]
    omega
  rw [messagesAt, accepted, offeredAt, List.filter_map, List.map_map, List.filter_filter]
  congr 1
  refine List.filter_congr fun a _ => ?_
  rw [Bool.and_comm]
  exact hplace a

theorem offeredAt_ne_nil_iff {as : List Attempt} {line column : Int} :
    offeredAt as line column ≠ [] ↔ ∃ a ∈ as, a.line = line ∧ a.column = column := by
  simp [offeredAt]

namespace Registry

theorem exists_record_iff (as : List Attempt) (line column : Nat) :
    (∃ r ∈ (empty.attempts as).records, r.line = line ∧ r.column = column) ↔
      ∃ a ∈ as, a.line = line ∧ a.column = column := by
  rw [← offeredAt_ne_nil_iff, ← messagesAt_accepted, ← (groups_attempts as).mem_places]
  simp only [Record.place, toLex_inj, Prod.mk.injEq]

/-- There is one record for each place at which a message is accepted. -/
theorem size_attempts (as : List Attempt) :
    (empty.attempts as).size = ((accepted as).map Remark.place).toFinset.card := by
  have hplaces := congrArg List.length (groups_attempts as).map_place
  rwa [List.length_map, places, Finset.length_sort] at hplaces

/-- Attempts that offer the same messages at each place lead to the same registry. -/
theorem attempts_congr {as bs : List Attempt}
    (h : ∀ line column : Nat, offeredAt as line column = offeredAt bs line column) :
    empty.attempts as = empty.attempts bs := by
  have hsame : ∀ p, messagesAt (accepted as) p = messagesAt (accepted bs) p := by
    intro p
    have hp := h (ofLex p).1 (ofLex p).2
    rwa [← messagesAt_accepted, ← messagesAt_accepted] at hp
  have hgroups : Groups (accepted bs) (empty.attempts as).records :=
    { sorted := (groups_attempts as).sorted
      errors_eq := fun r hr => by rw [(groups_attempts as).errors_eq r hr, hsame]
      mem_places := fun p => by rw [(groups_attempts as).mem_places, hsame] }
  exact congrArg Registry.mk (hgroups.eq_grouped.trans (groups_attempts bs).eq_grouped.symm)

/-- An attempt is refused exactly at a negative place, and then the registry stays as it is. After
any attempts the records stand in strictly increasing order at the places with an accepted message,
each with the messages offered there in the order of the attempts, and the size counts them.
Attempts at different places commute. -/
theorem records_of_attempts :
    (∀ (r : Registry) (a : Attempt),
      ((r.attempt a).2.isSome = true ↔ a.line < 0 ∨ a.column < 0) ∧
      ((r.attempt a).2.isSome = true → (r.attempt a).1 = r)) ∧
    (∀ as : List Attempt,
      (empty.attempts as).records.Pairwise
        (fun q r => q.line < r.line ∨ q.line = r.line ∧ q.column < r.column) ∧
      (∀ line column : Nat,
        (∃ r ∈ (empty.attempts as).records, r.line = line ∧ r.column = column) ↔
          ∃ a ∈ as, a.line = line ∧ a.column = column) ∧
      (∀ r ∈ (empty.attempts as).records, r.errors = offeredAt as r.line r.column) ∧
      (empty.attempts as).size = (empty.attempts as).records.length ∧
      (empty.attempts as).size = ((accepted as).map Remark.place).toFinset.card) ∧
    ∀ as bs : List Attempt,
      (∀ line column : Nat, offeredAt as line column = offeredAt bs line column) →
        empty.attempts as = empty.attempts bs := by
  refine ⟨fun r a => ⟨?_, fun h => ?_⟩, fun as => ⟨?_, exists_record_iff as, fun r hr => ?_, rfl,
    size_attempts as⟩, fun as bs => attempts_congr⟩
  · rw [isSome_attempt, Attempt.isRefused_iff]
  · rw [isSome_attempt] at h
    obtain ⟨e, he⟩ := attempt_of_refused h r
    rw [he]
  · refine (groups_attempts as).sorted.imp fun h => ?_
    exact Prod.Lex.toLex_lt_toLex.1 h
  · rw [(groups_attempts as).errors_eq r hr, Record.place, messagesAt_accepted]

/-- A refused attempt in between, and two messages at one place. -/
theorem attempts_in_other_order :
    (empty.attempts [⟨1, 1, "b"⟩, ⟨0, -1, "c"⟩, ⟨0, 0, "a"⟩, ⟨1, 1, "b"⟩]).records =
        [⟨0, 0, ["a"]⟩, ⟨1, 1, ["b", "b"]⟩] ∧
      empty.attempts [⟨1, 1, "b"⟩, ⟨0, -1, "c"⟩, ⟨0, 0, "a"⟩, ⟨1, 1, "b"⟩] =
        empty.attempts [⟨0, 0, "a"⟩, ⟨1, 1, "b"⟩, ⟨1, 1, "b"⟩] := by
  refine ⟨by decide, records_of_attempts.2.2 _ _ fun line column => ?_⟩
  simp only [offeredAt, List.filter_cons, List.filter_nil, decide_eq_true_eq]
  rw [if_neg (show ¬ ((0 : Int) = line ∧ (-1 : Int) = column) by omega)]
  by_cases hfirst : (0 : Int) = line ∧ (0 : Int) = column
  · have hsecond : ¬ ((1 : Int) = line ∧ (1 : Int) = column) := by omega
    simp only [if_pos hfirst, if_neg hsecond]
  · simp only [if_neg hfirst]

end Registry

end UsingStyle
