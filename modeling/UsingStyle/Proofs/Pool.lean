import UsingStyle.Pool
import Mathlib.Data.List.Perm.Basic

/-! # What a pool hands out

A turn moves one job: from those that wait into a hand, or from a hand to the results. So the jobs
of the pool, each with the result that it has or will have, stay the same up to their order, and
every job is worked on once. Handing out the results by number then undoes the order of the turns.
-/

namespace UsingStyle.Pool

variable {α β : Type}

/-- The result of a job, with the number of the job. -/
def outcome (work : α → β) (job : α × Nat) : β × Nat :=
  (work job.1, job.2)

/-! ## One turn -/

/-- What a hand gives up and what it takes in balance. -/
theorem perm_hands_set {hands : List (Option (α × Nat))} {worker : Nat}
    {old : Option (α × Nat)} (h : hands[worker]? = some old) (new : Option (α × Nat)) :
    (old.toList ++ (hands.set worker new).filterMap id).Perm
      (new.toList ++ hands.filterMap id) := by
  obtain ⟨hlt, rfl⟩ := List.getElem?_eq_some_iff.1 h
  have hmiddle : ∀ hand : Option (α × Nat),
      ((hands.take worker ++ hand :: hands.drop (worker + 1)).filterMap id).Perm
        (hand.toList ++ (hands.take worker ++ hands.drop (worker + 1)).filterMap id) := by
    intro hand
    cases hand with
    | none => simp
    | some job => simp
  have hset : hands.set worker new = hands.take worker ++ new :: hands.drop (worker + 1) := by
    rw [List.set_eq_take_append_cons_drop, if_pos hlt]
  have hold : hands = hands.take worker ++ hands[worker] :: hands.drop (worker + 1) := by
    rw [← List.drop_eq_getElem_cons hlt, List.take_append_drop]
  have hleft := (hmiddle new).append_left hands[worker].toList
  have hright := (hmiddle hands[worker]).append_left new.toList
  rw [← hset] at hleft
  rw [← hold] at hright
  refine hleft.trans (List.Perm.trans ?_ hright.symm)
  rw [← List.append_assoc, ← List.append_assoc]
  exact List.perm_append_comm.append_right _

theorem complete_turn (work : α → β) (p : Pool α β) (worker : Nat) :
    ((p.turn work worker).complete work).Perm (p.complete work) := by
  unfold turn
  split
  · rename_i job number hhand
    -- the job goes from the hand to the results
    have hhands := ((perm_hands_set hhand none).append_right p.waiting).map (outcome work)
    simp only [Option.toList_some, Option.toList_none, List.nil_append, List.cons_append,
      List.map_cons] at hhands
    unfold complete
    dsimp only
    rw [List.append_assoc]
    exact hhands.append_left p.finished
  · rename_i job waiting hhand hwaiting
    -- the job goes from those that wait to the hand
    have hhands := (perm_hands_set hhand (some job)).append_right waiting
    simp only [Option.toList_some, Option.toList_none, List.nil_append, List.cons_append] at hhands
    have hjobs := (hhands.trans List.perm_middle.symm).map (outcome work)
    unfold complete
    dsimp only
    rw [hwaiting]
    exact hjobs.append_left p.finished
  · exact List.Perm.refl _
  · exact List.Perm.refl _

/-! ## All turns -/

theorem complete_turns (work : α → β) (turns : List Nat) (p : Pool α β) :
    ((turns.foldl (turn work) p).complete work).Perm (p.complete work) := by
  induction turns generalizing p with
  | nil => exact List.Perm.refl _
  | cons worker turns ih => exact (ih (p.turn work worker)).trans (complete_turn work p worker)

theorem complete_start (workers : Workers) (work : α → β) (jobs : List α) :
    (start workers jobs : Pool α β).complete work = jobs.zipIdx.map (outcome work) := by
  have hfree : (List.replicate (min workers.count jobs.length) (none : Option (α × Nat))).filterMap
      id = [] := by
    simp
  rw [complete, start, hfree]
  rfl

/-- Whatever the turns, a result is there exactly for the jobs, each under its number. -/
theorem mem_complete_turns {workers : Workers} {turns : List Nat} {work : α → β} {jobs : List α}
    {b : β} {number : Nat} :
    (b, number) ∈ (turns.foldl (turn work) (start workers jobs)).complete work ↔
      ∃ job, jobs[number]? = some job ∧ work job = b := by
  rw [(complete_turns work turns (start workers jobs)).mem_iff, complete_start, List.mem_map]
  constructor
  · rintro ⟨⟨job, n⟩, hjob, heq⟩
    cases heq
    exact ⟨job, List.mem_zipIdx_iff_getElem?.1 hjob, rfl⟩
  · rintro ⟨job, hjob, rfl⟩
    exact ⟨(job, number), List.mem_zipIdx_iff_getElem?.2 hjob, rfl⟩

theorem find?_complete_turns (workers : Workers) (turns : List Nat) (work : α → β) {jobs : List α}
    {number : Nat} {job : α} (hjob : jobs[number]? = some job) :
    (((turns.foldl (turn work) (start workers jobs)).complete work).find?
      fun result => result.2 == number).map Prod.fst = some (work job) := by
  have hmem : (work job, number) ∈
      (turns.foldl (turn work) (start workers jobs)).complete work :=
    mem_complete_turns.2 ⟨job, hjob, rfl⟩
  cases hfind : ((turns.foldl (turn work) (start workers jobs)).complete work).find?
      fun result => result.2 == number with
  | none =>
      have hno := List.find?_eq_none.1 hfind _ hmem
      simp at hno
  | some result =>
      obtain ⟨b, n⟩ := result
      have hn : n = number := by simpa using List.find?_some hfind
      subst hn
      obtain ⟨job', hjob', rfl⟩ := mem_complete_turns.1 (List.mem_of_find?_eq_some hfind)
      rw [hjob] at hjob'
      cases hjob'
      rfl

theorem filterMap_getElem?_range (l : List α) (f : α → β) :
    (List.range l.length).filterMap (fun n => l[n]?.map f) = l.map f := by
  induction l with
  | nil => rfl
  | cons a l ih =>
      rw [List.length_cons, List.range_succ_eq_map, List.filterMap_cons, List.filterMap_map]
      simpa using ih

/-- The results come in the order of the jobs, whoever worked on them and when. -/
theorem results_eq_map (workers : Workers) (turns : List Nat) (work : α → β) (jobs : List α) :
    results workers turns work jobs = jobs.map work := by
  rw [← filterMap_getElem?_range, results]
  refine List.filterMap_congr fun number hnumber => ?_
  have hjob := List.getElem?_eq_getElem (List.mem_range.1 hnumber)
  rw [find?_complete_turns workers turns work hjob, hjob, Option.map_some]

end UsingStyle.Pool
