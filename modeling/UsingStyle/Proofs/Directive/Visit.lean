import UsingStyle.Directive.Scope
import UsingStyle.Proofs.Directive.Parse

/-! # The run of the scan

The scan stands at one token after the other. It reads a token on its own, which changes the scope,
or it takes a whole directive, which does not. `Visits` is the set of states that it goes through;
what holds of every directive found is proved by induction on it, with one case for each of the two
steps. The runs of tokens taken by directives are disjoint and come in source order.
-/

namespace UsingStyle

/-- The index behind the last token of the directive. -/
def Occurrence.stop (o : Occurrence) : Nat :=
  o.index + o.clause.length

/-- The scan of `ts` comes to the token with index `k`, in the scope `s`. -/
inductive Visits (ts : List Token) : Nat → Scope → Prop
  | start : Visits ts 0 .top
  | skip {k : Nat} {s : Scope} {t : Token} (hat : Visits ts k s) (ht : ts[k]? = some t)
      (hnone : directiveAt? s (ts.drop k) = none) : Visits ts (k + 1) (s.step t)
  | take {k : Nat} {s : Scope} {c : Clause} (hat : Visits ts k s)
      (hsome : directiveAt? s (ts.drop k) = some c) : Visits ts (k + c.length) s

/-! ## One step -/

theorem directiveAt?_eq_some_iff {s : Scope} {ts : List Token} {c : Clause} :
    directiveAt? s ts = some c ↔
      s.admitsDirective = true ∧ Clause.startsDirective ts = true ∧ Clause.parse? ts = some c := by
  unfold directiveAt?
  split
  · rename_i h
    obtain ⟨hadmits, hstarts⟩ := Bool.and_eq_true_iff.1 h
    simp [hadmits, hstarts]
  · rename_i h
    constructor
    · intro hnone
      contradiction
    · rintro ⟨hadmits, hstarts, _⟩
      exact absurd (Bool.and_eq_true_iff.2 ⟨hadmits, hstarts⟩) h

theorem directiveAt?_nil (s : Scope) : directiveAt? s [] = none := by
  simp [directiveAt?, Clause.startsDirective]

theorem occurrencesFrom_of_none {s : Scope} {t : Token} {ts : List Token}
    (h : directiveAt? s (t :: ts) = none) (index : Nat) :
    occurrencesFrom s index (t :: ts) = occurrencesFrom (s.step t) (index + 1) ts := by
  rw [occurrencesFrom]
  split
  · rename_i c hc
    rw [h] at hc
    contradiction
  · rfl

theorem occurrencesFrom_of_some {s : Scope} {ts : List Token} {c : Clause}
    (h : directiveAt? s ts = some c) (index : Nat) :
    occurrencesFrom s index ts =
      ⟨index, c⟩ :: occurrencesFrom s (index + c.length) (ts.drop c.length) := by
  cases ts with
  | nil => simp [directiveAt?_nil] at h
  | cons t ts =>
      rw [occurrencesFrom]
      split
      · rename_i c' hc
        rw [h] at hc
        cases hc
        rfl
      · rename_i hc
        rw [h] at hc
        contradiction

theorem drop_eq_cons_of_getElem? {ts : List Token} {k : Nat} {t : Token} (h : ts[k]? = some t) :
    ts.drop k = t :: ts.drop (k + 1) := by
  obtain ⟨hk, rfl⟩ := List.getElem?_eq_some_iff.1 h
  exact List.drop_eq_getElem_cons hk

/-! ## Order of the directives -/

theorem index_le_of_mem_occurrencesFrom {s : Scope} {index : Nat} {ts : List Token}
    {o : Occurrence} (h : o ∈ occurrencesFrom s index ts) : index ≤ o.index := by
  fun_induction occurrencesFrom s index ts with
  | case1 s index => simp at h
  | case2 s index t ts c hc ih =>
      rcases List.mem_cons.1 h with rfl | hrest
      · exact Nat.le_refl _
      · have := ih hrest
        omega
  | case3 s index t ts hc ih =>
      have := ih h
      omega

theorem pairwise_occurrencesFrom (s : Scope) (index : Nat) (ts : List Token) :
    (occurrencesFrom s index ts).Pairwise (fun o o' => o.stop ≤ o'.index) := by
  fun_induction occurrencesFrom s index ts with
  | case1 s index => exact .nil
  | case2 s index t ts c hc ih =>
      exact List.pairwise_cons.2 ⟨fun o ho => index_le_of_mem_occurrencesFrom ho, ih⟩
  | case3 s index t ts hc ih => exact ih

theorem pairwise_occurrences (ts : List Token) :
    (occurrences ts).Pairwise (fun o o' => o.stop ≤ o'.index) :=
  pairwise_occurrencesFrom .top 0 ts

/-! ## Whole runs -/

/-- What is found until the scan comes to `k`, and what is found from there on. -/
theorem Visits.occurrences_eq {ts : List Token} {k : Nat} {s : Scope} (h : Visits ts k s) :
    ∃ found, occurrences ts = found ++ occurrencesFrom s k (ts.drop k) ∧
      ∀ o ∈ found, o.stop ≤ k := by
  induction h with
  | start => exact ⟨[], by simp [occurrences], by simp⟩
  | @skip k s t hat ht hnone ih =>
      obtain ⟨found, heq, hfound⟩ := ih
      have hdrop := drop_eq_cons_of_getElem? ht
      rw [hdrop] at hnone heq
      rw [occurrencesFrom_of_none hnone] at heq
      exact ⟨found, heq, fun o ho => Nat.le_succ_of_le (hfound o ho)⟩
  | @take k s c hat hsome ih =>
      obtain ⟨found, heq, hfound⟩ := ih
      rw [occurrencesFrom_of_some hsome, List.drop_drop] at heq
      refine ⟨found ++ [⟨k, c⟩], by simpa using heq, fun o ho => ?_⟩
      rcases List.mem_append.1 ho with hold | hnew
      · have := hfound o hold
        omega
      · cases List.mem_singleton.1 hnew
        exact Nat.le_refl _

theorem Visits.mem_occurrences {ts : List Token} {k : Nat} {s : Scope} {c : Clause}
    (h : Visits ts k s) (hsome : directiveAt? s (ts.drop k) = some c) :
    ⟨k, c⟩ ∈ occurrences ts := by
  obtain ⟨found, heq, _⟩ := h.occurrences_eq
  rw [heq, occurrencesFrom_of_some hsome]
  exact List.mem_append_right _ List.mem_cons_self

/-- Every directive found was taken at a visited token. -/
theorem exists_visits_of_mem {ts : List Token} {o : Occurrence} (h : o ∈ occurrences ts) :
    ∃ s, Visits ts o.index s ∧ directiveAt? s (ts.drop o.index) = some o.clause := by
  -- from any visited token on, not only from the first one
  have hrun : ∀ (s : Scope) (k : Nat) (rest : List Token), rest = ts.drop k → Visits ts k s →
      o ∈ occurrencesFrom s k rest →
      ∃ s, Visits ts o.index s ∧ directiveAt? s (ts.drop o.index) = some o.clause := by
    intro s k rest hrest hat ho
    fun_induction occurrencesFrom s k rest with
    | case1 s k => simp at ho
    | case2 s k t rest c hc ih =>
        rw [hrest] at hc
        rcases List.mem_cons.1 ho with rfl | htail
        · exact ⟨s, hat, hc⟩
        · exact ih (by rw [hrest, List.drop_drop]) (hat.take hc) htail
    | case3 s k t rest hc ih =>
        rw [hrest] at hc
        have ht : ts[k]? = some t := by
          rw [← List.head?_drop, ← hrest]
          rfl
        have htail : rest = ts.drop (k + 1) := by
          rw [← List.tail_drop, ← hrest]
          rfl
        exact ih htail (hat.skip ht hc) ho
  exact hrun .top 0 ts rfl .start h

/-- A token is visited, or it lies inside a directive and is not its first token. -/
theorem visits_or_inside (ts : List Token) {k : Nat} (hk : k ≤ ts.length) :
    (∃ s, Visits ts k s) ∨ ∃ o ∈ occurrences ts, o.index < k ∧ k < o.stop := by
  induction k with
  | zero => exact .inl ⟨.top, .start⟩
  | succ k ih =>
      rcases ih (Nat.le_of_succ_le hk) with ⟨s, hat⟩ | ⟨o, ho, hlt, hstop⟩
      · cases hc : directiveAt? s (ts.drop k) with
        | none => exact .inl ⟨_, hat.skip (List.getElem?_eq_getElem hk) hc⟩
        | some c =>
            have hpos := length_pos_of_directiveAt? hc
            by_cases hone : c.length = 1
            · exact .inl ⟨s, hone ▸ hat.take hc⟩
            · refine .inr ⟨⟨k, c⟩, hat.mem_occurrences hc, Nat.lt_succ_self k, ?_⟩
              simp only [Occurrence.stop]
              omega
      · by_cases hlast : k + 1 = o.stop
        · obtain ⟨s, hat, hc⟩ := exists_visits_of_mem ho
          exact .inl ⟨s, hlast ▸ hat.take hc⟩
        · exact .inr ⟨o, ho, Nat.lt_succ_of_lt hlt, by omega⟩

/-! ## The tokens of a directive -/

/-- No identifier is written like a brace or a semicolon. -/
def WordsBreakNothing (ts : List Token) : Prop :=
  ∀ t ∈ ts, t.kind = .identifier → Clause.breaksScope t = false

theorem exists_phrase_of_mem {ts : List Token} {o : Occurrence} (h : o ∈ occurrences ts) :
    ∃ (p : Grammar.Phrase) (rest : List Token), p.WellFormed ∧
      ts.drop o.index = p.tokens ++ rest ∧ o.clause = p.clause := by
  obtain ⟨s, _, hc⟩ := exists_visits_of_mem h
  obtain ⟨_, hstart, hparse⟩ := directiveAt?_eq_some_iff.1 hc
  exact Grammar.exists_phrase_of_parse? hstart hparse

/-- The token of a phrase at the front of the tokens from `index` on. -/
theorem getElem?_of_drop_eq {ts tokens rest : List Token} {index : Nat}
    (hdrop : ts.drop index = tokens ++ rest) {i : Nat} (hi : i < tokens.length) :
    ts[index + i]? = tokens[i]? := by
  rw [← List.getElem?_drop, hdrop, List.getElem?_append_left hi]

theorem exists_semicolon_of_mem {ts : List Token} {o : Occurrence} (h : o ∈ occurrences ts) :
    ∃ j t, j + 1 = o.stop ∧ ts[j]? = some t ∧ t.text = ";" := by
  obtain ⟨p, rest, hp, hdrop, hclause⟩ := exists_phrase_of_mem h
  have hlen : p.tokens.length = p.front.length + 1 := by
    simp [p.tokens_eq_front_append]
  refine ⟨o.index + p.front.length, p.semicolon, ?_, ?_, hp.semicolon⟩
  · simp only [Occurrence.stop, hclause, Grammar.Phrase.clause]
    omega
  · rw [getElem?_of_drop_eq hdrop (by omega), p.tokens_eq_front_append]
    simp

theorem breaksScope_of_inside {ts : List Token} (hwords : WordsBreakNothing ts) {o : Occurrence}
    (h : o ∈ occurrences ts) {j : Nat} (hj : o.index ≤ j) (hstop : j + 1 < o.stop) {t : Token}
    (ht : ts[j]? = some t) : Clause.breaksScope t = false := by
  obtain ⟨p, rest, hp, hdrop, hclause⟩ := exists_phrase_of_mem h
  have hlen : p.tokens.length = p.front.length + 1 := by
    simp [p.tokens_eq_front_append]
  have hlt : j - o.index < p.front.length := by
    simp only [Occurrence.stop, hclause, Grammar.Phrase.clause] at hstop
    omega
  have hmem : t ∈ p.front := by
    rw [← Nat.add_sub_cancel' hj, getElem?_of_drop_eq hdrop (by omega),
      p.tokens_eq_front_append, List.getElem?_append_left hlt] at ht
    exact List.mem_of_getElem? ht
  refine Grammar.Phrase.breaksScope_front hp (fun u hu => hwords u ?_) hmem
  have hu' : u ∈ ts.drop o.index := hdrop ▸ List.mem_append_left rest hu
  exact List.mem_of_mem_drop hu'

end UsingStyle
