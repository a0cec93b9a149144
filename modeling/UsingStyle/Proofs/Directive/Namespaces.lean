import UsingStyle.Proofs.Directive.Braces
import Mathlib.Data.List.Forall2

/-! # Braces that belong to a namespace

The scan keeps one flag for each open brace and one for the word `namespace` that waits for its
brace. `Marked` says what these flags mean. They see only the tokens that the scan reads one by one:
a directive is taken as a whole, and the semicolon at its end resets nothing. `Visits.tracks` proves
this meaning for every visited token; the scan then looks for a directive exactly where every open
brace is marked.
-/

namespace UsingStyle

/-! ## Tokens outside of directives -/

/-- The token at `j` belongs to no directive that the scan takes. -/
def Lone (ts : List Token) (j : Nat) : Prop :=
  ∀ o ∈ occurrences ts, ¬ (o.index ≤ j ∧ j < o.stop)

/-- Among the tokens outside of directives, the word `namespace` stands between `k` and the nearest
brace or semicolon before `k`. -/
def Marked (ts : List Token) (k : Nat) : Prop :=
  ∃ m, m < k ∧ namespaceAt ts m = true ∧ Lone ts m ∧
    ∀ j, j < k → m < j → Lone ts j → breaksAt ts j = false

theorem Visits.lone {ts : List Token} {k : Nat} {s : Scope} {t : Token} (h : Visits ts k s)
    (ht : ts[k]? = some t) (hnone : directiveAt? s (ts.drop k) = none) : Lone ts k := by
  intro o ho hin
  obtain ⟨found, heq, hfound⟩ := h.occurrences_eq
  rw [drop_eq_cons_of_getElem? ht] at hnone heq
  rw [heq, occurrencesFrom_of_none hnone] at ho
  rcases List.mem_append.1 ho with hold | hnew
  · have := hfound o hold
    omega
  · have := index_le_of_mem_occurrencesFrom hnew
    omega

theorem marked_succ_of_lone {ts : List Token} {k : Nat} (hlone : Lone ts k) :
    Marked ts (k + 1) ↔ namespaceAt ts k = true ∨ Marked ts k ∧ breaksAt ts k = false := by
  constructor
  · rintro ⟨m, hm, hword, hmlone, hall⟩
    by_cases hmk : m = k
    · exact .inl (hmk ▸ hword)
    · have hlt : m < k := by omega
      refine .inr ⟨⟨m, hlt, hword, hmlone, fun j hj => hall j (by omega)⟩, ?_⟩
      exact hall k (Nat.lt_succ_self k) hlt hlone
  · rintro (hword | ⟨⟨m, hm, hword, hmlone, hall⟩, hbreaks⟩)
    · exact ⟨k, Nat.lt_succ_self k, hword, hlone, fun j hj hkj => by omega⟩
    · refine ⟨m, by omega, hword, hmlone, fun j hj hmj hjlone => ?_⟩
      by_cases hjk : j = k
      · exact hjk ▸ hbreaks
      · exact hall j (by omega) hmj hjlone

theorem marked_add_of_not_lone {ts : List Token} {k n : Nat}
    (h : ∀ j, k ≤ j → j < k + n → ¬ Lone ts j) : Marked ts (k + n) ↔ Marked ts k := by
  constructor
  · rintro ⟨m, hm, hword, hmlone, hall⟩
    have hlt : m < k := by
      apply Nat.lt_of_not_le
      intro hle
      exact h m hle hm hmlone
    exact ⟨m, hlt, hword, hmlone, fun j hj => hall j (by omega)⟩
  · rintro ⟨m, hm, hword, hmlone, hall⟩
    refine ⟨m, by omega, hword, hmlone, fun j hj hmj hjlone => ?_⟩
    have hlt : j < k := by
      apply Nat.lt_of_not_le
      intro hle
      exact h j hle hj hjlone
    exact hall j hlt hmj hjlone

/-! ## One token of the scope -/

theorem namespaceAt_eq {ts : List Token} {k : Nat} {t : Token} (ht : ts[k]? = some t) :
    namespaceAt ts k = t.isIdentifier "namespace" := by
  simp [namespaceAt, ht]

theorem breaksAt_eq {ts : List Token} {k : Nat} {t : Token} (ht : ts[k]? = some t) :
    breaksAt ts k = Clause.breaksScope t := by
  simp [breaksAt, ht]

theorem isIdentifier_eq_false {t : Token} {word : String} (h : t.text ≠ word) :
    t.isIdentifier word = false := by
  simp [Token.isIdentifier, h]

theorem Scope.step_pending (s : Scope) (t : Token) :
    (s.step t).pending =
      (t.isIdentifier "namespace" || (s.pending && !Clause.breaksScope t)) := by
  unfold Scope.step Clause.breaksScope
  cases t.isIdentifier "namespace" <;> cases t.text == "\x7b" <;> cases t.text == "\x7d" <;>
    cases t.text == ";" <;> simp

theorem Scope.step_braces_of_open (s : Scope) {t : Token} (h : t.text = "\x7b") :
    (s.step t).braces = s.pending :: s.braces := by
  have hword : t.isIdentifier "namespace" = false := isIdentifier_eq_false (by simp [h])
  simp [Scope.step, hword, h]

theorem Scope.step_braces_of_close (s : Scope) {t : Token} (h : t.text = "\x7d") :
    (s.step t).braces = s.braces.tail := by
  have hword : t.isIdentifier "namespace" = false := isIdentifier_eq_false (by simp [h])
  simp [Scope.step, hword, h]

theorem Scope.step_braces_of_other (s : Scope) {t : Token} (hopen : t.text ≠ "\x7b")
    (hclose : t.text ≠ "\x7d") : (s.step t).braces = s.braces := by
  unfold Scope.step
  cases t.isIdentifier "namespace" <;> cases t.text == ";" <;> simp [hopen, hclose]

/-! ## The flags of the scan -/

def FlagOf (ts : List Token) (flag : Bool) (b : Nat) : Prop :=
  flag = true ↔ Marked ts b

theorem all_flags_iff {ts : List Token} {flags : List Bool} {braces : List Nat}
    (h : List.Forall₂ (FlagOf ts) flags braces) :
    flags.all id = true ↔ ∀ b ∈ braces, Marked ts b := by
  induction h with
  | nil => simp
  | cons hflag _ ih =>
      rw [List.all_cons, Bool.and_eq_true_iff, ih, List.forall_mem_cons]
      exact and_congr_left fun _ => hflag

/-- At `k`, the flags of the scope are those of the open braces, and the word `namespace` is
waiting when `k` is marked. -/
structure Tracks (ts : List Token) (k : Nat) (s : Scope) (braces : List Nat) : Prop where
  braces_open : OpenBraces ts k braces
  flags : List.Forall₂ (FlagOf ts) s.braces braces
  pending : s.pending = true ↔ Marked ts k

theorem tracks_top (ts : List Token) : Tracks ts 0 .top [] where
  braces_open := .zero ts
  flags := .nil
  pending := by simp [Scope.top, Marked]

namespace Tracks

variable {ts : List Token} {k : Nat} {s : Scope} {braces : List Nat}

theorem step_pending (h : Tracks ts k s braces) {t : Token} (ht : ts[k]? = some t)
    (hlone : Lone ts k) : (s.step t).pending = true ↔ Marked ts (k + 1) := by
  rw [marked_succ_of_lone hlone, s.step_pending, namespaceAt_eq ht, breaksAt_eq ht, ← h.pending]
  simp

theorem step (h : Tracks ts k s braces) {t : Token} (ht : ts[k]? = some t) (hlone : Lone ts k) :
    ∃ braces', Tracks ts (k + 1) (s.step t) braces' := by
  have hpending := h.step_pending ht hlone
  by_cases hopen : t.text = "\x7b"
  · refine ⟨k :: braces, h.braces_open.push ht hopen, ?_, hpending⟩
    rw [s.step_braces_of_open hopen]
    exact .cons h.pending h.flags
  · by_cases hclose : t.text = "\x7d"
    · refine ⟨braces.tail, h.braces_open.pop ht hclose, ?_, hpending⟩
      rw [s.step_braces_of_close hclose]
      rw [← List.drop_one, ← List.drop_one]
      exact List.forall₂_drop 1 h.flags
    · have hfree : ∀ j, k ≤ j → j < k + 1 → BraceFree ts j := by
        intro j hj hlt u hu
        have : j = k := by omega
        subst this
        cases ht.symm.trans hu
        exact ⟨hopen, hclose⟩
      refine ⟨braces, h.braces_open.quiet hfree, ?_, hpending⟩
      rw [s.step_braces_of_other hopen hclose]
      exact h.flags

theorem take (h : Tracks ts k s braces) {n : Nat}
    (hfree : ∀ j, k ≤ j → j < k + n → BraceFree ts j)
    (hinside : ∀ j, k ≤ j → j < k + n → ¬ Lone ts j) : Tracks ts (k + n) s braces where
  braces_open := h.braces_open.quiet hfree
  flags := h.flags
  pending := by
    rw [marked_add_of_not_lone hinside]
    exact h.pending

theorem admitsDirective_iff (h : Tracks ts k s braces) :
    s.admitsDirective = true ↔ ∀ b, OpenAt ts k b → Marked ts b := by
  unfold Scope.admitsDirective
  rw [all_flags_iff h.flags]
  exact forall_congr' fun b => imp_congr_left (h.braces_open.mem_iff b)

end Tracks

/-! ## Every visited token -/

theorem breaksScope_of_semicolon {t : Token} (h : t.text = ";") : Clause.breaksScope t = true := by
  simp [Clause.breaksScope, h]

theorem not_brace_of_breaksScope {t : Token} (h : Clause.breaksScope t = false) :
    t.text ≠ "\x7b" ∧ t.text ≠ "\x7d" := by
  simp only [Clause.breaksScope, Bool.or_eq_false_iff, beq_eq_false_iff_ne] at h
  exact h.1

theorem braceFree_of_inside {ts : List Token} (hwords : WordsBreakNothing ts) {o : Occurrence}
    (h : o ∈ occurrences ts) {j : Nat} (hj : o.index ≤ j) (hstop : j < o.stop) :
    BraceFree ts j := by
  intro t ht
  by_cases hlast : j + 1 = o.stop
  · obtain ⟨i, u, hi, hu, htext⟩ := exists_semicolon_of_mem h
    have : i = j := by omega
    subst this
    cases ht.symm.trans hu
    simp [htext]
  · exact not_brace_of_breaksScope (breaksScope_of_inside hwords h hj (by omega) ht)

/-- The flags mean what they say wherever the scan comes to. -/
theorem Visits.tracks {ts : List Token} (hwords : WordsBreakNothing ts) {k : Nat} {s : Scope}
    (h : Visits ts k s) : ∃ braces, Tracks ts k s braces := by
  -- a token read on its own moves the stack, a directive only shifts the place
  induction h with
  | start => exact ⟨[], tracks_top ts⟩
  | skip hat ht hnone ih =>
      obtain ⟨braces, htracks⟩ := ih
      exact htracks.step ht (hat.lone ht hnone)
  | @take k s c hat hsome ih =>
      obtain ⟨braces, htracks⟩ := ih
      have hmem := hat.mem_occurrences hsome
      exact ⟨braces, htracks.take (fun j hj hlt => braceFree_of_inside hwords hmem hj hlt)
        fun j hj hlt hlone => hlone _ hmem ⟨hj, hlt⟩⟩

theorem Visits.admitsDirective_iff {ts : List Token} (hwords : WordsBreakNothing ts) {k : Nat}
    {s : Scope} (h : Visits ts k s) :
    s.admitsDirective = true ↔ ∀ b, OpenAt ts k b → Marked ts b := by
  obtain ⟨braces, htracks⟩ := h.tracks hwords
  exact htracks.admitsDirective_iff

/-! ## Marks and namespaces -/

/-- Between the brace at `b` and a directive before it there is no brace, no semicolon and no word
`namespace`. -/
def FollowsDirective (ts : List Token) (b : Nat) : Prop :=
  ∃ o ∈ occurrences ts, o.stop ≤ b ∧
    ∀ j, j < b → o.stop ≤ j → breaksAt ts j = false ∧ namespaceAt ts j = false

theorem breaksAt_eq_false_of_namespaceAt {ts : List Token} {k : Nat}
    (h : namespaceAt ts k = true) : breaksAt ts k = false := by
  cases ht : ts[k]? with
  | none => simp [breaksAt, ht]
  | some t =>
      rw [namespaceAt_eq ht, Token.isIdentifier, Bool.and_eq_true_iff, beq_iff_eq, beq_iff_eq] at h
      simp [breaksAt_eq ht, Clause.breaksScope, h.2]

theorem exists_breaksAt_of_mem {ts : List Token} {o : Occurrence} (h : o ∈ occurrences ts) :
    ∃ j, j + 1 = o.stop ∧ breaksAt ts j = true := by
  obtain ⟨j, t, hj, ht, htext⟩ := exists_semicolon_of_mem h
  refine ⟨j, hj, ?_⟩
  rw [breaksAt_eq ht]
  exact breaksScope_of_semicolon htext

/-- The last token of a directive breaks the scope, and no other one does. -/
theorem breaksAt_inside_iff {ts : List Token} (hwords : WordsBreakNothing ts) {o : Occurrence}
    (h : o ∈ occurrences ts) {j : Nat} (hj : o.index ≤ j) (hstop : j < o.stop) :
    breaksAt ts j = true ↔ j + 1 = o.stop := by
  constructor
  · intro hbreaks
    apply Decidable.byContradiction
    intro hne
    cases ht : ts[j]? with
    | none => simp [breaksAt, ht] at hbreaks
    | some t =>
        rw [breaksAt_eq ht, breaksScope_of_inside hwords h hj (by omega) ht] at hbreaks
        contradiction
  · intro hlast
    obtain ⟨i, hi, hbreaks⟩ := exists_breaksAt_of_mem h
    have : i = j := by omega
    exact this ▸ hbreaks

/-- The last of the indices below `b` at which `P` holds. -/
theorem exists_last {P : Nat → Bool} {b j : Nat} (hj : j < b) (h : P j = true) :
    ∃ i, j ≤ i ∧ i < b ∧ P i = true ∧ ∀ l, l < b → i < l → P l = false := by
  induction b with
  | zero => omega
  | succ b ih =>
      cases hb : P b with
      | true => exact ⟨b, by omega, Nat.lt_succ_self b, hb, fun l hl hbl => by omega⟩
      | false =>
          have hjb : j ≠ b := by
            rintro rfl
            rw [h] at hb
            contradiction
          obtain ⟨i, hji, hib, hi, hlast⟩ := ih (by omega)
          refine ⟨i, hji, by omega, hi, fun l hl hil => ?_⟩
          by_cases hlb : l = b
          · exact hlb ▸ hb
          · exact hlast l (by omega) hil

theorem ne_of_namespaceAt_of_breaksAt {ts : List Token} {m j : Nat}
    (hword : namespaceAt ts m = true) (hbreaks : breaksAt ts j = true) : m ≠ j := by
  rintro rfl
  rw [breaksAt_eq_false_of_namespaceAt hword] at hbreaks
  contradiction

/-- No directive stands between the word `namespace` and the brace behind it. -/
theorem marked_of_opensNamespace {ts : List Token} (hwords : WordsBreakNothing ts) {b : Nat}
    (hopen : opensAt ts b = true) (h : OpensNamespace ts b) : Marked ts b := by
  obtain ⟨m, hm, hword, hall⟩ := h
  refine ⟨m, hm, hword, fun o ho hin => ?_, fun j hj hmj _ => hall j hj hmj⟩
  obtain ⟨j, hj, hbreaks⟩ := exists_breaksAt_of_mem ho
  have hne := ne_of_namespaceAt_of_breaksAt hword hbreaks
  by_cases hjb : j < b
  · rw [hall j hjb (by omega)] at hbreaks
    contradiction
  · -- the directive would reach over the brace
    have hfree : BraceFree ts b := braceFree_of_inside hwords ho (by omega) (by omega)
    rw [opensAt_of_braceFree hfree] at hopen
    contradiction

theorem not_followsDirective_of_opensNamespace {ts : List Token} {b : Nat}
    (h : OpensNamespace ts b) : ¬ FollowsDirective ts b := by
  rintro ⟨o, ho, hstop, hnone⟩
  obtain ⟨m, hm, hword, hall⟩ := h
  obtain ⟨j, hj, hbreaks⟩ := exists_breaksAt_of_mem ho
  have hne := ne_of_namespaceAt_of_breaksAt hword hbreaks
  by_cases hlt : m < j
  · rw [hall j (by omega) hlt] at hbreaks
    contradiction
  · rw [(hnone m hm (by omega)).2] at hword
    contradiction

/-- A mark comes from a namespace unless a directive stands between the word and the brace. -/
theorem opensNamespace_of_marked {ts : List Token} (hwords : WordsBreakNothing ts) {b : Nat}
    (h : Marked ts b) (hfollows : ¬ FollowsDirective ts b) : OpensNamespace ts b := by
  obtain ⟨m, hm, hword, hmlone, hall⟩ := h
  -- the nearest token before the brace that says anything about it
  obtain ⟨i, hmi, hib, hi, hlast⟩ := exists_last hm
    (P := fun j => namespaceAt ts j || breaksAt ts j) (by simp [hword])
  simp only [Bool.or_eq_true, Bool.or_eq_false_iff] at hi hlast
  by_cases hiword : namespaceAt ts i = true
  · exact ⟨i, hib, hiword, fun j hj hij => (hlast j hj hij).2⟩
  · have hbreaks : breaksAt ts i = true := hi.resolve_left hiword
    have hne := ne_of_namespaceAt_of_breaksAt hword hbreaks
    have hinside : ¬ Lone ts i := by
      intro hlone
      rw [hall i hib (by omega) hlone] at hbreaks
      contradiction
    simp only [Lone, not_forall, not_not] at hinside
    obtain ⟨o, ho, hle, hstop⟩ := hinside
    have hend := (breaksAt_inside_iff hwords ho hle hstop).1 hbreaks
    exact absurd ⟨o, ho, by omega, fun j hj hoj => (hlast j hj (by omega)).symm⟩ hfollows

end UsingStyle
