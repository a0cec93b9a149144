import UsingStyle.Proofs.Directive.Visit

/-! # Open braces

Which braces are open at a token is a matter of counting, and so is which of them belong to a
namespace: neither depends on what the scan has found. `OpenBraces` is the stack of the open ones.
It grows by an opening brace, shrinks by a closing one, and a closing brace too many leaves it
empty.
-/

namespace UsingStyle

/-! ## Counting braces -/

/-- How many more braces are opened than closed among the first `k` tokens. -/
def level (ts : List Token) (k : Nat) : Int :=
  (ts.take k).countP (·.text == "\x7b") - (ts.take k).countP (·.text == "\x7d")

def opensAt (ts : List Token) (k : Nat) : Bool :=
  ts[k]?.any (·.text == "\x7b")

/-- Whether a brace or semicolon stands at `k`. -/
def breaksAt (ts : List Token) (k : Nat) : Bool :=
  ts[k]?.any Clause.breaksScope

/-- Whether the word `namespace` stands at `k`. -/
def namespaceAt (ts : List Token) (k : Nat) : Bool :=
  ts[k]?.any (·.isIdentifier "namespace")

/-- The brace at `b` is opened before `k` and not closed before `k`: from right behind it on, never
more braces are closed than opened. A closing brace without an open one does not matter. -/
def OpenAt (ts : List Token) (k b : Nat) : Prop :=
  b < k ∧ opensAt ts b = true ∧ ∀ j, j ≤ k → b < j → level ts (b + 1) ≤ level ts j

/-- The word `namespace` stands between `b` and the nearest brace or semicolon before `b`. -/
def OpensNamespace (ts : List Token) (b : Nat) : Prop :=
  ∃ m, m < b ∧ namespaceAt ts m = true ∧ ∀ j, j < b → m < j → breaksAt ts j = false

instance (ts : List Token) (k b : Nat) : Decidable (OpenAt ts k b) :=
  inferInstanceAs (Decidable (_ ∧ _ ∧ _))

instance (ts : List Token) (b : Nat) : Decidable (OpensNamespace ts b) :=
  inferInstanceAs (Decidable (∃ m, m < b ∧ _))

theorem level_succ (ts : List Token) (k : Nat) :
    level ts (k + 1) = level ts k + (ts[k]?.toList.countP (·.text == "\x7b") : Nat) -
      (ts[k]?.toList.countP (·.text == "\x7d") : Nat) := by
  simp only [level, List.take_add_one, List.countP_append]
  omega

theorem level_succ_of_open {ts : List Token} {k : Nat} {t : Token} (ht : ts[k]? = some t)
    (htext : t.text = "\x7b") : level ts (k + 1) = level ts k + 1 := by
  rw [level_succ, ht]
  simp [htext]

theorem level_succ_of_close {ts : List Token} {k : Nat} {t : Token} (ht : ts[k]? = some t)
    (htext : t.text = "\x7d") : level ts (k + 1) = level ts k - 1 := by
  rw [level_succ, ht]
  simp [htext]

/-- No brace stands at `k`. -/
def BraceFree (ts : List Token) (k : Nat) : Prop :=
  ∀ t, ts[k]? = some t → t.text ≠ "\x7b" ∧ t.text ≠ "\x7d"

theorem level_succ_of_braceFree {ts : List Token} {k : Nat} (h : BraceFree ts k) :
    level ts (k + 1) = level ts k := by
  rw [level_succ]
  cases ht : ts[k]? with
  | none => simp
  | some t => simp [h t ht]

theorem level_eq_of_braceFree {ts : List Token} {k n : Nat}
    (h : ∀ j, k ≤ j → j < k + n → BraceFree ts j) : level ts (k + n) = level ts k := by
  induction n with
  | zero => rfl
  | succ n ih =>
      rw [← Nat.add_assoc, level_succ_of_braceFree (h (k + n) (by omega) (by omega))]
      exact ih fun j hj hlt => h j hj (by omega)

theorem opensAt_of_braceFree {ts : List Token} {k : Nat} (h : BraceFree ts k) :
    opensAt ts k = false := by
  unfold opensAt
  cases ht : ts[k]? with
  | none => rfl
  | some t => simp [h t ht]

theorem openAt_of_braceFree {ts : List Token} {k n : Nat}
    (h : ∀ j, k ≤ j → j < k + n → BraceFree ts j) (b : Nat) :
    OpenAt ts (k + n) b ↔ OpenAt ts k b := by
  constructor
  · rintro ⟨hb, hopen, hlevel⟩
    have hlt : b < k := by
      apply Nat.lt_of_not_le
      intro hle
      rw [opensAt_of_braceFree (h b hle hb)] at hopen
      contradiction
    exact ⟨hlt, hopen, fun j hj hbj => hlevel j (by omega) hbj⟩
  · rintro ⟨hb, hopen, hlevel⟩
    refine ⟨by omega, hopen, fun j hj hbj => ?_⟩
    by_cases hjk : j ≤ k
    · exact hlevel j hjk hbj
    · have hflat : level ts (k + (j - k)) = level ts k :=
        level_eq_of_braceFree fun i hi hlt => h i hi (by omega)
      rw [Nat.add_sub_cancel' (by omega)] at hflat
      rw [hflat]
      exact hlevel k (Nat.le_refl k) hb

theorem openAt_succ_of_open {ts : List Token} {k : Nat} {t : Token} (ht : ts[k]? = some t)
    (htext : t.text = "\x7b") (b : Nat) : OpenAt ts (k + 1) b ↔ b = k ∨ OpenAt ts k b := by
  have hlevel := level_succ_of_open ht htext
  constructor
  · rintro ⟨hb, hopen, hall⟩
    by_cases hbk : b = k
    · exact .inl hbk
    · exact .inr ⟨by omega, hopen, fun j hj hbj => hall j (by omega) hbj⟩
  · rintro (rfl | ⟨hb, hopen, hall⟩)
    · refine ⟨Nat.lt_succ_self b, by simp [opensAt, ht, htext], fun j hj hbj => ?_⟩
      have : j = b + 1 := by omega
      subst this
      exact Int.le_refl _
    · refine ⟨by omega, hopen, fun j hj hbj => ?_⟩
      by_cases hjk : j ≤ k
      · exact hall j hjk hbj
      · have : j = k + 1 := by omega
        subst this
        have := hall k (Nat.le_refl k) hb
        omega

theorem openAt_succ_of_close {ts : List Token} {k : Nat} {t : Token} (ht : ts[k]? = some t)
    (htext : t.text = "\x7d") (b : Nat) :
    OpenAt ts (k + 1) b ↔ OpenAt ts k b ∧ level ts (b + 1) < level ts k := by
  have hlevel := level_succ_of_close ht htext
  constructor
  · rintro ⟨hb, hopen, hall⟩
    have hbk : b ≠ k := by
      rintro rfl
      simp [opensAt, ht, htext] at hopen
    have hlast := hall (k + 1) (Nat.le_refl _) hb
    exact ⟨⟨by omega, hopen, fun j hj hbj => hall j (by omega) hbj⟩, by omega⟩
  · rintro ⟨⟨hb, hopen, hall⟩, hlt⟩
    refine ⟨by omega, hopen, fun j hj hbj => ?_⟩
    by_cases hjk : j ≤ k
    · exact hall j hjk hbj
    · have : j = k + 1 := by omega
      subst this
      omega

/-! ## The stack of open braces -/

/-- `braces` are the braces open at `k`, innermost first. -/
structure OpenBraces (ts : List Token) (k : Nat) (braces : List Nat) : Prop where
  mem_iff : ∀ b, b ∈ braces ↔ OpenAt ts k b
  level_eq : ∀ (i b : Nat), braces[i]? = some b → level ts k = level ts (b + 1) + i

namespace OpenBraces

variable {ts : List Token} {k : Nat} {braces : List Nat}

theorem zero (ts : List Token) : OpenBraces ts 0 [] where
  mem_iff b := by simp [OpenAt]
  level_eq i b h := by simp at h

theorem quiet (h : OpenBraces ts k braces) {n : Nat}
    (hfree : ∀ j, k ≤ j → j < k + n → BraceFree ts j) : OpenBraces ts (k + n) braces where
  mem_iff b := by
    rw [openAt_of_braceFree hfree]
    exact h.mem_iff b
  level_eq i b hi := by
    rw [level_eq_of_braceFree hfree]
    exact h.level_eq i b hi

theorem push (h : OpenBraces ts k braces) {t : Token} (ht : ts[k]? = some t)
    (htext : t.text = "\x7b") : OpenBraces ts (k + 1) (k :: braces) where
  mem_iff b := by
    rw [openAt_succ_of_open ht htext, List.mem_cons, h.mem_iff]
  level_eq i b hi := by
    cases i with
    | zero =>
        cases hi
        simp
    | succ i =>
        have hold := h.level_eq i b hi
        rw [level_succ_of_open ht htext]
        omega

/-- The levels tell the innermost brace from the others. -/
theorem mem_tail_iff (h : OpenBraces ts k braces) (b : Nat) :
    b ∈ braces.tail ↔ b ∈ braces ∧ level ts (b + 1) < level ts k := by
  constructor
  · intro hb
    obtain ⟨i, hi⟩ := List.mem_iff_getElem?.1 hb
    rw [List.getElem?_tail] at hi
    have hlevel := h.level_eq (i + 1) b hi
    exact ⟨List.mem_of_mem_tail hb, by omega⟩
  · rintro ⟨hb, hlt⟩
    obtain ⟨i, hi⟩ := List.mem_iff_getElem?.1 hb
    have hlevel := h.level_eq i b hi
    cases i with
    | zero => omega
    | succ i => exact List.mem_iff_getElem?.2 ⟨i, by rw [List.getElem?_tail, hi]⟩

theorem pop (h : OpenBraces ts k braces) {t : Token} (ht : ts[k]? = some t)
    (htext : t.text = "\x7d") : OpenBraces ts (k + 1) braces.tail where
  mem_iff b := by
    rw [openAt_succ_of_close ht htext, h.mem_tail_iff, h.mem_iff]
  level_eq i b hi := by
    rw [List.getElem?_tail] at hi
    have hold := h.level_eq (i + 1) b hi
    rw [level_succ_of_close ht htext]
    omega

end OpenBraces

end UsingStyle
