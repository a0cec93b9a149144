import Mathlib.Data.List.Forall2
import UsingStyle.Proofs.Directive.Visit

/-! # What recognition looks at

The scan asks of a token its kind and whether it is written like one of a dozen words and symbols;
of an identifier it may also keep the text, as an alias. Tokens that agree in this play the same
role: in two rows of tokens that play the same roles one by one, the same directives are found.
-/

namespace UsingStyle

/-- The words and symbols that the scan compares tokens with. -/
def grammarWords : List String :=
  ["\x7b", "\x7d", ";", ".", "::", "<", ">", "=", "using", "global", "static", "namespace"]

/-- The scan cannot tell the tokens apart. -/
structure Token.SameRole (t u : Token) : Prop where
  kind_eq : t.kind = u.kind
  beq_word : ∀ w ∈ grammarWords, (t.text == w) = (u.text == w)
  text_eq : t.kind = .identifier → t.text = u.text

theorem forall₂_of_map_eq {α β : Type} {f : α → β} {xs ys : List α} (h : xs.map f = ys.map f) :
    List.Forall₂ (fun x y => f x = f y) xs ys := by
  rw [← List.forall₂_map_right_iff, ← List.forall₂_map_left_iff, List.forall₂_eq_eq_eq]
  exact h

namespace Token.SameRole

variable {t u : Token}

theorem isIdentifier_eq (h : t.SameRole u) {w : String} (hw : w ∈ grammarWords) :
    t.isIdentifier w = u.isIdentifier w := by
  rw [isIdentifier, isIdentifier, h.kind_eq, h.beq_word w hw]

theorem breaksScope_eq (h : t.SameRole u) : Clause.breaksScope t = Clause.breaksScope u := by
  rw [Clause.breaksScope, Clause.breaksScope, h.beq_word _ (by decide), h.beq_word _ (by decide),
    h.beq_word _ (by decide)]

theorem separatesSegments_eq (h : t.SameRole u) :
    Clause.separatesSegments t = Clause.separatesSegments u := by
  rw [Clause.separatesSegments, Clause.separatesSegments, h.beq_word _ (by decide),
    h.beq_word _ (by decide)]

theorem step_eq (h : t.SameRole u) (s : Scope) : s.step t = s.step u := by
  rw [Scope.step, Scope.step, h.isIdentifier_eq (by decide), h.beq_word _ (by decide),
    h.beq_word _ (by decide), h.beq_word _ (by decide)]

end Token.SameRole

namespace Clause

variable {ts us : List Token}

theorem startsWithText_eq (h : List.Forall₂ Token.SameRole ts us) {w : String}
    (hw : w ∈ grammarWords) : startsWithText w ts = startsWithText w us := by
  cases h with
  | nil => rfl
  | cons hfirst _ => exact hfirst.beq_word w hw

theorem startsWithIdentifier_eq (h : List.Forall₂ Token.SameRole ts us) :
    startsWithIdentifier ts = startsWithIdentifier us := by
  cases h with
  | nil => rfl
  | cons hfirst _ => rw [startsWithIdentifier, startsWithIdentifier, hfirst.kind_eq]

theorem startsDirective_eq (h : List.Forall₂ Token.SameRole ts us) :
    startsDirective ts = startsDirective us := by
  cases h with
  | nil => rfl
  | cons hfirst hrest =>
      rw [startsDirective, startsDirective, hfirst.isIdentifier_eq (by decide),
        hfirst.isIdentifier_eq (by decide), startsWithText_eq hrest (by decide)]

theorem typeArgumentsRest_eq (h : List.Forall₂ Token.SameRole ts us) (depth : Nat) :
    typeArgumentsRest depth ts = typeArgumentsRest depth us := by
  induction h generalizing depth with
  | nil => rfl
  | @cons t u ts us hfirst hrest ih =>
      rw [typeArgumentsRest, typeArgumentsRest, hfirst.beq_word _ (by decide),
        hfirst.beq_word _ (by decide), hfirst.breaksScope_eq, ih, ih, ih]

theorem nameRest_eq (h : List.Forall₂ Token.SameRole ts us) : nameRest ts = nameRest us := by
  fun_induction nameRest ts generalizing us with
  | case1 =>
      cases h
      rw [nameRest]
  | case2 t ts hopen hlist =>
      obtain ⟨u, us, hfirst, hrest, rfl⟩ := List.forall₂_cons_left_iff.1 h
      rw [hfirst.beq_word _ (by decide)] at hopen
      rw [typeArgumentsRest_eq hrest] at hlist
      rw [nameRest, if_pos hopen, hlist]
  | case3 t ts hopen n hlist ih =>
      obtain ⟨u, us, hfirst, hrest, rfl⟩ := List.forall₂_cons_left_iff.1 h
      rw [hfirst.beq_word _ (by decide)] at hopen
      rw [typeArgumentsRest_eq hrest] at hlist
      rw [nameRest, if_pos hopen, hlist, ih (List.forall₂_drop n hrest)]
  | case4 t ts hopen hsegment ih =>
      obtain ⟨u, us, hfirst, hrest, rfl⟩ := List.forall₂_cons_left_iff.1 h
      rw [hfirst.beq_word _ (by decide)] at hopen
      rw [hfirst.separatesSegments_eq, startsWithIdentifier_eq hrest] at hsegment
      rw [nameRest, if_neg hopen, if_pos hsegment, ih (List.forall₂_drop 1 hrest)]
  | case5 t ts hopen hsegment =>
      obtain ⟨u, us, hfirst, hrest, rfl⟩ := List.forall₂_cons_left_iff.1 h
      rw [hfirst.beq_word _ (by decide)] at hopen
      rw [hfirst.separatesSegments_eq, startsWithIdentifier_eq hrest] at hsegment
      rw [nameRest, if_neg hopen, if_neg hsegment]

theorem nameLength_eq (h : List.Forall₂ Token.SameRole ts us) : nameLength ts = nameLength us := by
  rw [nameLength, nameLength, startsWithIdentifier_eq h, nameRest_eq (List.forall₂_drop 1 h)]

theorem targetLength_eq (h : List.Forall₂ Token.SameRole ts us) :
    targetLength ts = targetLength us := by
  have hlength : (ts.takeWhile fun t => !breaksScope t).length =
      (us.takeWhile fun t => !breaksScope t).length := by
    induction h with
    | nil => rfl
    | @cons t u ts us hfirst hrest ih =>
        rw [List.takeWhile_cons, List.takeWhile_cons, hfirst.breaksScope_eq]
        split
        · rw [List.length_cons, List.length_cons, ih]
        · rfl
  rw [targetLength, targetLength, hlength]

theorem aliasOf_eq (h : List.Forall₂ Token.SameRole ts us) : aliasOf ts = aliasOf us := by
  cases h with
  | nil => rfl
  | @cons t u ts us hfirst hrest =>
      cases hrest with
      | nil => rfl
      | @cons t' u' ts us hsecond hrest =>
          rw [aliasOf, aliasOf, hfirst.kind_eq, hsecond.beq_word _ (by decide)]
          split
          · rename_i hcond
            have hkind : u.kind = .identifier := beq_iff_eq.1 (Bool.and_eq_true_iff.1 hcond).1
            rw [hfirst.text_eq (hfirst.kind_eq.trans hkind)]
          · rfl

theorem modifiersLength_eq (h : List.Forall₂ Token.SameRole ts us) :
    modifiersLength ts = modifiersLength us := by
  have hstatic : ∀ n, startsWithText "static" (ts.drop n) = startsWithText "static" (us.drop n) :=
    fun n => startsWithText_eq (List.forall₂_drop n h) (by decide)
  unfold modifiersLength
  simp only [startsWithText_eq h (w := "global") (by decide), hstatic]

theorem close?_eq (h : List.Forall₂ Token.SameRole ts us) (aliasName : Option String)
    (nameStart size : Nat) :
    close? ts aliasName nameStart size = close? us aliasName nameStart size := by
  rw [close?, close?, startsWithText_eq (List.forall₂_drop _ h) (by decide)]

theorem parse?_eq (h : List.Forall₂ Token.SameRole ts us) : parse? ts = parse? us := by
  have hclose : close? ts = close? us := by
    funext aliasName nameStart size
    exact close?_eq h aliasName nameStart size
  unfold parse?
  simp only [modifiersLength_eq h, aliasOf_eq (List.forall₂_drop _ h),
    targetLength_eq (List.forall₂_drop _ h), nameLength_eq (List.forall₂_drop _ h), hclose]

end Clause

variable {ts us : List Token}

theorem exists_sameRole_at (h : List.Forall₂ Token.SameRole ts us) {k : Nat} {t : Token}
    (ht : ts[k]? = some t) : ∃ u, us[k]? = some u ∧ t.SameRole u := by
  have hdrop := List.forall₂_drop k h
  rw [drop_eq_cons_of_getElem? ht] at hdrop
  obtain ⟨u, rest, hfirst, _, hrest⟩ := List.forall₂_cons_left_iff.1 hdrop
  refine ⟨u, ?_, hfirst⟩
  rw [← List.head?_drop, hrest]
  rfl

theorem directiveAt?_eq (h : List.Forall₂ Token.SameRole ts us) (s : Scope) :
    directiveAt? s ts = directiveAt? s us := by
  rw [directiveAt?, directiveAt?, Clause.startsDirective_eq h, Clause.parse?_eq h]

/-- Tokens that play the same roles hold the same directives. -/
theorem occurrencesFrom_eq (h : List.Forall₂ Token.SameRole ts us) (s : Scope) (index : Nat) :
    occurrencesFrom s index ts = occurrencesFrom s index us := by
  fun_induction occurrencesFrom s index ts generalizing us with
  | case1 s index =>
      cases h
      rw [occurrencesFrom]
  | case2 s index t ts c hc ih =>
      rw [directiveAt?_eq h] at hc
      rw [occurrencesFrom_of_some hc, ih (List.forall₂_drop c.length h)]
  | case3 s index t ts hc ih =>
      obtain ⟨u, us, hfirst, hrest, rfl⟩ := List.forall₂_cons_left_iff.1 h
      rw [directiveAt?_eq h] at hc
      rw [occurrencesFrom_of_none hc, ih hrest, hfirst.step_eq]

end UsingStyle
