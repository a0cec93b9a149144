/-! # Regular expressions with priorities

A backtracking search tries the choices of a regular expression in a fixed order: the left
alternative before the right one, one more round of a greedy repetition before its end, and the end
of a lazy repetition before one more round. All matches at the front of a text are listed in this
order, each by the text that it leaves, so the first match is the head of the list.
-/

namespace UsingStyle

/-- A regular expression. -/
inductive Regex where
  /-- No character. -/
  | empty
  /-- One character of a class. -/
  | one (p : Char → Bool)
  /-- The end of the text. -/
  | atEnd
  | seq (r s : Regex)
  | alt (r s : Regex)
  /-- Any number of rounds, as many as possible or as few. -/
  | many (greedy : Bool) (r : Regex)
  /-- One round if possible, otherwise none. -/
  | option (r : Regex)

namespace Regex

/-! ## Matches -/

/-- What any number of rounds leave. A round that leaves all of the text is not followed by
another. -/
def rounds (greedy : Bool) (round : List Char → List (List Char)) (cs : List Char) :
    List (List Char) :=
  let more := (round cs).flatMap fun rest =>
    if _h : rest.length < cs.length then rounds greedy round rest else []
  if greedy then more ++ [cs] else cs :: more
termination_by cs.length

/-- What the matches at the front of a text leave of it, in the order in which they are found. -/
def ends : Regex → List Char → List (List Char)
  | empty, cs => [cs]
  | one p, c :: cs => if p c then [cs] else []
  | one _, [] => []
  | atEnd, cs => if cs.isEmpty then [cs] else []
  | seq r s, cs => (ends r cs).flatMap (ends s)
  | alt r s, cs => ends r cs ++ ends s cs
  | many greedy r, cs => rounds greedy (ends r) cs
  | option r, cs => ends r cs ++ [cs]

/-- What the first match leaves. -/
def first? (r : Regex) (cs : List Char) : Option (List Char) :=
  (r.ends cs).head?

/-- The expression fits at the front of every text. -/
def IsTotal (r : Regex) : Prop :=
  ∀ cs, r.ends cs ≠ []

/-- Any character. -/
def any : Regex :=
  one fun _ => true

/-- The given character. -/
def sign (c : Char) : Regex :=
  one (· == c)

/-- At least `n` rounds, as many as possible. -/
def atLeast : Nat → Regex → Regex
  | 0, r => many true r
  | n + 1, r => seq r (atLeast n r)

/-! ## First matches -/

section

variable {r s : Regex} {p : Char → Bool} {c : Char} {cs mid rest : List Char}

theorem ends_ne_nil_of_first? (h : r.first? cs = some rest) : r.ends cs ≠ [] := by
  intro hnil
  rw [first?, hnil] at h
  contradiction

theorem exists_ends_eq_cons (h : r.first? cs = some rest) : ∃ more, r.ends cs = rest :: more :=
  List.head?_eq_some_iff.1 h

@[simp] theorem ends_one_cons (p : Char → Bool) (c : Char) (cs : List Char) :
    (one p).ends (c :: cs) = if p c then [cs] else [] := rfl

@[simp] theorem ends_one_nil (p : Char → Bool) : (one p).ends [] = [] := rfl

theorem ends_seq (r s : Regex) (cs : List Char) :
    (seq r s).ends cs = (r.ends cs).flatMap s.ends := rfl

theorem ends_alt (r s : Regex) (cs : List Char) : (alt r s).ends cs = r.ends cs ++ s.ends cs := rfl

theorem ends_seq_assoc (r s t : Regex) (cs : List Char) :
    (seq (seq r s) t).ends cs = (seq r (seq s t)).ends cs :=
  List.flatMap_assoc

theorem ends_alt_seq (r s t : Regex) (cs : List Char) :
    (seq (alt r s) t).ends cs = (seq r t).ends cs ++ (seq s t).ends cs :=
  List.flatMap_append

theorem ends_option_seq (r s : Regex) (cs : List Char) :
    (seq (option r) s).ends cs = (seq r s).ends cs ++ s.ends cs := by
  have hoption : (option r).ends cs = r.ends cs ++ [cs] := rfl
  rw [ends_seq, hoption, List.flatMap_append, List.flatMap_singleton, ends_seq]

theorem ends_seq_eq_nil (h : r.ends cs = []) : (seq r s).ends cs = [] := by
  rw [ends_seq, h, List.flatMap_nil]

theorem first?_one (h : p c = true) (cs : List Char) : (one p).first? (c :: cs) = some cs := by
  rw [first?, ends_one_cons, if_pos h, List.head?_cons]

theorem first?_seq (hr : r.first? cs = some mid) (hs : s.first? mid = some rest) :
    (seq r s).first? cs = some rest := by
  obtain ⟨more, hmore⟩ := exists_ends_eq_cons hr
  rw [first?] at hs
  rw [first?, ends_seq, hmore, List.flatMap_cons, List.head?_append, hs, Option.some_or]

theorem first?_alt_left (h : r.first? cs = some rest) : (alt r s).first? cs = some rest := by
  rw [first?] at h
  rw [first?, ends_alt, List.head?_append, h, Option.some_or]

theorem first?_alt_right (h : r.ends cs = []) : (alt r s).first? cs = s.first? cs := by
  rw [first?, ends_alt, h, List.nil_append, first?]

theorem first?_option_of_some (h : r.first? cs = some rest) :
    (option r).first? cs = some rest := by
  rw [first?] at h
  rw [first?, ends, List.head?_append, h, Option.some_or]

theorem first?_option_of_nil (h : r.ends cs = []) : (option r).first? cs = some cs := by
  rw [first?, ends, h, List.nil_append, List.head?_cons]

theorem first?_any (c : Char) (cs : List Char) : any.first? (c :: cs) = some cs :=
  first?_one rfl cs

theorem ends_sign_cons (c : Char) (cs : List Char) : (sign c).ends (c :: cs) = [cs] := by
  rw [sign, ends_one_cons, if_pos (beq_self_eq_true c)]

theorem first?_sign (c : Char) (cs : List Char) : (sign c).first? (c :: cs) = some cs := by
  rw [first?, ends_sign_cons, List.head?_cons]

theorem ends_sign_of (h : ∀ rest, cs ≠ c :: rest) : (sign c).ends cs = [] := by
  cases cs with
  | nil => rfl
  | cons d cs =>
      have hd : ¬(d == c) = true := fun heq => h cs (by rw [beq_iff_eq.1 heq])
      rw [sign, ends_one_cons, if_neg hd]

/-- A character, behind which the expression does not match. -/
theorem ends_sign_seq_of (h : ∀ rest, cs = c :: rest → r.ends rest = []) :
    (seq (sign c) r).ends cs = [] := by
  by_cases hc : ∃ rest, cs = c :: rest
  · obtain ⟨rest, rfl⟩ := hc
    rw [ends_seq, ends_sign_cons, List.flatMap_singleton, h rest rfl]
  · exact ends_seq_eq_nil (ends_sign_of fun rest hrest => hc ⟨rest, hrest⟩)

/-! ## Repetitions -/

theorem ends_many_of_nil (greedy : Bool) (h : r.ends cs = []) :
    (many greedy r).ends cs = [cs] := by
  rw [ends, rounds, h, List.flatMap_nil]
  cases greedy <;> rfl

theorem first?_many_of_nil (h : r.ends cs = []) : (many true r).first? cs = some cs := by
  rw [first?, ends_many_of_nil true h, List.head?_cons]

/-- A greedy repetition takes a first round that reads something. -/
theorem first?_many_of_some (h : r.first? cs = some mid) (hlen : mid.length < cs.length)
    (hmid : (many true r).first? mid = some rest) : (many true r).first? cs = some rest := by
  obtain ⟨more, hmore⟩ := exists_ends_eq_cons h
  rw [first?, ends] at hmid
  rw [first?, ends, rounds, hmore, List.flatMap_cons, dif_pos hlen, if_pos rfl, List.append_assoc,
    List.head?_append, hmid, Option.some_or]

/-- Rounds of one character each. -/
theorem ends_many_one_cons (h : p c = true) (cs : List Char) :
    (many true (one p)).ends (c :: cs) = (many true (one p)).ends cs ++ [c :: cs] := by
  rw [ends, rounds, ends_one_cons, if_pos h, List.flatMap_singleton,
    dif_pos (by rw [List.length_cons]; omega), if_pos rfl]
  rfl

theorem first?_many_one (p : Char → Bool) (cs : List Char) :
    (many true (one p)).first? cs = some (cs.dropWhile p) := by
  induction cs with
  | nil => exact first?_many_of_nil rfl
  | cons c cs ih =>
      by_cases hc : p c = true
      · rw [List.dropWhile_cons_of_pos hc]
        exact first?_many_of_some (first?_one hc cs) (by rw [List.length_cons]; omega) ih
      · rw [List.dropWhile_cons_of_neg hc]
        exact first?_many_of_nil (by rw [ends_one_cons, if_neg hc])

/-- A repeated character in front of what cannot start with it is taken as a whole. -/
theorem ends_many_sign_seq (h : ∀ rest, s.ends (c :: rest) = []) (cs : List Char) :
    (seq (many true (sign c)) s).ends cs = s.ends (cs.dropWhile (· == c)) := by
  induction cs with
  | nil => rw [ends_seq, ends_many_of_nil true rfl, List.flatMap_singleton, List.dropWhile_nil]
  | cons d cs ih =>
      by_cases hd : (d == c) = true
      · have hmore : (many true (sign c)).ends (d :: cs) =
            (many true (sign c)).ends cs ++ [d :: cs] :=
          ends_many_one_cons (p := (· == c)) hd cs
        rw [List.dropWhile_cons_of_pos (p := (· == c)) hd, ← ih, ends_seq, hmore,
          List.flatMap_append, List.flatMap_singleton, beq_iff_eq.1 hd, h, List.append_nil,
          ends_seq]
      · have hnone : (sign c).ends (d :: cs) = [] := by
          rw [sign, ends_one_cons, if_neg hd]
        rw [List.dropWhile_cons_of_neg (p := (· == c)) hd, ends_seq, ends_many_of_nil true hnone,
          List.flatMap_singleton]

/-- Enough of a character at the front are all taken. -/
theorem first?_atLeast_sign {n : Nat} (h : n ≤ (cs.takeWhile (· == c)).length) :
    (atLeast n (sign c)).first? cs = some (cs.dropWhile (· == c)) := by
  induction n generalizing cs with
  | zero => exact first?_many_one _ cs
  | succ n ih =>
      cases cs with
      | nil => contradiction
      | cons d cs =>
          by_cases hd : d = c
          · subst hd
            rw [List.takeWhile_cons_of_pos (p := (· == d)) (beq_self_eq_true d),
              List.length_cons] at h
            rw [List.dropWhile_cons_of_pos (p := (· == d)) (beq_self_eq_true d)]
            exact first?_seq (first?_sign d cs) (ih (Nat.le_of_succ_le_succ h))
          · rw [List.takeWhile_cons_of_neg (by simpa using hd)] at h
            contradiction

theorem ends_atLeast_sign {n : Nat} (h : (cs.takeWhile (· == c)).length < n) :
    (atLeast n (sign c)).ends cs = [] := by
  induction n generalizing cs with
  | zero => contradiction
  | succ n ih =>
      refine ends_sign_seq_of fun rest hrest => ih ?_
      rw [hrest, List.takeWhile_cons_of_pos (p := (· == c)) (beq_self_eq_true c),
        List.length_cons] at h
      exact Nat.lt_of_succ_lt_succ h

/-! ## Lazy searches -/

/-- As few characters as possible, then the expression. -/
def search (s : Regex) : Regex :=
  seq (many false any) s

theorem ends_search_nil (s : Regex) : (search s).ends [] = s.ends [] := by
  rw [search, ends_seq, ends_many_of_nil false rfl, List.flatMap_singleton]

theorem ends_search_cons (s : Regex) (c : Char) (cs : List Char) :
    (search s).ends (c :: cs) = s.ends (c :: cs) ++ (search s).ends cs := by
  have hrounds : (many false any).ends (c :: cs) = (c :: cs) :: (many false any).ends cs := by
    rw [ends, rounds]
    simp [any, ends]
  rw [search, ends_seq, hrounds, List.flatMap_cons]
  rfl

theorem first?_search_here (h : s.first? cs = some rest) : (search s).first? cs = some rest := by
  cases cs with
  | nil => rw [first?, ends_search_nil, ← first?, h]
  | cons c cs =>
      rw [first?] at h
      rw [first?, ends_search_cons, List.head?_append, h, Option.some_or]

theorem first?_search_skip (h : s.ends (c :: cs) = []) :
    (search s).first? (c :: cs) = (search s).first? cs := by
  rw [first?, ends_search_cons, h, List.nil_append, first?]

end

end Regex
end UsingStyle
