import Mathlib.Data.List.TakeWhile
import UsingStyle.Proofs.Regex
import UsingStyle.Proofs.Token.Contents

/-! # The pattern of lexemes

Lexemes have a second description: a regular expression of eleven alternatives, tried in order, each
with an opener and a body. The bodies fit behind every opener, and their first match is the rest of
the lexeme.
-/

namespace UsingStyle.Lexeme

open Text Regex

/-! ## The alternatives -/

/-- The alternatives, in the order in which they are tried. -/
inductive Group where
  | newline
  | whitespace
  | lineComment
  | blockComment
  | rawString
  | verbatimString
  | string
  | char
  | identifier
  | number
  | punctuation
  deriving DecidableEq, Repr

/-- A character of a verbatim string, or two quotes for one. -/
def verbatimRound : Regex :=
  alt (one (· != '"')) (seq (sign '"') (sign '"'))

/-- A plain character of a literal, or a backslash and any character. -/
def escapedRound (delimiter : Char) : Regex :=
  alt (one fun c => !(c == delimiter || c == '\\' || isBreak c)) (seq (sign '\\') any)

/-- The characters of a literal, and the delimiter if it follows. -/
def escapedBody (delimiter : Char) : Regex :=
  seq (many true (escapedRound delimiter)) (option (sign delimiter))

namespace Group

/-- All alternatives, in order. -/
def all : List Group :=
  [newline, whitespace, lineComment, blockComment, rawString, verbatimString, string, char,
    identifier, number, punctuation]

/-- How a match of the alternative starts. -/
def opener : Group → Regex
  | newline => alt (seq (sign '\r') (sign '\n')) (alt (sign '\n') (sign '\r'))
  | whitespace => one isInlineBlank
  | lineComment => seq (sign '/') (sign '/')
  | blockComment => seq (sign '/') (sign '*')
  | rawString => seq (many true (sign '$')) (atLeast 3 (sign '"'))
  | verbatimString =>
    seq (alt (seq (sign '$') (sign '@')) (alt (seq (sign '@') (sign '$')) (sign '@'))) (sign '"')
  | string => seq (option (sign '$')) (sign '"')
  | char => sign '\''
  | identifier => seq (option (sign '@')) (one isWordStart)
  | number => one isDigit
  | punctuation => alt (seq (sign ':') (sign ':')) any

/-- What follows the opener. -/
def body : Group → Regex
  | newline | punctuation => empty
  | whitespace => many true (one isInlineBlank)
  | lineComment => many true (one fun c => !isBreak c)
  | blockComment => alt (search (seq (sign '*') (sign '/'))) (seq (many true any) atEnd)
  | rawString => search (alt (atLeast 3 (sign '"')) atEnd)
  | verbatimString => seq (many true verbatimRound) (alt (sign '"') atEnd)
  | string => escapedBody '"'
  | char => escapedBody '\''
  | identifier => many true (one isWord)
  | number =>
    seq (many true (one isWord))
      (option (seq (sign '.') (seq (one isDigit) (many true (one isWord)))))

/-- The whole alternative. -/
def regex (g : Group) : Regex :=
  seq g.opener g.body

end Group

/-- The first match of the pattern at the front of a text: the alternative that matches, and what it
leaves. -/
def firstMatch? (cs : List Char) : Option (Group × List Char) :=
  (Group.all.flatMap fun g => (g.regex.ends cs).map fun rest => (g, rest)).head?

/-- The alternative for lexemes of an opening. A preprocessor line is none of them. -/
def Opening.group? : Opening → Option Group
  | lineBreak _ => some .newline
  | blank => some .whitespace
  | lineComment => some .lineComment
  | blockComment => some .blockComment
  | preprocessor => none
  | rawString _ => some .rawString
  | verbatimString _ => some .verbatimString
  | string _ => some .string
  | char => some .char
  | identifier _ => some .identifier
  | number => some .number
  | symbol _ => some .punctuation

/-! ## Fixed characters -/

/-- Two characters that are not both there. -/
theorem ends_signs_of_ne {a b : Char} {cs : List Char} (h : ∀ rest, cs ≠ a :: b :: rest) :
    (seq (sign a) (sign b)).ends cs = [] := by
  refine ends_sign_seq_of fun mid hmid => ends_sign_of fun rest hrest => ?_
  exact h rest (by rw [hmid, hrest])

theorem run_lt_three {c : Char} {cs : List Char} (h : ∀ rest, cs ≠ c :: c :: c :: rest) :
    run (· == c) cs < 3 := by
  by_contra hrun
  obtain ⟨n, hn⟩ := Nat.exists_eq_add_of_le' (Nat.not_lt.1 hrun)
  have hfront : cs.takeWhile (· == c) = List.replicate (n + 3) c := by
    refine List.eq_replicate_iff.2 ⟨hn, fun d hd => ?_⟩
    exact beq_iff_eq.1 (List.all_eq_true.1 List.all_takeWhile d hd)
  have hcut : cs.takeWhile (· == c) ++ cs.dropWhile (· == c) = cs :=
    List.takeWhile_append_dropWhile
  rw [hfront] at hcut
  exact h (List.replicate n c ++ cs.dropWhile (· == c)) hcut.symm

/-! ## Bodies -/

theorem search_commentEnd (cs : List Char) :
    (search (seq (sign '*') (sign '/'))).first? cs = some (cs.drop (blockCommentRest cs)) ∨
      (search (seq (sign '*') (sign '/'))).ends cs = [] ∧ cs.drop (blockCommentRest cs) = [] := by
  fun_induction blockCommentRest cs with
  | case1 cs =>
      exact .inl (first?_search_here (first?_seq (first?_sign '*' _) (first?_sign '/' cs)))
  | case2 c cs hopen ih =>
      have hnone : (seq (sign '*') (sign '/')).ends (c :: cs) = [] :=
        ends_signs_of_ne fun rest heq => by
          cases heq
          exact hopen rest rfl rfl
      rw [List.drop_succ_cons, first?_search_skip hnone, ends_search_cons, hnone, List.nil_append]
      exact ih
  | case3 =>
      rw [ends_search_nil]
      exact .inr ⟨rfl, rfl⟩

/-- All that is left, and the end of the text. -/
theorem first?_toEnd (cs : List Char) : (seq (many true any) atEnd).first? cs = some [] := by
  have hall : cs.dropWhile (fun _ => true) = [] := List.dropWhile_eq_nil_iff.2 fun _ _ => rfl
  exact first?_seq ((first?_many_one _ cs).trans (congrArg some hall)) rfl

theorem first?_blockComment (cs : List Char) :
    Group.blockComment.body.first? cs = some (cs.drop (blockCommentRest cs)) := by
  rcases search_commentEnd cs with hclosed | ⟨hopen, hend⟩
  · exact first?_alt_left hclosed
  · rw [Group.body, first?_alt_right hopen, hend]
    exact first?_toEnd cs

theorem first?_rawString (cs : List Char) :
    Group.rawString.body.first? cs = some (cs.drop (rawStringRest cs)) := by
  rw [Group.body]
  fun_induction rawStringRest cs with
  | case1 cs =>
      have hrun : run (· == '"') ('"' :: '"' :: '"' :: cs) = run (· == '"') cs + 3 := rfl
      rw [← hrun, drop_run]
      exact first?_search_here (first?_alt_left (first?_atLeast_sign (Nat.le_add_left 3 _)))
  | case2 c cs hopen ih =>
      have hnone : (atLeast 3 (sign '"')).ends (c :: cs) = [] :=
        ends_atLeast_sign (run_lt_three fun rest heq => by
          cases heq
          exact hopen rest rfl rfl)
      have hnext : (alt (atLeast 3 (sign '"')) atEnd).ends (c :: cs) = [] := by
        rw [ends_alt, hnone]
        rfl
      rw [first?_search_skip hnext, List.drop_succ_cons]
      exact ih
  | case3 => exact first?_search_here (first?_alt_right rfl)

theorem first?_verbatimString (cs : List Char) :
    Group.verbatimString.body.first? cs = some (cs.drop (verbatimStringRest cs)) := by
  have hrounds : ∃ mid, (many true verbatimRound).first? cs = some mid ∧
      (alt (sign '"') atEnd).first? mid = some (cs.drop (verbatimStringRest cs)) := by
    fun_induction verbatimStringRest cs with
    | case1 cs ih =>
        obtain ⟨mid, hmid, hend⟩ := ih
        have hround : verbatimRound.first? ('"' :: '"' :: cs) = some cs :=
          (first?_alt_right rfl).trans (first?_seq (first?_sign '"' _) (first?_sign '"' cs))
        exact ⟨mid, first?_many_of_some hround (Nat.lt_succ_of_lt (Nat.lt_succ_self _)) hmid, hend⟩
    | case2 cs hsingle =>
        refine ⟨'"' :: cs, first?_many_of_nil ?_, first?_alt_left (first?_sign '"' cs)⟩
        rw [verbatimRound, ends_alt, ends_signs_of_ne]
        · rfl
        · intro rest heq
          cases heq
          exact hsingle rest rfl
    | case3 c cs _ hplain ih =>
        obtain ⟨mid, hmid, hend⟩ := ih
        have hround : verbatimRound.first? (c :: cs) = some cs :=
          first?_alt_left (first?_one (by simpa using hplain) cs)
        exact ⟨mid, first?_many_of_some hround (by simp) hmid, hend⟩
    | case4 => exact ⟨[], first?_many_of_nil rfl, first?_alt_right rfl⟩
  obtain ⟨mid, hmid, hend⟩ := hrounds
  exact first?_seq hmid hend

/-- Neither a plain character nor an escape starts here. -/
theorem ends_escapedRound {delimiter c : Char} {cs : List Char}
    (hplain : c = delimiter ∨ c = '\\' ∨ isBreak c = true)
    (hescape : ∀ d ds, c = '\\' → cs = d :: ds → False) :
    (escapedRound delimiter).ends (c :: cs) = [] := by
  have hone : (!(c == delimiter || c == '\\' || isBreak c)) = false := by
    simp only [Bool.not_eq_eq_eq_not, Bool.not_false, Bool.or_eq_true, beq_iff_eq, or_assoc]
    exact hplain
  have hpair : (seq (sign '\\') any).ends (c :: cs) = [] := by
    refine ends_sign_seq_of fun rest heq => ?_
    cases heq
    cases cs with
    | nil => rfl
    | cons d ds => exact absurd rfl (hescape d ds rfl)
  rw [escapedRound, ends_alt, hpair, ends_one_cons, hone]
  rfl

theorem first?_escapedBody {delimiter : Char} (hdelimiter : delimiter ≠ '\\') (cs : List Char) :
    (escapedBody delimiter).first? cs = some (cs.drop (escapedRest delimiter cs)) := by
  have hrounds : ∃ mid, (many true (escapedRound delimiter)).first? cs = some mid ∧
      (option (sign delimiter)).first? mid = some (cs.drop (escapedRest delimiter cs)) := by
    fun_induction escapedRest delimiter cs with
    | case1 c cs ih =>
        obtain ⟨mid, hmid, hend⟩ := ih
        have hround : (escapedRound delimiter).first? ('\\' :: c :: cs) = some cs :=
          (first?_alt_right (by simp)).trans
            (first?_seq (first?_sign '\\' _) (first?_any c cs))
        exact ⟨mid, first?_many_of_some hround (Nat.lt_succ_of_lt (Nat.lt_succ_self _)) hmid, hend⟩
    | case2 c cs hescape hc =>
        have hdelim : c = delimiter := beq_iff_eq.1 hc
        subst hdelim
        exact ⟨c :: cs, first?_many_of_nil (ends_escapedRound (.inl rfl) hescape),
          first?_option_of_some (first?_sign c cs)⟩
    | case3 c cs hescape hc hstop =>
        have hplain : c = delimiter ∨ c = '\\' ∨ isBreak c = true :=
          .inr (by simpa using hstop)
        refine ⟨c :: cs, first?_many_of_nil (ends_escapedRound hplain hescape),
          first?_option_of_nil (ends_sign_of fun rest heq => ?_)⟩
        cases heq
        exact hc (beq_self_eq_true _)
    | case4 c cs _ hc hstop ih =>
        obtain ⟨mid, hmid, hend⟩ := ih
        have hround : (escapedRound delimiter).first? (c :: cs) = some cs :=
          first?_alt_left (first?_one (by simp_all) cs)
        exact ⟨mid, first?_many_of_some hround (by simp) hmid, hend⟩
    | case5 => exact ⟨[], first?_many_of_nil rfl, first?_option_of_nil rfl⟩
  obtain ⟨mid, hmid, hend⟩ := hrounds
  exact first?_seq hmid hend

theorem first?_number (cs : List Char) :
    Group.number.body.first? cs = some (cs.drop (numberRest cs)) := by
  refine first?_seq (first?_many_one isWord cs) ?_
  rw [← drop_run, numberRest]
  split
  · rename_i d ds hdrop
    rw [hdrop]
    split
    · rename_i hdigit
      refine first?_option_of_some (first?_seq (first?_sign '.' _)
        (first?_seq (first?_one hdigit ds) ((first?_many_one isWord ds).trans ?_)))
      rw [Nat.add_assoc, ← List.drop_drop, hdrop, ← drop_run, Nat.add_comm 2, List.drop_succ_cons,
        List.drop_succ_cons]
    · rename_i hdigit
      rw [first?_option_of_nil, hdrop]
      refine ends_sign_seq_of fun rest heq => ends_seq_eq_nil ?_
      cases heq
      rw [ends_one_cons, if_neg hdigit]
  · rename_i hfraction
    refine first?_option_of_nil (ends_sign_seq_of fun rest heq => ends_seq_eq_nil ?_)
    cases rest with
    | nil => rfl
    | cons d ds => exact absurd heq (hfraction d ds)

/-- Behind every opener the body matches, and first of all as the rest of the lexeme. -/
theorem first?_body {o : Opening} {g : Group} (h : o.group? = some g) (cs : List Char) :
    g.body.first? cs = some (cs.drop (rest o cs)) := by
  cases o with
  | lineBreak _ | symbol _ =>
      cases h
      rfl
  | blank | lineComment | identifier _ =>
      cases h
      rw [rest, drop_run]
      exact first?_many_one _ cs
  | blockComment =>
      cases h
      exact first?_blockComment cs
  | preprocessor => contradiction
  | rawString _ =>
      cases h
      exact first?_rawString cs
  | verbatimString _ =>
      cases h
      exact first?_verbatimString cs
  | string _ =>
      cases h
      exact first?_escapedBody (by decide) cs
  | char =>
      cases h
      exact first?_escapedBody (by decide) cs
  | number =>
      cases h
      exact first?_number cs

theorem isTotal_body (g : Group) : g.body.IsTotal := by
  obtain ⟨o, ho⟩ : ∃ o : Opening, o.group? = some g := by
    cases g with
    | newline => exact ⟨.lineBreak 0, rfl⟩
    | whitespace => exact ⟨.blank, rfl⟩
    | lineComment => exact ⟨.lineComment, rfl⟩
    | blockComment => exact ⟨.blockComment, rfl⟩
    | rawString => exact ⟨.rawString 0, rfl⟩
    | verbatimString => exact ⟨.verbatimString 0, rfl⟩
    | string => exact ⟨.string 0, rfl⟩
    | char => exact ⟨.char, rfl⟩
    | identifier => exact ⟨.identifier 0, rfl⟩
    | number => exact ⟨.number, rfl⟩
    | punctuation => exact ⟨.symbol 0, rfl⟩
  exact fun cs => ends_ne_nil_of_first? (first?_body ho cs)

end UsingStyle.Lexeme
