import UsingStyle.Proofs.Token.Literals

/-! # Raw strings

A raw string is closed by as many quotes as have opened it, so its content may hold any shorter run
of quotes. The lexer counts the quotes of the opening but closes the literal at the first three
quotes in a row. It finds the whole literal exactly if its content holds no three quotes in a row:
always behind three quotes, and not always behind more.
-/

namespace UsingStyle

open Text Lexeme

/-! ## Written raw strings -/

/-- A raw string as it is written: some `$`, three or more quotes, a content that neither starts nor
ends with a quote and holds no run of as many quotes, and the same quotes again. -/
structure RawString where
  dollars : Nat
  quotes : Nat
  content : List Char
  three_le_quotes : 3 ≤ quotes
  content_ne_nil : content ≠ []
  head?_content : content.head? ≠ some '"'
  getLast?_content : content.getLast? ≠ some '"'
  apart : ¬ List.replicate quotes '"' <:+: content

namespace RawString

/-- The characters in front of the content. -/
def opening (r : RawString) : List Char :=
  List.replicate r.dollars '$' ++ List.replicate r.quotes '"'

/-- The content and everything behind it in a text that goes on with `rest`. -/
def behindOpening (r : RawString) (rest : List Char) : List Char :=
  r.content ++ (List.replicate r.quotes '"' ++ rest)

/-- The characters of the whole literal. -/
def chars (r : RawString) : List Char :=
  r.opening ++ (r.content ++ List.replicate r.quotes '"')

theorem length_opening (r : RawString) : r.opening.length = r.dollars + r.quotes := by
  simp [opening]

theorem length_chars (r : RawString) :
    r.chars.length = r.opening.length + (r.content.length + r.quotes) := by
  simp [chars]

theorem chars_append (r : RawString) (rest : List Char) :
    r.chars ++ rest = r.opening ++ r.behindOpening rest := by
  simp [chars, behindOpening]

/-- The lexer reads all quotes in front of the content as the opening. -/
theorem ofText_chars (r : RawString) (fresh : Bool) (rest : List Char) :
    Opening.ofText fresh (r.chars ++ rest) = .rawString (r.dollars + r.quotes) := by
  obtain ⟨more, hmore⟩ : ∃ more, List.replicate r.quotes '"' = '"' :: more := by
    obtain ⟨m, hm⟩ := Nat.exists_eq_add_of_le' r.three_le_quotes
    exact ⟨List.replicate (m + 2) '"', by rw [hm]; rfl⟩
  have hcontent : ∀ c ∈ (r.behindOpening rest).head?, (c == '"') = false := by
    rw [behindOpening, List.head?_append_of_ne_nil _ r.content_ne_nil]
    exact head?_beq_eq_false r.head?_content
  have hquotes : run (· == '"') (List.replicate r.quotes '"' ++ r.behindOpening rest) =
      r.quotes := by
    rw [Piece.run_append_of_all (by simp) hcontent, List.length_replicate]
  have hdollars : run (· == '$')
      (List.replicate r.dollars '$' ++ (List.replicate r.quotes '"' ++ r.behindOpening rest)) =
        r.dollars := by
    rw [Piece.run_append_of_all (by simp) (by simp [hmore]), List.length_replicate]
  have hdrop : (List.replicate r.dollars '$' ++
      (List.replicate r.quotes '"' ++ r.behindOpening rest)).drop r.dollars =
        List.replicate r.quotes '"' ++ r.behindOpening rest := by
    simp
  have hsharp : (List.replicate r.dollars '$' ++
      (List.replicate r.quotes '"' ++ r.behindOpening rest)).head? ≠ some '#' := by
    cases r.dollars with
    | zero => simp [hmore]
    | succ n => simp [List.replicate_succ]
  rw [chars_append, opening, List.append_assoc]
  rw [Opening.ofText_of_quotes hsharp (by rw [hdollars, hdrop, hquotes]), hdollars,
    if_pos r.three_le_quotes]

end RawString

/-! ## The quotes that close -/

namespace Lexeme

theorem rawStringRest_replicate {n : Nat} (hn : 3 ≤ n) {rest : List Char}
    (hrest : rest.head? ≠ some '"') : rawStringRest (List.replicate n '"' ++ rest) = n := by
  obtain ⟨m, rfl⟩ := Nat.exists_eq_add_of_le' hn
  have hrun : run (· == '"') (List.replicate m '"' ++ rest) = m := by
    rw [Piece.run_append_of_all (by simp) (head?_beq_eq_false hrest), List.length_replicate]
  show rawStringRest ('"' :: '"' :: '"' :: (List.replicate m '"' ++ rest)) = m + 3
  rw [rawStringRest, hrun]

/-- Three quotes at the front of a content and what follows it are three quotes of the content
alone, since its last character is no quote. -/
theorem quotes_prefix_of_append {content behind : List Char} (hne : content ≠ [])
    (hlast : content.getLast? ≠ some '"')
    (h : ['"', '"', '"'] <+: content ++ behind) : ['"', '"', '"'] <+: content := by
  match content with
  | [c] =>
      have hc := (List.cons_prefix_cons.1 h).1
      exact absurd (congrArg some hc.symm) hlast
  | [c, d] =>
      have hd := (List.cons_prefix_cons.1 (List.cons_prefix_cons.1 h).2).1
      exact absurd (congrArg some hd.symm) hlast
  | c :: d :: e :: content =>
      obtain ⟨hc, h⟩ := List.cons_prefix_cons.1 h
      obtain ⟨hd, h⟩ := List.cons_prefix_cons.1 h
      have he := (List.cons_prefix_cons.1 h).1
      exact ⟨content, by rw [← hc, ← hd, ← he]; rfl⟩

theorem getLast?_tail_ne {c d : Char} {cs : List Char} (h : (c :: cs).getLast? ≠ some d) :
    cs.getLast? ≠ some d := by
  intro hd
  rw [List.getLast?_cons, hd] at h
  exact h rfl

/-- A content without three quotes in a row is closed by the quotes behind it. -/
theorem rawStringRest_append_quotes {n : Nat} (hn : 3 ≤ n) {content : List Char}
    (hlast : content.getLast? ≠ some '"') (hfree : ¬ ['"', '"', '"'] <:+: content)
    {rest : List Char} (hrest : rest.head? ≠ some '"') :
    rawStringRest (content ++ (List.replicate n '"' ++ rest)) = content.length + n := by
  induction content with
  | nil => rw [List.nil_append, rawStringRest_replicate hn hrest, List.length_nil, Nat.zero_add]
  | cons c content ih =>
      have hopen : ∀ tail, c :: (content ++ (List.replicate n '"' ++ rest)) ≠
          '"' :: '"' :: '"' :: tail := by
        intro tail heq
        have hprefix : ['"', '"', '"'] <+: c :: content ++ (List.replicate n '"' ++ rest) :=
          ⟨tail, heq.symm⟩
        have hcontent := quotes_prefix_of_append (List.cons_ne_nil c content) hlast hprefix
        exact hfree hcontent.isInfix
      have htail : ¬ ['"', '"', '"'] <:+: content :=
        fun h => hfree (h.trans (List.suffix_cons c content).isInfix)
      have hrec := ih (getLast?_tail_ne hlast) htail
      rw [List.cons_append, rawStringRest, hrec, List.length_cons]
      · omega
      · rintro tail rfl heq
        exact hopen tail (by rw [heq])

/-- Three quotes in a row close the literal inside the content. -/
theorem rawStringRest_lt {content : List Char} (hlast : content.getLast? ≠ some '"')
    (h : ['"', '"', '"'] <:+: content) : rawStringRest content < content.length := by
  fun_induction rawStringRest content with
  | case1 cs =>
      have hle := run_le_length (· == '"') cs
      have hne : run (· == '"') cs ≠ cs.length := by
        intro heq
        have hall : cs.takeWhile (· == '"') = cs := by
          rw [← take_run, heq, List.take_length]
        apply hlast
        cases hend : cs.getLast? with
        | none => simp [List.getLast?_cons, hend]
        | some c =>
            have hmem : c ∈ cs.takeWhile (· == '"') := by
              rw [hall]
              exact List.mem_of_getLast? hend
            have hc := List.all_eq_true.1 List.all_takeWhile c hmem
            simpa [List.getLast?_cons, hend] using hc
      simp only [List.length_cons]
      omega
  | case2 c cs hopen ih =>
      have hcs : ['"', '"', '"'] <:+: cs := by
        rcases List.infix_cons_iff.1 h with hfront | hrest
        · obtain ⟨tail, htail⟩ := hfront
          obtain ⟨hc, hquotes⟩ := List.cons.inj htail
          exact (hopen tail hc.symm hquotes.symm).elim
        · exact hrest
      exact Nat.succ_lt_succ (ih (getLast?_tail_ne hlast) hcs)
  | case3 => simp at h

end Lexeme

/-! ## The first token -/

namespace RawString

/-- The literal and its content up to the place where the lexer closes it. -/
theorem head?_tokenize (r : RawString) (rest : List Char) :
    (tokenize (String.ofList (r.chars ++ rest))).head? = some ⟨.string, String.ofList
      ((r.chars ++ rest).take (r.opening.length + rawStringRest (r.behindOpening rest))),
        .start⟩ := by
  have hopening := r.ofText_chars true rest
  have hlength : Lexeme.length (.rawString (r.dollars + r.quotes)) (r.chars ++ rest) =
      r.opening.length + rawStringRest (r.behindOpening rest) := by
    rw [chars_append, Lexeme.length, Opening.lead, ← length_opening, List.drop_left]
    rfl
  have hne : r.chars ++ rest ≠ [] := by simp [chars, r.content_ne_nil]
  obtain ⟨c, cs, hcs⟩ := List.exists_cons_of_ne_nil hne
  rw [tokenize, String.toList_ofList]
  rw [hcs] at hopening hlength ⊢
  rw [tokensFrom, List.head?_cons]
  simp only [hopening, hlength]
  rfl

theorem take_chars (r : RawString) (rest : List Char) :
    (r.chars ++ rest).take r.chars.length = r.chars := List.take_left

variable (r : RawString) {rest : List Char}

theorem head?_tokenize_of_free (hrest : rest.head? ≠ some '"')
    (hfree : ¬ ['"', '"', '"'] <:+: r.content) :
    (tokenize (String.ofList (r.chars ++ rest))).head? =
      some ⟨.string, String.ofList r.chars, .start⟩ := by
  have hclose := rawStringRest_append_quotes r.three_le_quotes r.getLast?_content hfree hrest
  have hwhole : r.opening.length + rawStringRest (r.behindOpening rest) = r.chars.length := by
    rw [length_chars, ← hclose]
    rfl
  rw [head?_tokenize, hwhole, take_chars]

theorem stop_lt_of_not_free (hquotes : ['"', '"', '"'] <:+: r.content) (rest : List Char) :
    ∃ t, (tokenize (String.ofList (r.chars ++ rest))).head? = some t ∧ t.kind = .string ∧
      t.stop < r.opening.length + r.content.length := by
  have hlt := rawStringRest_lt r.getLast?_content hquotes
  have hearly : rawStringRest (r.behindOpening rest) = rawStringRest r.content :=
    rawStringRest_append hlt _
  refine ⟨_, r.head?_tokenize rest, rfl, ?_⟩
  rw [Token.stop, String.length_ofList, hearly]
  have hle := List.length_take_le
    (r.opening.length + rawStringRest r.content) (r.chars ++ rest)
  show 0 + _ < _
  omega

/-- The lexer finds a raw string whole if and only if its content holds no three quotes in a row, as
it does behind just three quotes. Otherwise it closes the literal inside the content. -/
theorem first_token_whole_iff (hrest : rest.head? ≠ some '"') :
    ((tokenize (String.ofList (r.chars ++ rest))).head? =
        some ⟨.string, String.ofList r.chars, .start⟩ ↔ ¬ ['"', '"', '"'] <:+: r.content) ∧
      (r.quotes = 3 → (tokenize (String.ofList (r.chars ++ rest))).head? =
        some ⟨.string, String.ofList r.chars, .start⟩) ∧
      (['"', '"', '"'] <:+: r.content →
        ∃ t, (tokenize (String.ofList (r.chars ++ rest))).head? = some t ∧ t.kind = .string ∧
          t.stop < r.opening.length + r.content.length) := by
  refine ⟨⟨?_, r.head?_tokenize_of_free hrest⟩, ?_, fun h => r.stop_lt_of_not_free h rest⟩
  · intro hwhole hquotes
    obtain ⟨t, ht, -, hstop⟩ := r.stop_lt_of_not_free hquotes rest
    rw [hwhole] at ht
    cases ht
    rw [Token.stop, String.length_ofList, length_chars] at hstop
    omega
  · intro hthree
    have hfree := r.apart
    rw [hthree] at hfree
    exact r.head?_tokenize_of_free hrest hfree

/-- Four quotes around a content with two, a brace and a line break. -/
def inFourQuotes : RawString where
  dollars := 2
  quotes := 4
  content := "\x7b\"\"\n#".toList
  three_le_quotes := by decide
  content_ne_nil := by decide
  head?_content := by decide
  getLast?_content := by decide
  apart := by decide

theorem first_token_whole_in_four_quotes :
    [';'].head? ≠ some '"' ∧ (tokenize "$$\"\"\"\"\x7b\"\"\n#\"\"\"\";").head? =
      some ⟨.string, "$$\"\"\"\"\x7b\"\"\n#\"\"\"\"", .start⟩ := by
  have hrest : [';'].head? ≠ some '"' := by decide
  have hfree : ¬ ['"', '"', '"'] <:+: inFourQuotes.content := by decide
  exact ⟨hrest, (first_token_whole_iff inFourQuotes hrest).1.2 hfree⟩

/-- Four quotes around a content with three. -/
def aroundThreeQuotes : RawString where
  dollars := 0
  quotes := 4
  content := "a\"\"\"b".toList
  three_le_quotes := by decide
  content_ne_nil := by decide
  head?_content := by decide
  getLast?_content := by decide
  apart := by decide

theorem not_forall_first_token_whole :
    ¬ ∀ (r : RawString) (rest : List Char), rest.head? ≠ some '"' →
      (tokenize (String.ofList (r.chars ++ rest))).head? =
        some ⟨.string, String.ofList r.chars, .start⟩ := by
  intro h
  have hwhole := h aroundThreeQuotes [] (by decide)
  revert hwhole
  decide +kernel

end RawString
end UsingStyle
