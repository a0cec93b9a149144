import UsingStyle.Proofs.Token.Spelling

/-! # Literals and comments are single tokens

A literal or block comment that is written out whole is one token, whatever it holds: braces, other
quotes, the openings of comments and, where the literal allows them, line breaks. The lexer finds
its closing characters at the same place as the rules of the language do, with one exception. It
closes a raw string at the first three quotes in a row, also when more than three have opened it.
-/

namespace UsingStyle

open Text Lexeme

/-! ## Bodies of literals -/

/-- A body in which a backslash takes any character with it, and no other character is the delimiter
or a line break. -/
inductive EscapedBody (delimiter : Char) : List Char → Prop
  | nil : EscapedBody delimiter []
  | plain {c : Char} {cs : List Char} (hdelimiter : c ≠ delimiter) (hbackslash : c ≠ '\\')
      (hbreak : isBreak c = false) (hrest : EscapedBody delimiter cs) :
      EscapedBody delimiter (c :: cs)
  | escape (c : Char) {cs : List Char} (hrest : EscapedBody delimiter cs) :
      EscapedBody delimiter ('\\' :: c :: cs)

/-- The characters with every `"` written twice. -/
def doubleQuotes (cs : List Char) : List Char :=
  cs.flatMap fun c => if c = '"' then ['"', '"'] else [c]

/-- The body of a block comment: the first `*/` behind it is the one that closes it. -/
def ClosesFirst (body : List Char) : Prop :=
  ∀ front back, body ++ ['*', '/'] = front ++ '*' :: '/' :: back → front = body

theorem ClosesFirst.tail {c : Char} {cs : List Char} (h : ClosesFirst (c :: cs)) :
    ClosesFirst cs := by
  intro front back heq
  have hfront := h (c :: front) back (by rw [List.cons_append, heq, List.cons_append])
  exact (List.cons.inj hfront).2

namespace Lexeme

theorem escapedRest_append_delimiter {delimiter : Char} (hdelimiter : delimiter ≠ '\\')
    {body : List Char} (h : EscapedBody delimiter body) (rest : List Char) :
    escapedRest delimiter (body ++ delimiter :: rest) = body.length + 1 := by
  induction h with
  | nil =>
      rw [List.nil_append, escapedRest, if_pos (beq_self_eq_true delimiter)]
      · rfl
      · exact fun _ _ heq _ => hdelimiter heq
  | @plain c cs hc hbackslash hbreak hrest ih =>
      have hstop : ¬ (c == '\\' || isBreak c) = true := by simp [hbackslash, hbreak]
      rw [List.cons_append, escapedRest, if_neg (by simpa using hc), if_neg hstop, ih]
      · rfl
      · exact fun _ _ heq _ => hbackslash heq
  | escape c hrest ih =>
      rw [List.cons_append, List.cons_append, escapedRest, ih]
      rfl

theorem verbatimStringRest_append_quote (content : List Char) {rest : List Char}
    (hrest : rest.head? ≠ some '"') :
    verbatimStringRest (doubleQuotes content ++ '"' :: rest) =
      (doubleQuotes content).length + 1 := by
  induction content with
  | nil =>
      show verbatimStringRest ('"' :: rest) = 1
      rw [verbatimStringRest]
      rintro tail rfl
      exact hrest rfl
  | cons c content ih =>
      by_cases hc : c = '"'
      · subst hc
        show verbatimStringRest ('"' :: '"' :: (doubleQuotes content ++ '"' :: rest)) =
          (doubleQuotes content).length + 1 + 1 + 1
        rw [verbatimStringRest, ih]
      · have hcons : doubleQuotes (c :: content) = c :: doubleQuotes content := by
          simp [doubleQuotes, hc]
        rw [hcons, List.cons_append, verbatimStringRest, ih, List.length_cons]
        · exact fun _ heq _ => hc heq
        · exact hc

theorem blockCommentRest_append_close {body : List Char} (h : ClosesFirst body)
    (rest : List Char) :
    blockCommentRest (body ++ '*' :: '/' :: rest) = body.length + 2 := by
  induction body with
  | nil => rfl
  | cons c body ih =>
      rw [List.cons_append, blockCommentRest, ih h.tail, List.length_cons]
      -- a `*/` at the front would close the comment before its end
      rintro tail rfl heq
      have hearly : ∃ back, body ++ ['*', '/'] = '/' :: back := by
        cases body with
        | nil => simp at heq
        | cons d body => exact ⟨body ++ ['*', '/'], by rw [(List.cons.inj heq).1]; rfl⟩
      obtain ⟨back, hback⟩ := hearly
      have hnil := h [] back (by rw [List.cons_append, hback, List.nil_append])
      contradiction

end Lexeme

/-! ## Literals as pieces -/

/-- The texts of literals other than raw strings, and of block comments, with their kinds. -/
inductive WrittenWhole : TokenKind → List Char → Prop
  | string {dollar body : List Char} (hdollar : dollar ∈ [[], ['$']])
      (hbody : EscapedBody '"' body) :
      WrittenWhole .string (dollar ++ '"' :: (body ++ ['"']))
  | verbatim {signs : List Char} (hsigns : signs ∈ [['@'], ['$', '@'], ['@', '$']])
      (content : List Char) :
      WrittenWhole .string (signs ++ '"' :: (doubleQuotes content ++ ['"']))
  | char {body : List Char} (hbody : EscapedBody '\'' body) :
      WrittenWhole .char ('\'' :: (body ++ ['\'']))
  | blockComment {body : List Char} (hbody : ClosesFirst body) :
      WrittenWhole .blockComment ('/' :: '*' :: (body ++ ['*', '/']))

namespace Lexeme.Opening

theorem ofText_of_quotes {fresh : Bool} {cs : List Char} (hsharp : cs.head? ≠ some '#') {n : Nat}
    (hquotes : run (· == '"') (cs.drop (run (· == '$') cs)) = n) :
    ofText fresh cs = if 3 ≤ n then .rawString (run (· == '$') cs + n) else ofFront cs := by
  have hplain : ¬ (fresh && cs.head? == some '#') = true := by simp [hsharp]
  unfold ofText
  rw [if_neg hplain, ← hquotes]

/-- One or two quotes, behind any number of `$`, do not open a raw string. -/
theorem ofText_of_few_quotes {fresh : Bool} {cs : List Char} (hsharp : cs.head? ≠ some '#')
    (hquotes : run (· == '"') (cs.drop (run (· == '$') cs)) < 3) :
    ofText fresh cs = ofFront cs := by
  rw [ofText_of_quotes hsharp rfl, if_neg (Nat.not_le.2 hquotes)]

end Lexeme.Opening

theorem head?_beq_eq_false {rest : List Char} (hrest : rest.head? ≠ some '"') :
    ∀ c ∈ rest.head?, (c == '"') = false := by
  intro c hc
  apply beq_eq_false_iff_ne.2
  rintro rfl
  exact hrest hc

theorem EscapedBody.quotes_lt {body : List Char} (h : EscapedBody '"' body) {rest : List Char}
    (hrest : rest.head? ≠ some '"') : run (· == '"') ('"' :: (body ++ '"' :: rest)) < 3 := by
  cases h with
  | nil =>
      have hrun : run (· == '"') (['"', '"'] ++ rest) = 2 :=
        Piece.run_append_of_all (by simp) (head?_beq_eq_false hrest)
      show run (· == '"') (['"', '"'] ++ rest) < 3
      omega
  | plain hdelimiter => simp [run, hdelimiter]
  | escape => simp [run]

namespace Piece

/-- The opening of a literal with as many characters behind it as the lexer takes. -/
theorem standsBefore_of_body {kind : TokenKind} {o : Opening} {w body rest : List Char}
    (hkind : o.kind = kind) (hne : w ≠ []) (hlead : o.lead = w.length)
    (hopening : ∀ fresh, Opening.ofText fresh (w ++ (body ++ rest)) = o)
    (hrest : Lexeme.rest o (body ++ rest) = body.length) :
    (⟨kind, w ++ body⟩ : Piece).StandsBefore rest := by
  apply standsBefore_of_opening (o := o)
  · simp [hne]
  · intro fresh
    rw [List.append_assoc, hopening]
  · exact hkind
  · rw [List.append_assoc, Lexeme.length, hlead, List.drop_left, hrest, List.length_append]

theorem standsBefore_string {dollar body rest : List Char} (hdollar : dollar ∈ [[], ['$']])
    (hbody : EscapedBody '"' body) (hrest : rest.head? ≠ some '"') :
    (⟨.string, dollar ++ '"' :: (body ++ ['"'])⟩ : Piece).StandsBefore rest := by
  have hclose := escapedRest_append_delimiter (by decide) hbody rest
  rw [List.append_cons]
  apply standsBefore_of_body (o := .string (dollar.length + 1)) rfl (by simp)
  · simp [Opening.lead]
  · intro fresh
    have hquotes := hbody.quotes_lt hrest
    simp only [List.mem_cons, List.not_mem_nil, or_false] at hdollar
    rcases hdollar with rfl | rfl
    all_goals
      rw [Opening.ofText_of_few_quotes (by simp) (by simpa [run] using hquotes)]
      rfl
  · simpa [Lexeme.rest] using hclose

theorem standsBefore_verbatim {signs rest : List Char}
    (hsigns : signs ∈ [['@'], ['$', '@'], ['@', '$']]) (content : List Char)
    (hrest : rest.head? ≠ some '"') :
    (⟨.string, signs ++ '"' :: (doubleQuotes content ++ ['"'])⟩ : Piece).StandsBefore rest := by
  have hclose := verbatimStringRest_append_quote content hrest
  rw [List.append_cons]
  apply standsBefore_of_body (o := .verbatimString (signs.length + 1)) rfl (by simp)
  · simp [Opening.lead]
  · intro fresh
    simp only [List.mem_cons, List.not_mem_nil, or_false] at hsigns
    rcases hsigns with rfl | rfl | rfl
    all_goals
      rw [Opening.ofText_of_few_quotes (by simp) (by simp [run])]
      rfl
  · simpa [Lexeme.rest] using hclose

theorem standsBefore_char {body : List Char} (hbody : EscapedBody '\'' body) (rest : List Char) :
    (⟨.char, '\'' :: (body ++ ['\''])⟩ : Piece).StandsBefore rest := by
  have hclose := escapedRest_append_delimiter (by decide) hbody rest
  apply standsBefore_of_body (o := .char) (w := ['\'']) rfl (by simp) rfl
  · intro fresh
    rw [List.singleton_append, ofText_of_ne (by decide) (by decide) (by decide)]
    rfl
  · simpa [Lexeme.rest] using hclose

theorem standsBefore_blockComment {body : List Char} (hbody : ClosesFirst body)
    (rest : List Char) :
    (⟨.blockComment, '/' :: '*' :: (body ++ ['*', '/'])⟩ : Piece).StandsBefore rest := by
  have hclose := blockCommentRest_append_close hbody rest
  apply standsBefore_of_body (o := .blockComment) (w := ['/', '*']) rfl (by simp) rfl
  · intro fresh
    show Opening.ofText fresh ('/' :: '*' :: (body ++ ['*', '/'] ++ rest)) = .blockComment
    rw [ofText_of_ne (by decide) (by decide) (by decide)]
    rfl
  · simpa [Lexeme.rest] using hclose

/-- A literal or comment that is written out whole stands before every text, a string before every
text that does not go on with a quote. -/
theorem standsBefore_whole {kind : TokenKind} {w : List Char} (h : WrittenWhole kind w)
    {rest : List Char} (hrest : kind = .string → rest.head? ≠ some '"') :
    (⟨kind, w⟩ : Piece).StandsBefore rest := by
  cases h with
  | string hdollar hbody => exact standsBefore_string hdollar hbody (hrest rfl)
  | verbatim hsigns content => exact standsBefore_verbatim hsigns content (hrest rfl)
  | char hbody => exact standsBefore_char hbody rest
  | blockComment hbody => exact standsBefore_blockComment hbody rest

end Piece

/-! ## At a token boundary -/

/-- Offset `n` is the start of the text or the end of a token. -/
def IsBoundary (text : String) (n : Nat) : Prop :=
  n = 0 ∨ ∃ t ∈ tokenize text, t.stop = n

instance (text : String) (n : Nat) : Decidable (IsBoundary text n) :=
  inferInstanceAs (Decidable (n = 0 ∨ ∃ t ∈ tokenize text, t.stop = n))

/-- The tokens of a text are cut at a boundary like the text itself. -/
theorem exists_tokensFrom_of_isBoundary {before behind : List Char}
    (h : IsBoundary (String.ofList (before ++ behind)) before.length) :
    ∃ pre p fresh, tokenize (String.ofList (before ++ behind)) = pre ++ tokensFrom p fresh behind ∧
      spelled pre = before ∧ p.offset = before.length := by
  have htokens : tokenize (String.ofList (before ++ behind)) =
      tokensFrom .start true (before ++ behind) := by
    rw [tokenize, String.toList_ofList]
  rw [IsBoundary, htokens] at h
  rw [htokens]
  rcases h with hstart | ⟨t, ht, hstop⟩
  · have hnil : before = [] := List.length_eq_zero_iff.1 hstart
    subst hnil
    exact ⟨[], .start, true, rfl, rfl, rfl⟩
  · obtain ⟨pre, post, hsplit⟩ := List.append_of_mem ht
    have htiling := tiling_tokensFrom .start true (before ++ behind)
    obtain ⟨fresh, hpost⟩ := eq_tokensFrom_of_split hsplit
    rw [hsplit] at htiling
    have hlength : (spelled (pre ++ [t])).length = before.length := by
      rw [← htiling.stop_of_split, hstop]
    have hspelled := htiling.spelled_eq
    rw [List.append_cons, spelled_append] at hspelled
    obtain ⟨hbefore, hbehind⟩ := List.append_inj hspelled hlength
    refine ⟨pre ++ [t], t.start.advance t.text.toList, t.kind.keepsFresh fresh, ?_, hbefore, ?_⟩
    · rw [hsplit, ← hbehind, ← hpost, List.append_cons]
    · rw [Position.offset_advance, String.length_toList]
      exact hstop

/-- Where a token starts, a literal or block comment that is written out whole is this token. -/
theorem tokenize_whole {kind : TokenKind} {w : List Char} (h : WrittenWhole kind w)
    (before : List Char) {rest : List Char} (hrest : kind = .string → rest.head? ≠ some '"')
    (hboundary : IsBoundary (String.ofList (before ++ (w ++ rest))) before.length) :
    ∃ pre p post, tokenize (String.ofList (before ++ (w ++ rest))) =
        pre ++ ⟨kind, String.ofList w, p⟩ :: post ∧
      spelled pre = before ∧ p.offset = before.length ∧ spelled post = rest := by
  obtain ⟨pre, p, fresh, htokens, hbefore, hoffset⟩ := exists_tokensFrom_of_isBoundary hboundary
  have hpiece : tokensFrom p fresh (w ++ rest) = ⟨kind, String.ofList w, p⟩ ::
      tokensFrom (p.advance w) (kind.keepsFresh fresh) rest :=
    Piece.tokensFrom_piece (Piece.standsBefore_whole h hrest) p fresh
  refine ⟨pre, p, tokensFrom (p.advance w) (kind.keepsFresh fresh) rest, ?_, hbefore, hoffset, ?_⟩
  · rw [htokens, hpiece]
  · exact (tiling_tokensFrom _ _ rest).spelled_eq

/-- A verbatim string with an opening brace, a quote, the opening of a comment and a line break. -/
theorem tokenize_whole_behind_dollar :
    WrittenWhole .string "$@\"\x7b\"\"/*\n\"".toList ∧
      IsBoundary "/*\"*/$$@\"\x7b\"\"/*\n\"'" 6 ∧
      ∃ pre p post, tokenize "/*\"*/$$@\"\x7b\"\"/*\n\"'" =
          pre ++ ⟨.string, "$@\"\x7b\"\"/*\n\"", p⟩ :: post ∧
        spelled pre = "/*\"*/$".toList ∧ p.offset = 6 ∧ spelled post = ['\''] := by
  have hwhole : WrittenWhole .string "$@\"\x7b\"\"/*\n\"".toList :=
    .verbatim (show ['$', '@'] ∈ _ by decide) "\x7b\"/*\n".toList
  have hboundary : IsBoundary "/*\"*/$$@\"\x7b\"\"/*\n\"'" 6 := by decide +kernel
  have hrest : ['\''].head? ≠ some '"' := by decide
  exact ⟨hwhole, hboundary, tokenize_whole hwhole "/*\"*/$".toList (fun _ => hrest) hboundary⟩

end UsingStyle
