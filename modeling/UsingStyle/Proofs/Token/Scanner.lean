import UsingStyle.Token.Lexeme

/-! # Scanners

The rest of a lexeme is counted by an automaton with a few states, which reads from left to right
and looks at each character once. Of the characters read, one or two may turn out to stay outside
the lexeme. A run counts what the rest of the lexeme has if each move does.
-/

namespace UsingStyle.Lexeme

open Text

/-! ## Rests, one character at a time -/

theorem run_cons (p : Char → Bool) (c : Char) (cs : List Char) :
    run p (c :: cs) = if p c then run p cs + 1 else 0 := by
  rw [run, List.takeWhile_cons]
  split <;> rfl

theorem blockCommentRest_cons {c : Char} {cs : List Char}
    (h : ∀ rest, c = '*' → cs = '/' :: rest → False) :
    blockCommentRest (c :: cs) = blockCommentRest cs + 1 := by
  rw [blockCommentRest]
  exact h

theorem rawStringRest_cons {c : Char} {cs : List Char}
    (h : ∀ rest, c = '"' → cs = '"' :: '"' :: rest → False) :
    rawStringRest (c :: cs) = rawStringRest cs + 1 := by
  rw [rawStringRest]
  exact h

theorem verbatimStringRest_cons {c : Char} (h : c ≠ '"') (cs : List Char) :
    verbatimStringRest (c :: cs) = verbatimStringRest cs + 1 := by
  rw [verbatimStringRest]
  · rintro rest rfl
    contradiction
  · exact h

theorem escapedRest_cons {c : Char} (h : c ≠ '\\') (delimiter : Char) (cs : List Char) :
    escapedRest delimiter (c :: cs) =
      if c == delimiter then 1 else if isBreak c then 0 else escapedRest delimiter cs + 1 := by
  rw [escapedRest, beq_false_of_ne h, Bool.false_or]
  rintro d ds rfl
  contradiction

theorem numberRest_word {c : Char} (h : isWord c = true) (cs : List Char) :
    numberRest (c :: cs) = numberRest cs + 1 := by
  have hrun : run isWord (c :: cs) = run isWord cs + 1 :=
    (run_cons isWord c cs).trans (if_pos h)
  rw [numberRest, numberRest, hrun, List.drop_succ_cons]
  split
  · split <;> omega
  · rfl

theorem numberRest_fraction {d : Char} (h : isDigit d = true) (ds : List Char) :
    numberRest ('.' :: d :: ds) = run isWord ds + 2 := by
  have hrun : run isWord ('.' :: d :: ds) = 0 := rfl
  simp only [numberRest, hrun, List.drop_zero, h, if_true]
  omega

/-- A number ends where neither a word character nor a fraction follows. -/
theorem numberRest_eq_zero {c : Char} {cs : List Char} (hword : isWord c = false)
    (hpoint : c = '.' → ∀ d ∈ cs.head?, isDigit d = false) : numberRest (c :: cs) = 0 := by
  have hrun : run isWord (c :: cs) = 0 :=
    (run_cons isWord c cs).trans (if_neg (Bool.eq_false_iff.1 hword))
  rw [numberRest, hrun, List.drop_zero]
  split
  · rename_i d ds heq
    cases heq
    rw [hpoint rfl d rfl]
    rfl
  · rfl

/-! ## Scanners -/

/-- What a scan does at a character. -/
inductive Move (σ : Type) where
  /-- It goes on behind the character. -/
  | next (s : σ)
  /-- It ends; so many of the characters read, the present one included, stay outside. -/
  | stop (outside : Nat)

/-- A scan from left to right with a state. -/
structure Scanner (σ : Type) where
  start : σ
  move : σ → Char → Move σ
  /-- How many of the characters read stay outside if the text ends. -/
  outside : σ → Nat

namespace Scanner

/-- How many characters belong to the lexeme when `n` characters have led to the state `s` and `cs`
follows. -/
def count {σ : Type} (a : Scanner σ) (s : σ) (n : Nat) : List Char → Nat
  | [] => n - a.outside s
  | c :: cs =>
    match a.move s c with
    | .next t => a.count t (n + 1) cs
    | .stop outside => n + 1 - outside

/-- How many characters at the front belong to the lexeme. -/
def run {σ : Type} (a : Scanner σ) (cs : List Char) : Nat :=
  a.count a.start 0 cs

/-- The scan that takes the characters of a class. -/
def takeWhile (p : Char → Bool) : Scanner Unit where
  start := ()
  move _ c := if p c then .next () else .stop 1
  outside _ := 0

/-- The scan for the end of a block comment. The state tells whether a `*` was read last. -/
def blockComment : Scanner Bool where
  start := false
  move star c := if star && c == '/' then .stop 0 else .next (c == '*')
  outside _ := 0

/-- How many quotes were read last. -/
inductive Quotes where
  | zero
  | one
  | two
  | three
  deriving DecidableEq, Repr

/-- One more quote. Three are enough. -/
def Quotes.succ : Quotes → Quotes
  | zero => one
  | one => two
  | two | three => three

/-- The scan for the quotes that close a raw string. -/
def rawString : Scanner Quotes where
  start := .zero
  move quotes c :=
    if c == '"' then .next quotes.succ
    else if quotes = .three then .stop 1
    else .next .zero
  outside _ := 0

/-- The scan for a quote that is not doubled. The state tells whether a quote waits for another. -/
def verbatimString : Scanner Bool where
  start := false
  move quote c :=
    if c == '"' then .next !quote
    else if quote then .stop 1
    else .next false
  outside _ := 0

/-- The scan for a delimiter or line break that is not escaped. The state tells whether a backslash
escapes the next character. -/
def escaped (delimiter : Char) : Scanner Bool where
  start := false
  move backslash c :=
    if backslash then .next false
    else if c == delimiter then .stop 0
    else if c == '\\' then .next true
    else if isBreak c then .stop 1
    else .next false
  outside backslash := backslash.toNat

/-- The part of a number that is read. -/
inductive NumberPart where
  | whole
  | point
  | fraction
  deriving DecidableEq, Repr

/-- The scan for the end of a number. -/
def number : Scanner NumberPart where
  start := .whole
  move part c :=
    match part with
    | .whole => if isWord c then .next .whole else if c == '.' then .next .point else .stop 1
    | .point => if isDigit c then .next .fraction else .stop 2
    | .fraction => if isWord c then .next .fraction else .stop 1
  outside part := if part = .point then 1 else 0

/-! ## What a scan counts -/

/-- A move keeps the count when the unsettled characters, of which it is not yet known whether they
belong, are taken as if they were still to come. -/
def Keeps {σ : Type} (unsettled : σ → List Char) (rest : List Char → Nat) (s : σ) (c : Char) :
    Move σ → Prop
  | .next t => (unsettled t).length ≤ (unsettled s).length + 1 ∧
    ∀ cs, rest (unsettled s ++ c :: cs) + (unsettled t).length =
      rest (unsettled t ++ cs) + (unsettled s).length + 1
  | .stop outside => ∀ cs, rest (unsettled s ++ c :: cs) + outside = (unsettled s).length + 1

/-- The scan counts what `rest` does. -/
structure Tracks {σ : Type} (a : Scanner σ) (unsettled : σ → List Char)
    (rest : List Char → Nat) : Prop where
  start : unsettled a.start = []
  nil : ∀ s, rest (unsettled s) + a.outside s = (unsettled s).length
  move : ∀ s c, Keeps unsettled rest s c (a.move s c)

section

variable {σ : Type} {a : Scanner σ} {unsettled : σ → List Char} {rest : List Char → Nat}

theorem Tracks.count_add (h : a.Tracks unsettled rest) (s : σ) {n : Nat}
    (hn : (unsettled s).length ≤ n) (cs : List Char) :
    a.count s n cs + (unsettled s).length = n + rest (unsettled s ++ cs) := by
  induction cs generalizing s n with
  | nil =>
      have hnil := h.nil s
      rw [count, List.append_nil]
      omega
  | cons c cs ih =>
      have hkeeps := h.move s c
      rw [count]
      cases hmove : a.move s c with
      | next t =>
          rw [hmove] at hkeeps
          have htail := ih t (n := n + 1) (by have hlen := hkeeps.1; omega)
          have hhere := hkeeps.2 cs
          simp only
          omega
      | stop outside =>
          rw [hmove] at hkeeps
          have hhere := hkeeps cs
          simp only
          omega

theorem Tracks.run_eq (h : a.Tracks unsettled rest) (cs : List Char) : a.run cs = rest cs := by
  have hcount := h.count_add a.start (n := 0) (by rw [h.start]; exact Nat.le_refl 0) cs
  rw [h.start] at hcount
  simpa [run] using hcount

end

/-! ## The scans of lexemes -/

theorem tracks_takeWhile (p : Char → Bool) :
    (takeWhile p).Tracks (fun _ => []) (Lexeme.run p) where
  start := rfl
  nil _ := rfl
  move := by
    intro s c
    by_cases hc : p c = true
    · have hmove : (takeWhile p).move s c = .next () := if_pos hc
      rw [hmove]
      exact ⟨Nat.zero_le _, fun cs => (run_cons p c cs).trans (if_pos hc)⟩
    · have hmove : (takeWhile p).move s c = .stop 1 := if_neg hc
      rw [hmove]
      exact fun cs => congrArg (· + 1) ((run_cons p c cs).trans (if_neg hc))

theorem tracks_blockComment :
    blockComment.Tracks (fun star => if star then ['*'] else []) blockCommentRest where
  start := rfl
  nil star := by cases star <;> rfl
  move := by
    intro star c
    by_cases hstar : c = '*'
    · subst hstar
      cases star with
      | false => exact ⟨Nat.le_refl 1, fun cs => rfl⟩
      | true =>
          refine ⟨Nat.le_succ 1, fun cs => congrArg (· + 1) (blockCommentRest_cons ?_)⟩
          intro rest _ heq
          cases heq
    · have hcons : ∀ cs, blockCommentRest (c :: cs) = blockCommentRest cs + 1 :=
        fun cs => blockCommentRest_cons fun _ heq => absurd heq hstar
      have hnext : Move.next (c == '*') = .next false := by rw [beq_false_of_ne hstar]
      cases star with
      | false =>
          have hmove : blockComment.move false c = .next false := hnext
          rw [hmove]
          exact ⟨Nat.zero_le _, hcons⟩
      | true =>
          by_cases hslash : c = '/'
          · subst hslash
            exact fun cs => rfl
          · have hmove : blockComment.move true c = .next false :=
              (if_neg (by simpa using hslash)).trans hnext
            rw [hmove]
            refine ⟨Nat.zero_le _, fun cs => ?_⟩
            refine (blockCommentRest_cons fun rest _ heq => ?_).trans (congrArg (· + 1) (hcons cs))
            exact hslash (List.cons.inj heq).1

/-- The quotes that were read last. -/
def Quotes.chars : Quotes → List Char
  | zero => []
  | one => ['"']
  | two => ['"', '"']
  | three => ['"', '"', '"']

theorem tracks_rawString : rawString.Tracks Quotes.chars rawStringRest where
  start := rfl
  nil quotes := by cases quotes <;> rfl
  move := by
    intro quotes c
    by_cases hquote : c = '"'
    · subst hquote
      cases quotes with
      | zero | one | two => exact ⟨by decide, fun cs => rfl⟩
      | three => exact ⟨by decide, fun cs => rfl⟩
    · have hcons : ∀ cs, rawStringRest (c :: cs) = rawStringRest cs + 1 :=
        fun cs => rawStringRest_cons fun _ heq => absurd heq hquote
      have hone : ∀ cs, rawStringRest ('"' :: c :: cs) = rawStringRest cs + 2 := by
        intro cs
        rw [rawStringRest_cons, hcons]
        rintro rest _ heq
        exact hquote (List.cons.inj heq).1
      have htwo : ∀ cs, rawStringRest ('"' :: '"' :: c :: cs) = rawStringRest cs + 3 := by
        intro cs
        rw [rawStringRest_cons, hone]
        rintro rest _ heq
        exact hquote (List.cons.inj (List.cons.inj heq).2).1
      have hmove : rawString.move quotes c = if quotes = .three then .stop 1 else .next .zero :=
        if_neg (by simpa using hquote)
      rw [hmove]
      cases quotes with
      | zero => exact ⟨Nat.zero_le _, hcons⟩
      | one => exact ⟨Nat.zero_le _, hone⟩
      | two => exact ⟨Nat.zero_le _, htwo⟩
      | three =>
          intro cs
          have hrun : rawStringRest ('"' :: '"' :: '"' :: c :: cs) =
              Lexeme.run (· == '"') (c :: cs) + 3 := by rw [rawStringRest]
          have hnone : Lexeme.run (· == '"') (c :: cs) = 0 :=
            (run_cons _ c cs).trans (if_neg (by simpa using hquote))
          show rawStringRest ('"' :: '"' :: '"' :: c :: cs) + 1 = 4
          rw [hrun, hnone]

theorem tracks_verbatimString :
    verbatimString.Tracks (fun quote => if quote then ['"'] else []) verbatimStringRest where
  start := rfl
  nil quote := by cases quote <;> rfl
  move := by
    intro quote c
    by_cases hquote : c = '"'
    · subst hquote
      cases quote with
      | false => exact ⟨Nat.le_refl 1, fun cs => rfl⟩
      | true => exact ⟨Nat.zero_le _, fun cs => rfl⟩
    · have hmove : verbatimString.move quote c = if quote then .stop 1 else .next false :=
        if_neg (by simpa using hquote)
      rw [hmove]
      cases quote with
      | false => exact ⟨Nat.zero_le _, verbatimStringRest_cons hquote⟩
      | true =>
          intro cs
          have hsingle : verbatimStringRest ('"' :: c :: cs) = 1 := by
            rw [verbatimStringRest]
            intro rest heq
            exact hquote (List.cons.inj heq).1
          exact congrArg (· + 1) hsingle

theorem tracks_escaped {delimiter : Char} (hdelimiter : delimiter ≠ '\\') :
    (escaped delimiter).Tracks (fun backslash => if backslash then ['\\'] else [])
      (escapedRest delimiter) where
  start := rfl
  nil backslash := by
    cases backslash with
    | false => rfl
    | true =>
        have hlast : escapedRest delimiter ['\\'] = 0 := by
          simp [escapedRest, hdelimiter.symm]
        exact congrArg (· + 1) hlast
  move := by
    intro backslash c
    cases backslash with
    | true => exact ⟨Nat.zero_le _, fun cs => rfl⟩
    | false =>
        by_cases hescape : c = '\\'
        · have hmove : (escaped delimiter).move false c = .next true := by
            simp [escaped, hescape, hdelimiter.symm]
          rw [hmove, hescape]
          exact ⟨Nat.le_refl 1, fun cs => rfl⟩
        · have hmove : (escaped delimiter).move false c =
              if c == delimiter then .stop 0 else if isBreak c then .stop 1 else .next false := by
            simp [escaped, hescape]
          have hcons := escapedRest_cons hescape delimiter
          rw [hmove]
          by_cases hclosed : (c == delimiter) = true
          · rw [if_pos hclosed]
            exact fun cs => (hcons cs).trans (if_pos hclosed)
          · simp only [if_neg hclosed] at hcons ⊢
            by_cases hbreak : isBreak c = true
            · rw [if_pos hbreak]
              exact fun cs => congrArg (· + 1) ((hcons cs).trans (if_pos hbreak))
            · rw [if_neg hbreak]
              exact ⟨Nat.zero_le _, fun cs => (hcons cs).trans (if_neg hbreak)⟩

theorem tracks_number :
    number.Tracks
      (fun part => match part with | .whole => [] | .point => ['.'] | .fraction => ['.', '0'])
      numberRest where
  start := rfl
  nil part := by cases part <;> rfl
  move := by
    intro part c
    cases part with
    | whole =>
        by_cases hword : isWord c = true
        · have hmove : number.move .whole c = .next .whole := if_pos hword
          rw [hmove]
          exact ⟨Nat.zero_le _, numberRest_word hword⟩
        · by_cases hpoint : c = '.'
          · subst hpoint
            exact ⟨Nat.le_refl 1, fun cs => rfl⟩
          · have hmove : number.move .whole c = .stop 1 := by
              simp [number, hword, hpoint]
            rw [hmove]
            exact fun cs => congrArg (· + 1)
              (numberRest_eq_zero (Bool.eq_false_iff.2 hword) fun heq => absurd heq hpoint)
    | point =>
        by_cases hdigit : isDigit c = true
        · have hmove : number.move .point c = .next .fraction := if_pos hdigit
          rw [hmove]
          refine ⟨Nat.le_refl 2, fun cs => congrArg (· + 2) ?_⟩
          exact (numberRest_fraction hdigit cs).trans (numberRest_fraction rfl cs).symm
        · have hmove : number.move .point c = .stop 2 := if_neg hdigit
          rw [hmove]
          refine fun cs => congrArg (· + 2) (numberRest_eq_zero rfl fun _ d hd => ?_)
          cases hd
          exact Bool.eq_false_iff.2 hdigit
    | fraction =>
        have hrun := fun cs => numberRest_fraction (d := '0') rfl (c :: cs)
        have hzero := fun cs => numberRest_fraction (d := '0') rfl cs
        by_cases hword : isWord c = true
        · have hmove : number.move .fraction c = .next .fraction := if_pos hword
          rw [hmove]
          refine ⟨Nat.le_succ 2, fun cs => ?_⟩
          have hcons : Lexeme.run isWord (c :: cs) = Lexeme.run isWord cs + 1 :=
            (run_cons isWord c cs).trans (if_pos hword)
          have hfirst := hrun cs
          have hsecond := hzero cs
          simp only [List.cons_append, List.nil_append, List.length_cons, List.length_nil]
          omega
        · have hmove : number.move .fraction c = .stop 1 := if_neg hword
          rw [hmove]
          intro cs
          have hcons : Lexeme.run isWord (c :: cs) = 0 :=
            (run_cons isWord c cs).trans (if_neg hword)
          have hfirst := hrun cs
          simp only [List.cons_append, List.nil_append, List.length_cons, List.length_nil]
          omega

end Scanner

/-- How many characters behind an opening belong to the lexeme, by one scan. -/
def scanRest : Opening → List Char → Nat
  | .lineBreak _, _ | .symbol _, _ => 0
  | .blank, cs => (Scanner.takeWhile isInlineBlank).run cs
  | .lineComment, cs | .preprocessor, cs => (Scanner.takeWhile fun c => !isBreak c).run cs
  | .blockComment, cs => Scanner.blockComment.run cs
  | .rawString _, cs => Scanner.rawString.run cs
  | .verbatimString _, cs => Scanner.verbatimString.run cs
  | .string _, cs => (Scanner.escaped '"').run cs
  | .char, cs => (Scanner.escaped '\'').run cs
  | .identifier _, cs => (Scanner.takeWhile isWord).run cs
  | .number, cs => Scanner.number.run cs

theorem scanRest_eq (o : Opening) (cs : List Char) : scanRest o cs = rest o cs := by
  cases o with
  | lineBreak _ | symbol _ => rfl
  | blank | lineComment | preprocessor | identifier _ =>
      exact (Scanner.tracks_takeWhile _).run_eq cs
  | blockComment => exact Scanner.tracks_blockComment.run_eq cs
  | rawString _ => exact Scanner.tracks_rawString.run_eq cs
  | verbatimString _ => exact Scanner.tracks_verbatimString.run_eq cs
  | string _ => exact (Scanner.tracks_escaped (by decide)).run_eq cs
  | char => exact (Scanner.tracks_escaped (by decide)).run_eq cs
  | number => exact Scanner.tracks_number.run_eq cs

end UsingStyle.Lexeme
