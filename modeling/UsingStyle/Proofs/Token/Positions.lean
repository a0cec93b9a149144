import UsingStyle.Proofs.Token.Endings
import UsingStyle.Proofs.Token.Layout

/-! # Lines and columns of tokens

The line of a token should be the number of line breaks that end at or before its offset, and its
column the distance from the end of the last one, where a carriage return and the line feed behind
it are one break. The lexer counts token by token. Its count is exact as long as no token ends
between the two characters of a break. Such an end is possible behind a backslash in a string or
character literal only; from there on every line is one too high.
-/

namespace UsingStyle

/-! ## Line breaks of a text -/

/-- Whether a line break ends at offset `n`: a line feed stands before it, or a carriage return that
no line feed follows. -/
def endsBreak (text : List Char) : Nat → Bool
  | 0 => false
  | n + 1 => text[n]? == some '\n' || (text[n]? == some '\r' && text[n + 1]? != some '\n')

/-- The ends of the line breaks up to offset `n`, in order. -/
def breakEnds (text : List Char) (n : Nat) : List Nat :=
  (List.range (n + 1)).filter (endsBreak text)

/-- How many line breaks end at or before offset `n`. -/
def lineAt (text : List Char) (n : Nat) : Nat :=
  (breakEnds text n).length

/-- How far offset `n` is from the end of the last line break, or from the start of the text. -/
def columnAt (text : List Char) (n : Nat) : Nat :=
  n - (breakEnds text n).getLast?.getD 0

/-- Whether offset `n` lies between the two characters of a line break. -/
def insideBreak (text : List Char) : Nat → Bool
  | 0 => false
  | n + 1 => text[n]? == some '\r' && text[n + 1]? == some '\n'

theorem breakEnds_succ (text : List Char) (n : Nat) :
    breakEnds text (n + 1) =
      breakEnds text n ++ if endsBreak text (n + 1) then [n + 1] else [] := by
  unfold breakEnds
  rw [List.range_succ, List.filter_append, List.filter_singleton, Bool.cond_eq_ite]

theorem lastEnd_le (text : List Char) (n : Nat) : (breakEnds text n).getLast?.getD 0 ≤ n := by
  cases h : (breakEnds text n).getLast? with
  | none => exact Nat.zero_le n
  | some m =>
      have hmem := (List.mem_filter.1 (List.mem_of_getLast? h)).1
      have hlt := List.mem_range.1 hmem
      show m ≤ n
      omega

theorem lineAt_succ_of_endsBreak {text : List Char} {n : Nat} (h : endsBreak text (n + 1) = true) :
    lineAt text (n + 1) = lineAt text n + 1 := by
  unfold lineAt
  rw [breakEnds_succ, if_pos h, List.length_append, List.length_singleton]

theorem columnAt_succ_of_endsBreak {text : List Char} {n : Nat}
    (h : endsBreak text (n + 1) = true) : columnAt text (n + 1) = 0 := by
  unfold columnAt
  rw [breakEnds_succ, if_pos h, List.getLast?_concat]
  exact Nat.sub_self (n + 1)

theorem lineAt_succ_of_not_endsBreak {text : List Char} {n : Nat}
    (h : endsBreak text (n + 1) = false) : lineAt text (n + 1) = lineAt text n := by
  unfold lineAt
  rw [breakEnds_succ, h]
  simp

theorem columnAt_succ_of_not_endsBreak {text : List Char} {n : Nat}
    (h : endsBreak text (n + 1) = false) : columnAt text (n + 1) = columnAt text n + 1 := by
  have hle := lastEnd_le text n
  unfold columnAt
  rw [breakEnds_succ, h]
  simp only [Bool.false_eq_true, if_false, List.append_nil]
  omega

/-! ## The place that the lexer counts -/

/-- The place at the token boundary `n`, behind `cuts` earlier boundaries that lie inside of a line
break. Inside of a break, the carriage return before `n` has been counted as a break. -/
def countedPlace (text : List Char) (n cuts : Nat) : Position :=
  if insideBreak text n then ⟨lineAt text n + cuts + 1, 0, n⟩
  else ⟨lineAt text n + cuts, columnAt text n, n⟩

theorem offset_countedPlace (text : List Char) (n cuts : Nat) :
    (countedPlace text n cuts).offset = n := by
  unfold countedPlace
  split <;> rfl

section Steps

variable {text : List Char} {n : Nat}

theorem insideBreak_succ_of_ne {c : Char} (hc : text[n]? = some c) (h : c ≠ '\r') :
    insideBreak text (n + 1) = false := by
  simp [insideBreak, hc, h]

theorem insideBreak_of_ne {c : Char} (hc : text[n]? = some c) (h : c ≠ '\n') :
    insideBreak text n = false := by
  cases n with
  | zero => rfl
  | succ n => simp [insideBreak, hc, h]

theorem countedPlace_feed (cuts : Nat) (h : text[n]? = some '\n') :
    (countedPlace text n cuts).down 1 =
      countedPlace text (n + 1) (cuts + if insideBreak text n then 1 else 0) := by
  have hends : endsBreak text (n + 1) = true := by simp [endsBreak, h]
  have hline := lineAt_succ_of_endsBreak hends
  have hcolumn := columnAt_succ_of_endsBreak hends
  have hnext := insideBreak_succ_of_ne h (by decide)
  unfold countedPlace
  rw [hnext, hline, hcolumn]
  by_cases hin : insideBreak text n = true
  · simp [hin, Position.down]
    omega
  · simp [hin, Position.down]
    omega

/-- A carriage return alone counts as a break, also when a line feed follows. -/
theorem countedPlace_return (cuts : Nat) (h : text[n]? = some '\r') :
    (countedPlace text n cuts).down 1 = countedPlace text (n + 1) cuts := by
  have hin := insideBreak_of_ne h (by decide)
  by_cases hfeed : text[n + 1]? = some '\n'
  · have hends : endsBreak text (n + 1) = false := by simp [endsBreak, h, hfeed]
    have hline := lineAt_succ_of_not_endsBreak hends
    have hnext : insideBreak text (n + 1) = true := by simp [insideBreak, h, hfeed]
    simp [countedPlace, hin, hnext, hline, Position.down]
  · have hends : endsBreak text (n + 1) = true := by simp [endsBreak, h, hfeed]
    have hline := lineAt_succ_of_endsBreak hends
    have hcolumn := columnAt_succ_of_endsBreak hends
    have hnext : insideBreak text (n + 1) = false := by simp [insideBreak, h, hfeed]
    simp [countedPlace, hin, hnext, hline, hcolumn, Position.down]
    omega

theorem countedPlace_pair (cuts : Nat) (h : text[n]? = some '\r')
    (hfeed : text[n + 1]? = some '\n') :
    (countedPlace text n cuts).down 2 = countedPlace text (n + 2) cuts := by
  have hin := insideBreak_of_ne h (by decide)
  have hskip : endsBreak text (n + 1) = false := by simp [endsBreak, h, hfeed]
  have hends : endsBreak text (n + 1 + 1) = true := by simp [endsBreak, hfeed]
  have hline := lineAt_succ_of_endsBreak hends
  have hcolumn := columnAt_succ_of_endsBreak hends
  have hnext := insideBreak_succ_of_ne hfeed (by decide)
  rw [lineAt_succ_of_not_endsBreak hskip] at hline
  simp [countedPlace, hin, hnext, hline, hcolumn, Position.down]
  omega

theorem countedPlace_plain (cuts : Nat) {c : Char} (h : text[n]? = some c) (hreturn : c ≠ '\r')
    (hfeed : c ≠ '\n') : (countedPlace text n cuts).right = countedPlace text (n + 1) cuts := by
  have hin := insideBreak_of_ne h hfeed
  have hends : endsBreak text (n + 1) = false := by simp [endsBreak, h, hreturn, hfeed]
  have hline := lineAt_succ_of_not_endsBreak hends
  have hcolumn := columnAt_succ_of_not_endsBreak hends
  have hnext := insideBreak_succ_of_ne h hreturn
  simp [countedPlace, hin, hnext, hline, hcolumn, Position.right]

end Steps

theorem getElem?_of_drop_eq_cons {text cs : List Char} {n : Nat} {c : Char}
    (h : text.drop n = c :: cs) : text[n]? = some c ∧ text.drop (n + 1) = cs := by
  constructor
  · rw [← List.head?_drop, h]
    rfl
  · rw [← List.tail_drop, h]
    rfl

/-- Between the characters of one token no boundary lies inside of a break. -/
theorem advance_countedPlace_of_outside {text after : List Char} {p : Position} {w : List Char}
    {n cuts : Nat} (hp : p = countedPlace text n cuts) (hdrop : text.drop n = w ++ after)
    (hout : w ≠ [] → insideBreak text n = false) :
    p.advance w = countedPlace text (n + w.length) cuts := by
  fun_induction Position.advance p w generalizing n cuts with
  | case1 p => exact hp
  | case2 p w ih =>
      have hfirst := getElem?_of_drop_eq_cons hdrop
      have hsecond := getElem?_of_drop_eq_cons hfirst.2
      have hnext := insideBreak_succ_of_ne hsecond.1 (by decide)
      have hstep : p.down 2 = countedPlace text (n + 2) cuts := by
        rw [hp, countedPlace_pair cuts hfirst.1 hsecond.1]
      have hrest := ih hstep hsecond.2 (fun _ => hnext)
      rw [hrest, List.length_cons, List.length_cons]
      congr 1
      omega
  | case3 p w hfeed ih =>
      have hfirst := getElem?_of_drop_eq_cons hdrop
      have hnext : w ≠ [] → insideBreak text (n + 1) = false := by
        intro hne
        cases w with
        | nil => contradiction
        | cons d w =>
            have hsecond := getElem?_of_drop_eq_cons hfirst.2
            exact insideBreak_of_ne hsecond.1 (fun hd => hfeed w (by rw [hd]))
      have hstep : p.down 1 = countedPlace text (n + 1) cuts := by
        rw [hp, countedPlace_return cuts hfirst.1]
      have hrest := ih hstep hfirst.2 hnext
      rw [hrest, List.length_cons]
      congr 1
      omega
  | case4 p w ih =>
      have hfirst := getElem?_of_drop_eq_cons hdrop
      have hnext := insideBreak_succ_of_ne hfirst.1 (by decide)
      have hstep : p.down 1 = countedPlace text (n + 1) cuts := by
        rw [hp, countedPlace_feed cuts hfirst.1, hout (by simp)]
        rfl
      have hrest := ih hstep hfirst.2 (fun _ => hnext)
      rw [hrest, List.length_cons]
      congr 1
      omega
  | case5 p c w _ hreturn hfeed ih =>
      have hfirst := getElem?_of_drop_eq_cons hdrop
      have hnext := insideBreak_succ_of_ne hfirst.1 hreturn
      have hstep : p.right = countedPlace text (n + 1) cuts := by
        rw [hp, countedPlace_plain cuts hfirst.1 hreturn hfeed]
      have hrest := ih hstep hfirst.2 (fun _ => hnext)
      rw [hrest, List.length_cons]
      congr 1
      omega

/-- The place behind a token is counted from the place before it. -/
theorem advance_countedPlace {text w after : List Char} {n : Nat} (cuts : Nat)
    (hdrop : text.drop n = w ++ after) (hne : w ≠ []) :
    (countedPlace text n cuts).advance w =
      countedPlace text (n + w.length) (cuts + if insideBreak text n then 1 else 0) := by
  by_cases hin : insideBreak text n = true
  · -- the token starts with the line feed that the token before it has left
    cases n with
    | zero => contradiction
    | succ n =>
        have hfeed : text[n + 1]? = some '\n' := by
          simp only [insideBreak, Bool.and_eq_true, beq_iff_eq] at hin
          exact hin.2
        cases w with
        | nil => contradiction
        | cons c w =>
            have hfirst := getElem?_of_drop_eq_cons hdrop
            have hc : c = '\n' := by
              rw [hfirst.1] at hfeed
              exact Option.some.inj hfeed
            subst hc
            have hnext := insideBreak_succ_of_ne hfirst.1 (by decide)
            have hstep := countedPlace_feed cuts hfirst.1
            have hrest := advance_countedPlace_of_outside hstep hfirst.2 (fun _ => hnext)
            rw [Position.advance, hrest, List.length_cons]
            congr 1
            omega
  · rw [if_neg hin, Nat.add_zero]
    exact advance_countedPlace_of_outside rfl hdrop (fun _ => Bool.eq_false_iff.2 hin)

/-! ## Whole texts -/

/-- Whether the token starts between the two characters of a line break. -/
def Token.splitsBreak (text : List Char) (t : Token) : Bool :=
  insideBreak text t.start.offset

/-- The first token takes the carriage return of a line break by a backslash and leaves its line
feed to the second one. -/
structure Token.CutsBreak (t u : Token) : Prop where
  literal : t.kind = .string ∨ t.kind = .char
  escape : ['\\', '\r'] <:+ t.text.toList
  feed : u.text = "\n"

theorem Tiling.start_eq_countedPlace {text : List Char} {p : Position} {cs : List Char}
    {ts : List Token} (h : Tiling p cs ts) {n cuts : Nat} (hp : p = countedPlace text n cuts)
    (hdrop : text.drop n = cs) {pre post : List Token} {t : Token} (hts : ts = pre ++ t :: post) :
    t.start = countedPlace text t.start.offset (cuts + pre.countP (·.splitsBreak text)) := by
  induction h generalizing n cuts pre with
  | nil p => simp at hts
  | @cons p cs ts u hstart hne hrest ih =>
      have hoffset : u.start.offset = n := by
        rw [hstart, hp, offset_countedPlace]
      cases pre with
      | nil =>
          cases hts
          rw [hoffset, hstart, hp]
          rfl
      | cons v pre =>
          cases hts
          have hstep := advance_countedPlace cuts hdrop hne
          have hnext : text.drop (n + u.text.toList.length) = cs := by
            rw [← List.drop_drop, hdrop, List.drop_left]
          have htail := ih (hp ▸ hstep) hnext rfl
          rw [htail, offset_countedPlace, List.countP_cons, Token.splitsBreak, hoffset]
          congr 1
          omega

theorem start_eq_countedPlace {text : String} {pre post : List Token} {t : Token}
    (h : tokenize text = pre ++ t :: post) :
    t.start = countedPlace text.toList t.start.offset
      (pre.countP (·.splitsBreak text.toList)) := by
  have htiling : Tiling .start text.toList (tokenize text) := tiling_tokensFrom _ _ _
  have hzero : Position.start = countedPlace text.toList 0 0 := rfl
  have hstart := htiling.start_eq_countedPlace hzero rfl h
  rwa [Nat.zero_add] at hstart

theorem insideBreak_boundary (before : List Char) {w : List Char} (hne : w ≠ []) (r : List Char) :
    insideBreak (before ++ (w ++ r)) (before.length + w.length) = true ↔
      w.getLast? = some '\r' ∧ r.head? = some '\n' := by
  obtain ⟨n, hn⟩ : ∃ n, w.length = n + 1 := Nat.exists_eq_add_one.2 (List.length_pos_iff.2 hne)
  have hlast : (before ++ (w ++ r))[before.length + n]? = w.getLast? := by
    rw [List.getElem?_append_right (by omega), List.getElem?_append_left (by omega),
      List.getLast?_eq_getElem?]
    congr 1
    omega
  have hnext : (before ++ (w ++ r))[before.length + n + 1]? = r.head? := by
    rw [List.getElem?_append_right (by omega), List.getElem?_append_right (by omega),
      List.head?_eq_getElem?]
    congr 1
    omega
  rw [hn, ← Nat.add_assoc, insideBreak, hlast, hnext, Bool.and_eq_true, beq_iff_eq, beq_iff_eq]

theorem first_of_head? {p : Position} {fresh : Bool} {cs : List Char} {t : Token}
    (h : t ∈ (tokensFrom p fresh cs).head?) :
    t.start = p ∧ t.text.toList.head? = cs.head? := by
  cases cs with
  | nil => simp [tokensFrom] at h
  | cons c cs =>
      obtain ⟨word, hword⟩ := Lexeme.take_length_cons fresh c cs
      rw [tokensFrom] at h
      cases h
      rw [String.toList_ofList, hword]
      exact ⟨rfl, rfl⟩

/-- A token starts inside of a line break exactly if the literal before it has cut the break. -/
theorem splitsBreak_iff_cutsBreak (before : List Char) {p : Position} {fresh : Bool}
    {cs : List Char} (hp : p.offset = before.length) :
    (tokensFrom p fresh cs).IsChain
      (fun t u => u.splitsBreak (before ++ cs) = true ↔ t.CutsBreak u) := by
  fun_induction tokensFrom p fresh cs generalizing before with
  | case1 p fresh => exact .nil
  | case2 p fresh c cs opening length text =>
      rename_i ih
      have hcut : text ++ (c :: cs).drop length = c :: cs := List.take_append_drop length (c :: cs)
      have hne : text ≠ [] := by
        obtain ⟨word, hword⟩ := Lexeme.take_length_cons fresh c cs
        rw [show text = c :: word from hword]
        exact List.cons_ne_nil c word
      have hoffset : (p.advance text).offset = (before ++ text).length := by
        rw [Position.offset_advance, List.length_append, hp]
      have hrest := ih (before ++ text) hoffset
      rw [List.append_assoc, hcut] at hrest
      refine List.isChain_cons.2 ⟨?_, hrest⟩
      intro u hu
      have hfirst := first_of_head? hu
      have hinside := insideBreak_boundary before hne ((c :: cs).drop length)
      rw [hcut, ← List.length_append, ← hoffset, ← hfirst.1] at hinside
      rw [Token.splitsBreak, hinside]
      constructor
      · intro h
        have hescaped := Lexeme.escaped_of_length h.1 h.2
        obtain ⟨behind, hbehind⟩ := List.head?_eq_some_iff.1 h.2
        have hfeed := Piece.tokensFrom_piece (Piece.standsBefore_lineFeed behind)
        rw [hbehind] at hu
        rw [show '\n' :: behind = Piece.lineFeed.text ++ behind from rfl, hfeed] at hu
        cases hu
        exact ⟨hescaped.1, by rw [String.toList_ofList]; exact hescaped.2, rfl⟩
      · intro h
        have hescape := h.escape
        rw [String.toList_ofList] at hescape
        obtain ⟨front, hfront⟩ := hescape
        constructor
        · rw [← hfront]
          simp
        · rw [← hfirst.2, h.feed]
          rfl

/-- Line and column of every token are those of its offset. -/
def PositionsExact (text : String) : Prop :=
  ∀ t ∈ tokenize text, t.start.line = lineAt text.toList t.start.offset ∧
    t.start.column = columnAt text.toList t.start.offset

theorem line_and_column_of_token {text : String} {pre post : List Token} {t : Token}
    (h : tokenize text = pre ++ t :: post) :
    t.start.line = lineAt text.toList t.start.offset +
        (pre ++ [t]).countP (·.splitsBreak text.toList) ∧
      t.start.column = if t.splitsBreak text.toList then 0
        else columnAt text.toList t.start.offset := by
  have hstart := start_eq_countedPlace h
  have hcount : (pre ++ [t]).countP (·.splitsBreak text.toList) =
      pre.countP (·.splitsBreak text.toList) + if t.splitsBreak text.toList then 1 else 0 := by
    rw [List.countP_append, List.countP_singleton]
  rw [hcount]
  unfold countedPlace at hstart
  by_cases hsplit : t.splitsBreak text.toList = true
  · have hin : insideBreak text.toList t.start.offset = true := hsplit
    rw [if_pos hin] at hstart
    rw [if_pos hsplit, if_pos hsplit]
    have hline := congrArg Position.line hstart
    have hcolumn := congrArg Position.column hstart
    exact ⟨by omega, hcolumn⟩
  · have hin : ¬ insideBreak text.toList t.start.offset = true := hsplit
    rw [if_neg hin] at hstart
    rw [if_neg hsplit, if_neg hsplit]
    have hline := congrArg Position.line hstart
    have hcolumn := congrArg Position.column hstart
    exact ⟨by omega, hcolumn⟩

theorem positionsExact_iff_forall_not_splitsBreak (text : String) :
    PositionsExact text ↔ ∀ t ∈ tokenize text, t.splitsBreak text.toList = false := by
  constructor
  · intro hexact t ht
    obtain ⟨pre, post, hsplit⟩ := List.append_of_mem ht
    have hline := (line_and_column_of_token hsplit).1
    rw [(hexact t ht).1] at hline
    have hzero : (pre ++ [t]).countP (·.splitsBreak text.toList) = 0 := by omega
    rw [List.countP_eq_zero] at hzero
    exact Bool.eq_false_iff.2 (hzero t (by simp))
  · intro hnone t ht
    obtain ⟨pre, post, hsplit⟩ := List.append_of_mem ht
    have hplace := line_and_column_of_token hsplit
    have hzero : (pre ++ [t]).countP (·.splitsBreak text.toList) = 0 := by
      rw [List.countP_eq_zero]
      intro u hu
      have hmem : u ∈ tokenize text := by
        rw [hsplit, List.append_cons]
        exact List.mem_append_left post hu
      rw [hnone u hmem]
      decide
    rw [hzero, hnone t ht] at hplace
    exact hplace

theorem forall_not_splitsBreak_iff_isChain (text : String) :
    (∀ t ∈ tokenize text, t.splitsBreak text.toList = false) ↔
      (tokenize text).IsChain (fun t u => ¬ t.CutsBreak u) := by
  have hchain : (tokenize text).IsChain
      (fun t u => u.splitsBreak text.toList = true ↔ t.CutsBreak u) :=
    splitsBreak_iff_cutsBreak [] rfl
  rw [List.isChain_iff_getElem] at hchain ⊢
  constructor
  · intro hnone i hi hcuts
    have hsplit := (hchain i hi).2 hcuts
    rw [hnone _ (List.getElem_mem hi)] at hsplit
    contradiction
  · intro huncut t ht
    obtain ⟨i, hi, rfl⟩ := List.mem_iff_getElem.1 ht
    cases i with
    | zero =>
        have hfirst : (tokenize text)[0] ∈ (tokenize text).head? := by
          rw [List.head?_eq_getElem?]
          exact List.getElem?_eq_getElem hi
        have hstart := (first_of_head? hfirst).1
        rw [Token.splitsBreak, hstart]
        rfl
    | succ i =>
        apply Bool.eq_false_iff.2
        intro hsplit
        exact huncut i hi ((hchain i hi).1 hsplit)

/-- The lexer counts one line too many for every cut line break; positions are exact if and only if
no literal cuts one. -/
theorem positionsExact_iff_no_break_is_cut (text : String) :
    (∀ pre t post, tokenize text = pre ++ t :: post →
      t.start.line = lineAt text.toList t.start.offset +
          (pre ++ [t]).countP (·.splitsBreak text.toList) ∧
        t.start.column = if t.splitsBreak text.toList then 0
          else columnAt text.toList t.start.offset) ∧
    (PositionsExact text ↔ (tokenize text).IsChain (fun t u => ¬ t.CutsBreak u)) := by
  constructor
  · intro pre t post h
    exact line_and_column_of_token h
  · rw [positionsExact_iff_forall_not_splitsBreak, forall_not_splitsBreak_iff_isChain]

theorem not_positionsExact_behind_escaped_return : ¬ PositionsExact "\"\\\r\nx" := by
  unfold PositionsExact
  decide +kernel

end UsingStyle
