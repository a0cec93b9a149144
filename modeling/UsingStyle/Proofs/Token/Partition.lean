import UsingStyle.Directive.Scan
import UsingStyle.Proofs.Token.Tiling
import Mathlib.Data.List.Chain

/-! # Tokens partition their text

At every boundary the lexer finds a lexeme, which has at least one character and does not run past
the end of the text. So nothing of the text is lost between two tokens, and none of it is read
twice: each token is the slice of the text from its offset up to the offset of the next one.
-/

namespace UsingStyle

namespace Lexeme

/-! ## No lexeme runs past the end of the text -/

theorem blockCommentRest_le (cs : List Char) : blockCommentRest cs ≤ cs.length := by
  fun_induction blockCommentRest cs with
  | case1 cs => simp
  | case2 c cs _ ih => exact Nat.succ_le_succ ih
  | case3 => exact Nat.le_refl 0

theorem rawStringRest_le (cs : List Char) : rawStringRest cs ≤ cs.length := by
  fun_induction rawStringRest cs with
  | case1 cs =>
      have hrun := run_le_length (· == '"') cs
      simp only [List.length_cons]
      omega
  | case2 c cs _ ih => exact Nat.succ_le_succ ih
  | case3 => exact Nat.le_refl 0

theorem verbatimStringRest_le (cs : List Char) : verbatimStringRest cs ≤ cs.length := by
  fun_induction verbatimStringRest cs with
  | case1 cs ih => exact Nat.add_le_add_right ih 2
  | case2 cs _ => simp
  | case3 c cs _ _ ih => exact Nat.succ_le_succ ih
  | case4 => exact Nat.le_refl 0

theorem escapedRest_le (delimiter : Char) (cs : List Char) :
    escapedRest delimiter cs ≤ cs.length := by
  fun_induction escapedRest delimiter cs with
  | case1 c cs ih => exact Nat.add_le_add_right ih 2
  | case2 c cs _ _ => simp
  | case3 c cs _ _ _ => exact Nat.zero_le _
  | case4 c cs _ _ _ ih => exact Nat.succ_le_succ ih
  | case5 => exact Nat.le_refl 0

theorem numberRest_le (cs : List Char) : numberRest cs ≤ cs.length := by
  have hwhole := run_le_length Text.isWord cs
  unfold numberRest
  dsimp only
  split
  · rename_i d ds hdrop
    -- the fraction lies behind the whole part
    have hlen := congrArg List.length hdrop
    have hfraction := run_le_length Text.isWord ds
    simp only [List.length_drop, List.length_cons] at hlen
    split <;> omega
  · exact hwhole

theorem rest_le (o : Opening) (cs : List Char) : rest o cs ≤ cs.length := by
  cases o with
  | lineBreak _ => exact Nat.zero_le _
  | blank => exact run_le_length _ cs
  | lineComment => exact run_le_length _ cs
  | blockComment => exact blockCommentRest_le cs
  | preprocessor => exact run_le_length _ cs
  | rawString _ => exact rawStringRest_le cs
  | verbatimString _ => exact verbatimStringRest_le cs
  | string _ => exact escapedRest_le _ cs
  | char => exact escapedRest_le _ cs
  | identifier _ => exact run_le_length _ cs
  | number => exact numberRest_le cs
  | symbol _ => exact Nat.zero_le _

theorem Opening.lead_ofChar (c : Char) : (ofChar c).lead = 1 := by
  unfold ofChar
  split
  · rfl
  · split
    · rfl
    · split <;> rfl

theorem Opening.lead_ofFront_le (cs : List Char) : (ofFront cs).lead ≤ cs.length := by
  unfold ofFront
  split
  case h_12 => split <;> simp [lead]
  case h_14 => simp [lead_ofChar]
  all_goals simp [lead]

theorem Opening.lead_ofText_le (fresh : Bool) (cs : List Char) :
    (ofText fresh cs).lead ≤ cs.length := by
  unfold ofText
  split
  · rename_i h
    cases cs with
    | nil => simp at h
    | cons c cs => simp [lead]
  · dsimp only
    split
    · have hdollars := run_le_length (· == '$') cs
      have hquotes := run_le_length (· == '"') (cs.drop (run (· == '$') cs))
      simp only [List.length_drop] at hquotes
      simp only [lead]
      omega
    · exact lead_ofFront_le cs

/-- The first lexeme ends within the text. -/
theorem length_le (fresh : Bool) (cs : List Char) :
    length (Opening.ofText fresh cs) cs ≤ cs.length := by
  have hlead := Opening.lead_ofText_le fresh cs
  have hrest := rest_le (Opening.ofText fresh cs) (cs.drop (Opening.ofText fresh cs).lead)
  simp only [List.length_drop] at hrest
  unfold length
  omega

end Lexeme

/-! ## Boundaries -/

/-- The token is the first lexeme of `cs`, whole and not empty. -/
structure Token.Opens (t : Token) (cs : List Char) (fresh : Bool) : Prop where
  kind_eq : t.kind = (Lexeme.Opening.ofText fresh cs).kind
  length_eq : t.text.length = Lexeme.length (Lexeme.Opening.ofText fresh cs) cs
  pos : 0 < t.text.length
  le : t.text.length ≤ cs.length

/-- A relation between the state of the lexer, the text in front of it and the text behind it holds
at every token if each step keeps it. -/
theorem exists_opens_of_step {R : Bool → List Char → List Char → Prop}
    (hstep : ∀ fresh before c cs, R fresh before (c :: cs) →
      R ((Lexeme.Opening.ofText fresh (c :: cs)).kind.keepsFresh fresh)
        (before ++ (c :: cs).take (Lexeme.length (Lexeme.Opening.ofText fresh (c :: cs)) (c :: cs)))
        ((c :: cs).drop (Lexeme.length (Lexeme.Opening.ofText fresh (c :: cs)) (c :: cs))))
    (before : List Char) {p : Position} {fresh : Bool} {cs : List Char}
    (hp : p.offset = before.length) (h : R fresh before cs) {t : Token}
    (ht : t ∈ tokensFrom p fresh cs) :
    ∃ fresh', R fresh' ((before ++ cs).take t.start.offset)
        ((before ++ cs).drop t.start.offset) ∧
      t.Opens ((before ++ cs).drop t.start.offset) fresh' := by
  fun_induction tokensFrom p fresh cs generalizing before with
  | case1 p fresh => simp at ht
  | case2 p fresh c cs opening length text =>
      rename_i ih
      have hle : length ≤ (c :: cs).length := Lexeme.length_le fresh (c :: cs)
      have htext : text.length = length := List.length_take_of_le hle
      rcases List.mem_cons.1 ht with rfl | hrest
      · have hdrop : (before ++ c :: cs).drop p.offset = c :: cs := by
          rw [hp, List.drop_left]
        have htake : (before ++ c :: cs).take p.offset = before := by
          rw [hp, List.take_left]
        have hlen : (String.ofList text).length = length := by
          rw [String.length_ofList, htext]
        refine ⟨fresh, ?_⟩
        rw [hdrop, htake]
        exact ⟨h, rfl, hlen, by rw [hlen]; exact Lexeme.length_pos fresh c cs,
          by rw [hlen]; exact hle⟩
      · have hoffset : (p.advance text).offset = (before ++ text).length := by
          rw [Position.offset_advance, List.length_append, hp]
        have hcut : before ++ text ++ (c :: cs).drop length = before ++ c :: cs := by
          rw [List.append_assoc, List.take_append_drop]
        have hopens := ih _ hoffset (hstep fresh before c cs h) hrest
        rwa [hcut] at hopens

theorem opens_of_mem_tokensFrom (before : List Char) {p : Position} {fresh : Bool} {cs : List Char}
    (hp : p.offset = before.length) {t : Token} (ht : t ∈ tokensFrom p fresh cs) :
    ∃ fresh', t.Opens ((before ++ cs).drop t.start.offset) fresh' := by
  obtain ⟨fresh', -, hopens⟩ := exists_opens_of_step (R := fun _ _ _ => True)
    (fun _ _ _ _ _ => trivial) before hp trivial ht
  exact ⟨fresh', hopens⟩

namespace Tiling

theorem start_head {p : Position} {cs : List Char} {ts : List Token} (h : Tiling p cs ts) :
    ∀ t ∈ ts.head?, t.start = p := by
  intro t ht
  cases h with
  | nil p => simp at ht
  | @cons p cs ts u hstart hne hrest =>
      cases ht
      exact hstart

theorem stop_eq {p : Position} {t : Token} (h : t.start = p) :
    t.stop = (p.advance t.text.toList).offset := by
  rw [Position.offset_advance, Token.stop, h, String.length_toList]

theorem isChain {p : Position} {cs : List Char} {ts : List Token} (h : Tiling p cs ts) :
    ts.IsChain (fun t u => t.stop = u.start.offset) := by
  induction h with
  | nil p => exact .nil
  | @cons p cs ts t hstart hne hrest ih =>
      refine List.isChain_cons.2 ⟨?_, ih⟩
      intro u hu
      rw [hrest.start_head u hu, stop_eq hstart]

theorem stop_last {p : Position} {cs : List Char} {ts : List Token} (h : Tiling p cs ts) :
    ∀ t ∈ ts.getLast?, t.stop = p.offset + cs.length := by
  induction h with
  | nil p => simp
  | @cons p cs ts t hstart hne hrest ih =>
      intro u hu
      have hstop := stop_eq hstart
      rw [Position.offset_advance] at hstop ih
      rw [List.length_append]
      cases hrest with
      | nil q =>
          cases hu
          simpa using hstop
      | cons hstart' hne' hrest' =>
          rw [List.getLast?_cons_cons] at hu
          have hlast := ih u hu
          omega

theorem stop_le {p : Position} {cs : List Char} {ts : List Token} (h : Tiling p cs ts) {t : Token}
    (ht : t ∈ ts) : t.stop ≤ p.offset + cs.length := by
  induction h with
  | nil p => simp at ht
  | @cons p cs ts u hstart hne hrest ih =>
      rw [List.length_append]
      rcases List.mem_cons.1 ht with rfl | htail
      · rw [stop_eq hstart, Position.offset_advance]
        omega
      · have hle := ih htail
        rw [Position.offset_advance] at hle
        omega

theorem offset_lt_stop {p : Position} {cs : List Char} {ts : List Token} (h : Tiling p cs ts)
    {t : Token} (ht : t ∈ ts) : p.offset < t.stop := by
  induction h with
  | nil p => simp at ht
  | @cons p cs ts u hstart hne hrest ih =>
      have hstop := stop_eq hstart
      have hlen := List.length_pos_iff.2 hne
      rw [Position.offset_advance] at hstop ih
      rcases List.mem_cons.1 ht with rfl | htail
      · omega
      · have hlater := ih htail
        omega

theorem pairwise_stop_lt {p : Position} {cs : List Char} {ts : List Token} (h : Tiling p cs ts) :
    ts.Pairwise (fun t u => t.stop < u.stop) := by
  induction h with
  | nil p => exact .nil
  | @cons p cs ts t hstart hne hrest ih =>
      refine List.pairwise_cons.2 ⟨fun u hu => ?_, ih⟩
      rw [stop_eq hstart]
      exact hrest.offset_lt_stop hu

theorem start_lt_stop {p : Position} {cs : List Char} {ts : List Token} (h : Tiling p cs ts)
    {t : Token} (ht : t ∈ ts) : t.start.offset < t.stop := by
  induction h with
  | nil p => simp at ht
  | @cons p cs ts u hstart hne hrest ih =>
      rcases List.mem_cons.1 ht with rfl | htail
      · have hlen := List.length_pos_iff.2 hne
        rw [Token.stop, ← String.length_toList]
        omega
      · exact ih htail

theorem text_eq_slice (before : List Char) {p : Position} {cs : List Char} {ts : List Token}
    (h : Tiling p cs ts) (hp : p.offset = before.length) {t : Token} (ht : t ∈ ts) :
    t.text = slice (before ++ cs) t.start.offset t.stop := by
  induction h generalizing before with
  | nil p => simp at ht
  | @cons p cs ts u hstart hne hrest ih =>
      rcases List.mem_cons.1 ht with rfl | htail
      · have hwidth : t.stop - t.start.offset = t.text.toList.length := by
          rw [Token.stop, String.length_toList]
          omega
        rw [slice, hwidth, hstart, hp, List.drop_left, List.take_left, String.ofList_toList]
      · have hoffset : (p.advance u.text.toList).offset = (before ++ u.text.toList).length := by
          rw [Position.offset_advance, List.length_append, hp]
        have hslice := ih _ hoffset htail
        rwa [List.append_assoc] at hslice

theorem join_texts {p : Position} {cs : List Char} {ts : List Token} (h : Tiling p cs ts) :
    String.join (ts.map Token.text) = String.ofList cs := by
  induction h with
  | nil p => rfl
  | @cons p cs ts t hstart hne hrest ih =>
      rw [List.map_cons, String.join_cons, ih, String.ofList_append, String.ofList_toList]

end Tiling

/-! ## The partition -/

/-- The tokens cut the text into pieces that are lexemes, none of them empty, without gap or
overlap. -/
structure Partitions (ts : List Token) (text : String) : Prop where
  opens : ∀ t ∈ ts, ∃ fresh, t.Opens (text.toList.drop t.start.offset) fresh
  ne_empty : ∀ t ∈ ts, t.text ≠ ""
  first : ∀ t ∈ ts.head?, t.start.offset = 0
  adjacent : ts.IsChain (fun t u => t.stop = u.start.offset)
  last : ∀ t ∈ ts.getLast?, t.stop = text.length
  slices : ∀ t ∈ ts, t.text = slice text.toList t.start.offset t.stop
  join : String.join (ts.map Token.text) = text

theorem tokenize_partitions (text : String) : Partitions (tokenize text) text := by
  have htiling : Tiling .start text.toList (tokenize text) := tiling_tokensFrom _ _ _
  have hopens : ∀ t ∈ tokenize text, ∃ fresh, t.Opens (text.toList.drop t.start.offset) fresh := by
    intro t ht
    exact opens_of_mem_tokensFrom [] rfl ht
  constructor
  case opens => exact hopens
  case ne_empty =>
    intro t ht hempty
    obtain ⟨fresh, h⟩ := hopens t ht
    have hpos := h.pos
    rw [hempty] at hpos
    contradiction
  case first =>
    intro t ht
    rw [htiling.start_head t ht]
    rfl
  case adjacent => exact htiling.isChain
  case last =>
    intro t ht
    have hstop := htiling.stop_last t ht
    rwa [String.length_toList, show Position.start.offset = 0 from rfl, Nat.zero_add] at hstop
  case slices =>
    intro t ht
    exact htiling.text_eq_slice [] rfl ht
  case join =>
    rw [htiling.join_texts, String.ofList_toList]

end UsingStyle
