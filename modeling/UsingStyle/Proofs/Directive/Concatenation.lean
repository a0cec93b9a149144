import UsingStyle.Proofs.Directive.Roles
import UsingStyle.Proofs.Directive.Source
import UsingStyle.Proofs.Token.Restart

/-! # The directives of two texts in a row

The scan of a text that is put behind another one starts afresh if the first text ends at the end of
a line, behind a semicolon or closing brace, and with every brace closed: its tokens are the same,
no directive reaches from one text into the other, and neither do the blanks and comments behind a
directive. All that changes is the line of each directive of the second text.
-/

namespace UsingStyle

open Clause

/-! ## One step -/

theorem directiveAt?_eq_some_iff_exists_phrase {s : Scope} {ts : List Token} {c : Clause} :
    directiveAt? s ts = some c ↔ s.admitsDirective = true ∧
      ∃ (p : Grammar.Phrase) (rest : List Token),
        p.WellFormed ∧ ts = p.tokens ++ rest ∧ c = p.clause := by
  rw [directiveAt?_eq_some_iff]
  constructor
  · rintro ⟨hadmits, hstart, hparse⟩
    exact ⟨hadmits, Grammar.exists_phrase_of_parse? hstart hparse⟩
  · rintro ⟨hadmits, p, rest, hp, rfl, rfl⟩
    exact ⟨hadmits, Grammar.Phrase.startsDirective_tokens_append hp rest,
      Grammar.Phrase.parse?_tokens_append hp rest⟩

theorem directiveAt?_append_of_some {s : Scope} {ts : List Token} {c : Clause}
    (h : directiveAt? s ts = some c) (us : List Token) : directiveAt? s (ts ++ us) = some c := by
  rw [directiveAt?_eq_some_iff_exists_phrase] at h ⊢
  obtain ⟨hadmits, p, rest, hp, rfl, rfl⟩ := h
  exact ⟨hadmits, p, rest ++ us, hp, List.append_assoc _ _ _, rfl⟩

/-- The last token, if there is one, is a brace or a semicolon. -/
def EndsBroken (ts : List Token) : Prop :=
  ∀ t ∈ ts.getLast?, breaksScope t = true

theorem EndsBroken.drop {ts : List Token} (h : EndsBroken ts) {k : Nat} (hk : k < ts.length) :
    EndsBroken (ts.drop k) := by
  unfold EndsBroken
  rw [List.getLast?_drop, if_neg (by omega)]
  exact h

/-- A phrase ends with its first brace or semicolon. -/
theorem Grammar.Phrase.WellFormed.eq_nil_of_tokens_eq_append {p : Grammar.Phrase}
    (hp : p.WellFormed) (hwords : WordsBreakNothing p.tokens) {ts more : List Token}
    (h : p.tokens = ts ++ more) (hne : ts ≠ []) (hbroken : EndsBroken ts) : more = [] := by
  by_contra hmore
  have hfront : p.front = ts ++ more.dropLast := by
    have hdrop := congrArg List.dropLast h
    rwa [p.tokens_eq_front_append, List.dropLast_concat, List.dropLast_append_of_ne_nil hmore]
      at hdrop
  have hlast := List.getLast?_eq_some_getLast hne
  have hmem : ts.getLast hne ∈ p.front := by
    rw [hfront]
    exact List.mem_append_left _ (List.mem_of_getLast? hlast)
  have hfree := breaksScope_front hp hwords hmem
  rw [hbroken _ hlast] at hfree
  contradiction

/-- Behind a brace or semicolon no directive goes on. -/
theorem directiveAt?_append_of_none {s : Scope} {ts us : List Token}
    (h : directiveAt? s ts = none) (hwords : WordsBreakNothing (ts ++ us)) (hne : ts ≠ [])
    (hbroken : EndsBroken ts) : directiveAt? s (ts ++ us) = none := by
  cases hc : directiveAt? s (ts ++ us) with
  | none => rfl
  | some c =>
      obtain ⟨hadmits, p, rest, hp, hsplit, rfl⟩ :=
        directiveAt?_eq_some_iff_exists_phrase.1 hc
      have hphrase : WordsBreakNothing p.tokens := by
        intro t ht
        exact hwords t (by rw [hsplit]; exact List.mem_append_left rest ht)
      have hfirst : ∃ rest', ts = p.tokens ++ rest' := by
        rcases List.append_eq_append_iff.1 hsplit with ⟨more, hmore, _⟩ | ⟨rest', hrest, _⟩
        · have hnil := hp.eq_nil_of_tokens_eq_append hphrase hmore hne hbroken
          rw [hnil, List.append_nil] at hmore
          exact ⟨[], by rw [hmore, List.append_nil]⟩
        · exact ⟨rest', hrest⟩
      obtain ⟨rest', hrest⟩ := hfirst
      have hfound : directiveAt? s ts = some p.clause :=
        directiveAt?_eq_some_iff_exists_phrase.2 ⟨hadmits, p, rest', hp, hrest, rfl⟩
      rw [h] at hfound
      contradiction

/-! ## Whole runs -/

/-- As long as the scan is among the first tokens, those behind them change nothing. -/
theorem Visits.occurrences_append {ts us : List Token} (hwords : WordsBreakNothing (ts ++ us))
    (hbroken : EndsBroken ts) {k : Nat} {s : Scope} (h : Visits ts k s) :
    ∃ found, occurrences ts = found ++ occurrencesFrom s k (ts.drop k) ∧
      occurrences (ts ++ us) = found ++ occurrencesFrom s k ((ts ++ us).drop k) := by
  induction h with
  | start => exact ⟨[], rfl, rfl⟩
  | @skip k s t hat ht hnone ih =>
      obtain ⟨found, heq, heq'⟩ := ih
      have hk : k < ts.length := (List.getElem?_eq_some_iff.1 ht).1
      have hdrop : (ts ++ us).drop k = ts.drop k ++ us :=
        List.drop_append_of_le_length (Nat.le_of_lt hk)
      have hwords' : WordsBreakNothing (ts.drop k ++ us) := by
        rw [← hdrop]
        exact fun u hu => hwords u (List.mem_of_mem_drop hu)
      have hne : ts.drop k ≠ [] := by
        rw [drop_eq_cons_of_getElem? ht]
        exact List.cons_ne_nil _ _
      have hnone' := directiveAt?_append_of_none hnone hwords' hne (hbroken.drop hk)
      have ht' : (ts ++ us)[k]? = some t := by rw [List.getElem?_append_left hk, ht]
      rw [← hdrop, drop_eq_cons_of_getElem? ht'] at hnone'
      rw [drop_eq_cons_of_getElem? ht] at hnone heq
      rw [drop_eq_cons_of_getElem? ht'] at heq'
      rw [occurrencesFrom_of_none hnone] at heq
      rw [occurrencesFrom_of_none hnone'] at heq'
      exact ⟨found, heq, heq'⟩
  | @take k s c hat hsome ih =>
      obtain ⟨found, heq, heq'⟩ := ih
      have hk : k ≤ ts.length := by
        apply Nat.le_of_not_lt
        intro hlt
        rw [List.drop_eq_nil_of_le (Nat.le_of_lt hlt), directiveAt?_nil] at hsome
        contradiction
      have hdrop : (ts ++ us).drop k = ts.drop k ++ us := List.drop_append_of_le_length hk
      have hsome' := directiveAt?_append_of_some hsome us
      rw [← hdrop] at hsome'
      rw [occurrencesFrom_of_some hsome, List.drop_drop] at heq
      rw [occurrencesFrom_of_some hsome', List.drop_drop] at heq'
      exact ⟨found ++ [⟨k, c⟩], by simpa using heq, by simpa using heq'⟩

/-- The occurrence among tokens that stand behind `n` others. -/
def Occurrence.after (n : Nat) (o : Occurrence) : Occurrence :=
  ⟨n + o.index, o.clause⟩

theorem occurrencesFrom_add (s : Scope) (n index : Nat) (ts : List Token) :
    occurrencesFrom s (n + index) ts = (occurrencesFrom s index ts).map (Occurrence.after n) := by
  fun_induction occurrencesFrom s index ts with
  | case1 s index => rw [occurrencesFrom]; rfl
  | case2 s index t ts c hc ih =>
      rw [occurrencesFrom_of_some hc, List.map_cons, ← ih, Nat.add_assoc]
      rfl
  | case3 s index t ts hc ih =>
      rw [occurrencesFrom_of_none hc, ← ih, Nat.add_assoc]

theorem Token.sameRole_below (q : Position) (t : Token) : t.SameRole (t.below q) :=
  ⟨rfl, fun _ _ => rfl, fun _ => rfl⟩

theorem occurrencesFrom_map_below (s : Scope) (index : Nat) (q : Position) (ts : List Token) :
    occurrencesFrom s index (ts.map (Token.below q)) = occurrencesFrom s index ts := by
  have hroles : List.Forall₂ Token.SameRole ts (ts.map (Token.below q)) := by
    rw [List.forall₂_map_right_iff, List.forall₂_same]
    exact fun t _ => t.sameRole_below q
  exact (occurrencesFrom_eq hroles s index).symm

/-- A scan that ends outside of all braces starts afresh with the tokens that follow. -/
theorem occurrences_append {ts us : List Token} (hbroken : EndsBroken ts)
    (hscope : Visits ts ts.length .top) (q : Position)
    (hwords : WordsBreakNothing (ts ++ us.map (Token.below q))) :
    occurrences (ts ++ us.map (Token.below q)) =
      occurrences ts ++ (occurrences us).map (Occurrence.after ts.length) := by
  obtain ⟨found, heq, heq'⟩ := hscope.occurrences_append hwords hbroken
  have hnil : occurrencesFrom .top ts.length [] = [] := by rw [occurrencesFrom]
  rw [List.drop_length, hnil, List.append_nil] at heq
  rw [List.drop_left, occurrencesFrom_map_below, ← heq] at heq'
  rw [heq']
  exact congrArg _ (occurrencesFrom_add .top ts.length 0 us)

/-! ## The tokens of a directive -/

theorem meaningful_append (ts us : List Token) :
    meaningful (ts ++ us) =
      (meaningful ts).map (fun item => (item.1, item.2 ++ us)) ++ meaningful us := by
  induction ts with
  | nil => rfl
  | cons t ts ih => cases h : t.isTrivia <;> simp [meaningful, h, ih]

theorem meaningful_map_below (q : Position) (ts : List Token) :
    meaningful (ts.map (Token.below q)) =
      (meaningful ts).map (fun item => (item.1.below q, item.2.map (Token.below q))) := by
  induction ts with
  | nil => rfl
  | cons t ts ih =>
      have htrivia : (t.below q).isTrivia = t.isTrivia := rfl
      cases h : t.isTrivia <;> simp [meaningful, htrivia, h, ih]

theorem exists_split_of_mem_meaningful {ts : List Token} {item : Token × List Token}
    (h : item ∈ meaningful ts) :
    ∃ before, ts = before ++ item.1 :: item.2 ∧ item.1.isTrivia = false := by
  induction ts with
  | nil => simp [meaningful] at h
  | cons t ts ih =>
      rw [meaningful] at h
      split at h
      · obtain ⟨before, rfl, htrivia⟩ := ih h
        exact ⟨t :: before, rfl, htrivia⟩
      · rename_i htrivia
        rcases List.mem_cons.1 h with rfl | hrest
        · exact ⟨[], rfl, Bool.eq_false_iff.2 htrivia⟩
        · obtain ⟨before, rfl, htrivia'⟩ := ih hrest
          exact ⟨t :: before, rfl, htrivia'⟩

theorem Tiling.stop_le_of_mem_meaningful {cs : List Char} {ts : List Token}
    (h : Tiling .start cs ts) {item : Token × List Token} (hitem : item ∈ meaningful ts) :
    item.1.stop ≤ cs.length := by
  obtain ⟨before, rfl, _⟩ := exists_split_of_mem_meaningful hitem
  have hle := h.stop_le (List.mem_append_right before List.mem_cons_self)
  rwa [show Position.start.offset = 0 from rfl, Nat.zero_add] at hle

theorem lead_le_length_tokens (b : Grammar.Body) : b.lead ≤ b.tokens.length := by
  cases b <;> simp [Grammar.Body.lead, Grammar.Body.tokens]

/-- A directive ends within the tokens, and its name starts before its end. -/
theorem bounds_of_mem_occurrences {ts : List Token} {o : Occurrence} (h : o ∈ occurrences ts) :
    o.stop ≤ ts.length ∧ o.clause.nameStart < o.clause.length := by
  obtain ⟨p, rest, hp, hdrop, hclause⟩ := exists_phrase_of_mem h
  have hlen := congrArg List.length hdrop
  have htokens := p.length_tokens
  have hlead := lead_le_length_tokens p.body
  rw [List.length_drop, List.length_append] at hlen
  rw [Occurrence.stop, hclause]
  simp only [Grammar.Phrase.clause]
  omega

/-! ## Reported directives -/

/-- The directive with the given first and last tokens, of the whole and of its name, and the tokens
behind it. -/
def Directive.ofTokens (source : List Char) (first nameFirst nameLast semicolon : Token)
    (behind : List Token) (aliasName : Option String) : Directive where
  text := slice source first.start.offset semicolon.stop
  name := slice source nameFirst.start.offset nameLast.stop
  line := first.start.line
  column := first.start.column
  aliasName := aliasName
  trailing := trailingOnLine first.start.line behind

theorem getD_map_append {α β : Type} [Inhabited α] [Inhabited β] (f : α → β) {xs : List α}
    {i : Nat} (h : i < xs.length) (ys : List β) :
    (xs.map f ++ ys).getD i default = f (xs.getD i default) := by
  simp [List.getD_eq_getElem?_getD, List.getElem?_append_left, h]

theorem getD_mem {α : Type} [Inhabited α] {xs : List α} {i : Nat} (h : i < xs.length) :
    xs.getD i default ∈ xs := by
  rw [List.getD_eq_getElem?_getD, List.getElem?_eq_getElem h]
  exact List.getElem_mem h

/-- All tokens of a directive are changed alike. -/
theorem Directive.ofClause_map_append (source : List Char)
    (f : Token × List Token → Token × List Token) {items : List (Token × List Token)} {c : Clause}
    (hname : c.nameStart < c.length) (hlen : c.length ≤ items.length)
    (more : List (Token × List Token)) :
    ofClause source (items.map f ++ more) c =
      ofTokens source (f (items.getD 0 default)).1 (f (items.getD c.nameStart default)).1
        (f (items.getD (c.length - 2) default)).1 (f (items.getD (c.length - 1) default)).1
        (f (items.getD (c.length - 1) default)).2 c.aliasName := by
  unfold ofClause ofTokens
  rw [getD_map_append f (by omega), getD_map_append f (by omega), getD_map_append f (by omega),
    getD_map_append f (by omega)]

/-! ### In the first text -/

theorem slice_append_of_le {source : List Char} {stop : Nat} (h : stop ≤ source.length)
    (more : List Char) (start : Nat) :
    slice (source ++ more) start stop = slice source start stop := by
  unfold slice
  by_cases hstart : start ≤ source.length
  · rw [List.drop_append_of_le_length hstart, List.take_append_of_le_length]
    rw [List.length_drop]
    omega
  · rw [Nat.sub_eq_zero_of_le (by omega), List.take_zero, List.take_zero]

theorem trailingOnLine_append {ts : List Token} (h : EndsInNewline ts) (us : List Token)
    (line : Nat) : trailingOnLine line (ts ++ us) = trailingOnLine line ts := by
  obtain ⟨t, ht, hkind⟩ := h
  obtain ⟨before, rfl⟩ := List.getLast?_eq_some_iff.1 ht
  have hstop : t.kind.isTrailing = false := by
    rw [hkind]
    rfl
  unfold trailingOnLine
  rw [List.append_assoc, List.singleton_append, List.takeWhile_append, List.takeWhile_append,
    List.takeWhile_cons_of_neg (by simp [hstop]), List.takeWhile_cons_of_neg (by simp [hstop])]

theorem EndsInNewline.behind {ts : List Token} (h : EndsInNewline ts)
    {item : Token × List Token} (hitem : item ∈ meaningful ts) : EndsInNewline item.2 := by
  obtain ⟨before, rfl, htrivia⟩ := exists_split_of_mem_meaningful hitem
  obtain ⟨t, ht, hkind⟩ := h
  rw [List.getLast?_append_of_ne_nil _ (List.cons_ne_nil _ _)] at ht
  by_cases hnil : item.2 = []
  · -- the last token is a line break, but the one of the item is no trivia
    rw [hnil, List.getLast?_singleton, Option.mem_some_iff] at ht
    rw [Token.isTrivia, ht, hkind] at htrivia
    contradiction
  · rw [List.getLast?_cons_of_ne_nil hnil] at ht
    exact ⟨t, ht, hkind⟩

theorem Directive.ofTokens_append {source : List Char}
    {first nameFirst nameLast semicolon : Token} {behind : List Token}
    (hname : nameLast.stop ≤ source.length) (hsemicolon : semicolon.stop ≤ source.length)
    (hbehind : EndsInNewline behind) (more : List Char) (us : List Token)
    (aliasName : Option String) :
    ofTokens (source ++ more) first nameFirst nameLast semicolon (behind ++ us) aliasName =
      ofTokens source first nameFirst nameLast semicolon behind aliasName := by
  unfold ofTokens
  rw [slice_append_of_le hname, slice_append_of_le hsemicolon, trailingOnLine_append hbehind]

/-- What follows the text does not change the directives in it. -/
theorem Directive.ofClause_append {cs : List Char} {ts : List Token} (htiling : Tiling .start cs ts)
    (h : EndsInNewline ts) {o : Occurrence} (ho : o ∈ occurrences ((meaningful ts).map Prod.fst))
    (ds : List Char) (us : List Token) :
    ofClause (cs ++ ds) ((meaningful (ts ++ us)).drop o.index) o.clause =
      ofClause cs ((meaningful ts).drop o.index) o.clause := by
  obtain ⟨hstop, hname⟩ := bounds_of_mem_occurrences ho
  rw [Occurrence.stop, List.length_map] at hstop
  have hlen : o.clause.length ≤ ((meaningful ts).drop o.index).length := by
    rw [List.length_drop]
    omega
  have hmem : ∀ i, i < o.clause.length →
      ((meaningful ts).drop o.index).getD i default ∈ meaningful ts :=
    fun i hi => List.mem_of_mem_drop (getD_mem (Nat.lt_of_lt_of_le hi hlen))
  have hwithin : ∀ i, i < o.clause.length →
      (((meaningful ts).drop o.index).getD i default).1.stop ≤ cs.length :=
    fun i hi => htiling.stop_le_of_mem_meaningful (hmem i hi)
  rw [meaningful_append, List.drop_append_of_le_length, ← List.map_drop,
    ofClause_map_append _ _ hname hlen]
  · exact ofTokens_append (hwithin _ (by omega)) (hwithin _ (by omega))
      (h.behind (hmem _ (by omega))) ds us _
  · rw [List.length_map]
    omega

/-! ### In the second text -/

/-- The directive some lines further down. -/
def Directive.below (lines : Nat) (d : Directive) : Directive :=
  { d with line := d.line + lines }

theorem slice_below (before source : List Char) (start stop : Nat) :
    slice (before ++ source) (before.length + start) (before.length + stop) =
      slice source start stop := by
  unfold slice
  rw [List.drop_append, List.drop_eq_nil_of_le (Nat.le_add_right _ _), List.nil_append,
    Nat.add_sub_cancel_left, Nat.add_sub_add_left]

theorem trailingOnLine_below (q : Position) (line : Nat) (ts : List Token) :
    trailingOnLine (q.line + line) (ts.map (Token.below q)) = trailingOnLine line ts := by
  have hkind : (fun t : Token => t.kind.isTrailing) ∘ Token.below q =
      fun t => t.kind.isTrailing := rfl
  have hline : (fun t : Token => t.start.line == q.line + line) ∘ Token.below q =
      fun t => t.start.line == line := by
    funext t
    exact Bool.eq_iff_iff.2 (by simp [Token.below, Position.below])
  have htext : Token.text ∘ Token.below q = Token.text := rfl
  unfold trailingOnLine
  rw [List.takeWhile_map, List.filter_map, List.map_map, hkind, hline, htext]

theorem Directive.ofTokens_below {before : List Char} {q : Position}
    (hq : q.offset = before.length) (source : List Char)
    (first nameFirst nameLast semicolon : Token) (behind : List Token)
    (aliasName : Option String) :
    ofTokens (before ++ source) (first.below q) (nameFirst.below q) (nameLast.below q)
        (semicolon.below q) (behind.map (Token.below q)) aliasName =
      (ofTokens source first nameFirst nameLast semicolon behind aliasName).below q.line := by
  have hstart : ∀ t : Token, (t.below q).start.offset = before.length + t.start.offset := by
    intro t
    rw [← hq]
    rfl
  have hstop : ∀ t : Token, (t.below q).stop = before.length + t.stop := by
    intro t
    rw [← hq]
    exact Nat.add_assoc _ _ _
  have hline : (first.below q).start.line = q.line + first.start.line := rfl
  have hcount : ((q.line + first.start.line : Nat) : Int) = first.start.line + q.line := by omega
  unfold ofTokens Directive.below
  rw [hstart, hstart, hstop, hstop, slice_below, slice_below, hline, trailingOnLine_below, hcount]
  rfl

theorem Directive.ofClause_below {cs : List Char} {q : Position} (hq : q.offset = cs.length)
    (ds : List Char) (ts : List Token) {us : List Token} {o : Occurrence}
    (ho : o ∈ occurrences ((meaningful us).map Prod.fst)) :
    ofClause (cs ++ ds) ((meaningful (ts ++ us.map (Token.below q))).drop
        ((meaningful ts).length + o.index)) o.clause =
      (ofClause ds ((meaningful us).drop o.index) o.clause).below q.line := by
  obtain ⟨hstop, hname⟩ := bounds_of_mem_occurrences ho
  rw [Occurrence.stop, List.length_map] at hstop
  have hlen : o.clause.length ≤ ((meaningful us).drop o.index).length := by
    rw [List.length_drop]
    omega
  have hfirst : (meaningful ts).length =
      ((meaningful ts).map fun item => (item.1, item.2 ++ us.map (Token.below q))).length := by
    rw [List.length_map]
  rw [meaningful_append, hfirst, ← List.drop_drop, List.drop_left, meaningful_map_below,
    ← List.map_drop, ← List.append_nil (List.map _ _), ofClause_map_append _ _ hname hlen]
  exact ofTokens_below hq ds _ _ _ _ _ _

/-! ## Byte-order marks -/

theorem dropByteOrderMark_append {cs : List Char} (h : Text.dropByteOrderMark cs ≠ [])
    (ds : List Char) :
    Text.dropByteOrderMark (cs ++ ds) = Text.dropByteOrderMark cs ++ ds := by
  cases cs with
  | nil => contradiction
  | cons c cs =>
      by_cases hc : c = '\uFEFF'
      · subst hc
        rfl
      · simp [Text.dropByteOrderMark, hc]

theorem dropByteOrderMark_of_head? {cs : List Char} (h : cs.head? ≠ some '\uFEFF') :
    Text.dropByteOrderMark cs = cs := by
  unfold Text.dropByteOrderMark
  split
  · contradiction
  · rfl

theorem getLast?_dropByteOrderMark {cs : List Char} (h : Text.dropByteOrderMark cs ≠ []) :
    (Text.dropByteOrderMark cs).getLast? = cs.getLast? := by
  unfold Text.dropByteOrderMark at h ⊢
  split
  · rename_i cs
    exact (List.getLast?_cons_of_ne_nil h).symm
  · rfl

/-! ## Two texts -/

/-- All tokens of a source text, trivia included. -/
def textTokens (text : String) : List Token :=
  tokensFrom .start true (Text.dropByteOrderMark text.toList)

/-- The place behind a source text, as the lexer counts. -/
def textEnd (text : String) : Position :=
  placeAfter .start (textTokens text)

/-- The second text starts on a line of its own. -/
structure StartsLineBehind (a b : String) : Prop where
  newline : EndsInNewline (textTokens a)
  unmarked : b.toList.head? ≠ some '\uFEFF'
  uncut : ¬ (a.toList.getLast? = some '\r' ∧ b.toList.head? = some '\n')

namespace StartsLineBehind

variable {a b : String}

theorem source_ne_nil (h : StartsLineBehind a b) : Text.dropByteOrderMark a.toList ≠ [] :=
  (EndsInNewline.endsInBreak h.newline).ne_nil

theorem source_append (h : StartsLineBehind a b) :
    Text.dropByteOrderMark (a ++ b).toList = Text.dropByteOrderMark a.toList ++ b.toList := by
  rw [String.toList_append, dropByteOrderMark_append h.source_ne_nil]

theorem source_second (h : StartsLineBehind a b) :
    Text.dropByteOrderMark b.toList = b.toList :=
  dropByteOrderMark_of_head? h.unmarked

theorem textTokens_append (h : StartsLineBehind a b) :
    textTokens (a ++ b) = textTokens a ++ (textTokens b).map (Token.below (textEnd a)) := by
  have huncut := h.uncut
  rw [← getLast?_dropByteOrderMark h.source_ne_nil] at huncut
  rw [textTokens, h.source_append, tokensFrom_append_eq_below h.newline huncut,
    textTokens, textTokens, h.source_second]
  rfl

theorem sourceTokens_append (h : StartsLineBehind a b) :
    sourceTokens (a ++ b) =
      sourceTokens a ++ (sourceTokens b).map (Token.below (textEnd a)) := by
  show (textTokens (a ++ b)).filter _ = (textTokens a).filter _ ++ ((textTokens b).filter _).map _
  rw [h.textTokens_append, List.filter_append, List.filter_map]
  rfl

theorem tiling_textTokens (text : String) :
    Tiling .start (Text.dropByteOrderMark text.toList) (textTokens text) :=
  tiling_tokensFrom _ _ _

theorem reported_first (h : StartsLineBehind a b) {o : Occurrence}
    (ho : o ∈ occurrences (sourceTokens a)) : reported (a ++ b) o = reported a o := by
  show Directive.ofClause _ ((meaningful (textTokens (a ++ b))).drop o.index) o.clause =
    Directive.ofClause _ ((meaningful (textTokens a)).drop o.index) o.clause
  rw [h.source_append, h.textTokens_append]
  rw [sourceTokens, ← map_fst_meaningful] at ho
  exact Directive.ofClause_append (tiling_textTokens a) h.newline ho _ _

theorem reported_second (h : StartsLineBehind a b) {o : Occurrence}
    (ho : o ∈ occurrences (sourceTokens b)) :
    reported (a ++ b) (o.after (sourceTokens a).length) =
      (reported b o).below (textEnd a).line := by
  have hlength : (sourceTokens a).length = (meaningful (textTokens a)).length := by
    rw [sourceTokens, ← map_fst_meaningful, List.length_map]
    rfl
  have hoffset : (textEnd a).offset = (Text.dropByteOrderMark a.toList).length := by
    rw [textEnd, (tiling_textTokens a).offset_placeAfter]
    exact Nat.zero_add _
  show Directive.ofClause _ ((meaningful (textTokens (a ++ b))).drop (_ + o.index)) o.clause =
    (Directive.ofClause _ ((meaningful (textTokens b)).drop o.index) o.clause).below _
  rw [h.source_append, h.textTokens_append, h.source_second, hlength]
  rw [sourceTokens, ← map_fst_meaningful] at ho
  exact Directive.ofClause_below hoffset _ _ ho

end StartsLineBehind

/-- The directives of two texts in a row are those of the first one and those of the second one,
further down by the lines that the lexer counts in the first one. -/
theorem scan_append {a b : String} (hnewline : EndsInNewline (textTokens a))
    (hlast : ∀ t ∈ (sourceTokens a).getLast?, t.text = ";" ∨ t.text = "\x7d")
    (hscope : Visits (sourceTokens a) (sourceTokens a).length .top)
    (hmark : b.toList.head? ≠ some '\uFEFF')
    (hcut : ¬ (a.toList.getLast? = some '\r' ∧ b.toList.head? = some '\n')) :
    scan (a ++ b) = scan a ++ (scan b).map (Directive.below (textEnd a).line) := by
  have hline : StartsLineBehind a b := ⟨hnewline, hmark, hcut⟩
  have hbroken : EndsBroken (sourceTokens a) := by
    intro t ht
    rcases hlast t ht with htext | htext <;> simp [breaksScope, htext]
  have hwords := wordsBreakNothing_sourceTokens (a ++ b)
  rw [hline.sourceTokens_append] at hwords
  rw [scan_eq_map_reported, scan_eq_map_reported a, scan_eq_map_reported b,
    hline.sourceTokens_append, occurrences_append hbroken hscope _ hwords, List.map_append,
    List.map_map, List.map_map]
  congr 1
  · exact List.map_congr_left fun o ho => hline.reported_first ho
  · exact List.map_congr_left fun o ho => hline.reported_second ho

theorem Visits.read {ts : List Token} {k : Nat} {s : Scope} (h : Visits ts k s) (s' : Scope)
    (hstep : k < ts.length ∧ directiveAt? s (ts.drop k) = none ∧
      s.step (ts.getD k default) = s') : Visits ts (k + 1) s' := by
  obtain ⟨hk, hnone, rfl⟩ := hstep
  exact h.skip (by simp [hk]) hnone

/-- Behind a namespace with a directive in it, four lines further down. -/
theorem scan_append_behind_namespace :
    scan ("\uFEFFnamespace N\n\x7b\n  using A; // a\r\n\x7d\r" ++ "using B = C<D>; /* b\n*/\n") =
      scan "\uFEFFnamespace N\n\x7b\n  using A; // a\r\n\x7d\r" ++
        (scan "using B = C<D>; /* b\n*/\n").map (Directive.below 4) := by
  have hstart : Visits (sourceTokens "\uFEFFnamespace N\n\x7b\n  using A; // a\r\n\x7d\r") 0 .top :=
    .start
  have hword := hstart.read ⟨[], true⟩ (by decide +kernel)
  have hname := hword.read ⟨[], true⟩ (by decide +kernel)
  have hopen := hname.read ⟨[true], false⟩ (by decide +kernel)
  have hinner := hopen.take (c := ⟨none, 1, 3⟩) (by decide +kernel)
  have hscope := hinner.read .top (by decide +kernel)
  have hlength :
      (sourceTokens "\uFEFFnamespace N\n\x7b\n  using A; // a\r\n\x7d\r").length = 7 := by
    decide +kernel
  have hlines :
      (textEnd "\uFEFFnamespace N\n\x7b\n  using A; // a\r\n\x7d\r").line = 4 := by
    decide +kernel
  rw [← hlines]
  apply scan_append
  · decide +kernel
  · decide +kernel
  · rw [hlength]
    exact hscope
  · decide +kernel
  · decide +kernel

end UsingStyle
