import UsingStyle.Proofs.Directive.Source

/-! # Derivations

The reader of directives accepts a run of tokens if and only if the run derives from the grammar.
The derivation is unique: a token tells by its text alone which rule wrote it, so two well-formed
trees with the same tokens are equal. The alias and the name of the directive are those of the
derivation.
-/

namespace UsingStyle.Grammar

open Clause

/-! ## Trees with the same tokens -/

/-- The `>` behind a list tells where the list ends. -/
theorem Arguments.tokens_append_inj {a a' : Arguments} (h : a.WellFormed) (h' : a'.WellFormed)
    {closing closing' : Token} (hclose : closing.text = ">") (hclose' : closing'.text = ">")
    {rest rest' : List Token} (heq : a.tokens ++ closing :: rest = a'.tokens ++ closing' :: rest') :
    a = a' ∧ closing = closing' ∧ rest = rest' := by
  induction a generalizing a' closing closing' rest rest' with
  | nil =>
      cases a' with
      | nil =>
          cases heq
          exact ⟨rfl, rfl, rfl⟩
      | token t more =>
          cases heq
          exact absurd hclose h'.1.2.1
      | nested opening inner last more =>
          cases heq
          have hopen := h'.1
          rw [hclose] at hopen
          contradiction
  | token t more ih =>
      cases a' with
      | nil =>
          cases heq
          exact absurd hclose' h.1.2.1
      | token t' more' =>
          simp only [tokens, List.cons_append, List.cons.injEq] at heq
          have hmore := ih h.2 h'.2 hclose hclose' heq.2
          exact ⟨by rw [heq.1, hmore.1], hmore.2⟩
      | nested opening inner last more' =>
          simp only [tokens, List.cons_append, List.cons.injEq] at heq
          have hopen := h'.1
          rw [← heq.1] at hopen
          exact absurd hopen h.1.1
  | nested opening inner last more ihInner ihMore =>
      cases a' with
      | nil =>
          cases heq
          have hopen := h.1
          rw [hclose'] at hopen
          contradiction
      | token t more' =>
          simp only [tokens, List.cons_append, List.cons.injEq] at heq
          exact absurd (heq.1 ▸ h.1) h'.1.1
      | nested opening' inner' last' more' =>
          simp only [tokens, List.cons_append, List.append_assoc, List.cons.injEq] at heq
          have hinner := ihInner h.2.1 h'.2.1 h.2.2.1 h'.2.2.1 heq.2
          have hmore := ihMore h.2.2.2 h'.2.2.2 hclose hclose' hinner.2.2
          exact ⟨by rw [heq.1, hinner.1, hinner.2.1, hmore.1], hmore.2⟩

theorem text_ne_of_separatesSegments {t : Token} (h : separatesSegments t = true) :
    t.text ≠ "<" ∧ t.text ≠ "=" := by
  constructor
  · intro ht
    simp [separatesSegments, ht] at h
  · intro ht
    simp [separatesSegments, ht] at h

theorem Segments.tokens_inj {s s' : Segments} (h : s.WellFormed) (h' : s'.WellFormed)
    (heq : s.tokens = s'.tokens) : s = s' := by
  induction s generalizing s' with
  | nil =>
      cases s' with
      | nil => rfl
      | segment separator name more => contradiction
      | arguments opening inner closing more => contradiction
  | segment separator name more ih =>
      cases s' with
      | nil => contradiction
      | segment separator' name' more' =>
          simp only [tokens, List.cons.injEq] at heq
          have hmore := ih h.2.2 h'.2.2 heq.2.2
          rw [heq.1, heq.2.1, hmore]
      | arguments opening inner closing more' =>
          simp only [tokens, List.cons.injEq] at heq
          exact absurd (heq.1 ▸ h'.1) (text_ne_of_separatesSegments h.1).1
  | arguments opening inner closing more ih =>
      cases s' with
      | nil => contradiction
      | segment separator name more' =>
          simp only [tokens, List.cons.injEq] at heq
          exact absurd (heq.1 ▸ h.1) (text_ne_of_separatesSegments h'.1).1
      | arguments opening' inner' closing' more' =>
          simp only [tokens, List.cons.injEq] at heq
          have hinner := Arguments.tokens_append_inj h.2.1 h'.2.1 h.2.2.1 h'.2.2.1 heq.2
          have hmore := ih h.2.2.2 h'.2.2.2 hinner.2.2
          rw [heq.1, hinner.1, hinner.2.1, hmore]

/-- No name goes on with `=` behind its first identifier. -/
theorem Body.target_ne_name {aliasName equals first : Token} {more : List Token} {word : Token}
    {segments : Segments} (h : (target aliasName equals first more).WellFormed)
    (h' : (name word segments).WellFormed) :
    (target aliasName equals first more).tokens ≠ (name word segments).tokens := by
  intro heq
  have hequals := h.2.1
  have hsegments := h'.2
  cases segments with
  | nil => simp [tokens, Segments.tokens] at heq
  | segment separator next rest =>
      simp only [tokens, Segments.tokens, List.cons.injEq] at heq
      exact (text_ne_of_separatesSegments hsegments.1).2 (heq.2.1 ▸ hequals)
  | arguments opening inner closing rest =>
      simp only [tokens, Segments.tokens, List.cons.injEq] at heq
      have hopen := hsegments.1
      rw [← heq.2.1, hequals] at hopen
      contradiction

theorem Body.tokens_inj {b b' : Body} (h : b.WellFormed) (h' : b'.WellFormed)
    (heq : b.tokens = b'.tokens) : b = b' := by
  cases b with
  | target aliasName equals first more =>
      cases b' with
      | target aliasName' equals' first' more' =>
          simp only [tokens, List.cons.injEq] at heq
          rw [heq.1, heq.2.1, heq.2.2.1, heq.2.2.2]
      | name word segments => exact absurd heq (target_ne_name h h')
  | name word segments =>
      cases b' with
      | target aliasName equals first more => exact absurd heq.symm (target_ne_name h' h)
      | name word' segments' =>
          simp only [tokens, List.cons.injEq] at heq
          rw [heq.1, Segments.tokens_inj h.2 h'.2 heq.2]

namespace Phrase

/-- The first token tells whether the word `global` is there. -/
theorem WellFormed.globalWord_eq {p q : Phrase} (hp : p.WellFormed) (hq : q.WellFormed)
    {rest rest' : List Token}
    (heq : p.globalWord.toList ++ p.usingWord :: rest =
      q.globalWord.toList ++ q.usingWord :: rest') :
    p.globalWord = q.globalWord ∧ p.usingWord = q.usingWord ∧ rest = rest' := by
  have husing : ∀ t : Token, t.isIdentifier "global" = true → t.text ≠ "using" := by
    intro t ht htext
    simp [Token.isIdentifier, htext] at ht
  cases hg : p.globalWord with
  | none =>
      cases hg' : q.globalWord with
      | none =>
          simp only [hg, hg', Option.toList_none, List.nil_append, List.cons.injEq] at heq
          exact ⟨rfl, heq.1, heq.2⟩
      | some g =>
          simp only [hg, hg', Option.toList_none, Option.toList_some, List.nil_append,
            List.cons_append, List.cons.injEq] at heq
          exact absurd (heq.1 ▸ hp.usingWord) (husing g (hq.globalWord g hg'))
  | some g =>
      cases hg' : q.globalWord with
      | none =>
          simp only [hg, hg', Option.toList_none, Option.toList_some, List.nil_append,
            List.cons_append, List.cons.injEq] at heq
          exact absurd (heq.1 ▸ hq.usingWord) (husing g (hp.globalWord g hg))
      | some g' =>
          simp only [hg, hg', Option.toList_some, List.cons_append, List.nil_append,
            List.cons.injEq] at heq
          exact ⟨by rw [heq.1], heq.2.1, heq.2.2⟩

/-- The token behind `using` tells whether the word `static` is there. -/
theorem WellFormed.staticWord_eq {p q : Phrase} (hp : p.WellFormed) (hq : q.WellFormed)
    {rest rest' : List Token}
    (heq : p.staticWord.toList ++ (p.body.tokens ++ rest) =
      q.staticWord.toList ++ (q.body.tokens ++ rest')) :
    p.staticWord = q.staticWord ∧ p.body.tokens ++ rest = q.body.tokens ++ rest' := by
  obtain ⟨more, hmore⟩ := p.body.tokens_eq_cons
  obtain ⟨more', hmore'⟩ := q.body.tokens_eq_cons
  cases hs : p.staticWord with
  | none =>
      cases hs' : q.staticWord with
      | none =>
          simp only [hs, hs', Option.toList_none, List.nil_append] at heq
          exact ⟨rfl, heq⟩
      | some t =>
          simp only [hs, hs', hmore, Option.toList_none, Option.toList_some, List.nil_append,
            List.cons_append, List.cons.injEq] at heq
          exact absurd (heq.1 ▸ hq.staticWord t hs') (hp.notStatic hs)
  | some t =>
      cases hs' : q.staticWord with
      | none =>
          simp only [hs, hs', hmore', Option.toList_none, Option.toList_some, List.nil_append,
            List.cons_append, List.cons.injEq] at heq
          exact absurd (heq.1 ▸ hp.staticWord t hs) (hq.notStatic hs')
      | some t' =>
          simp only [hs, hs', Option.toList_some, List.cons_append, List.nil_append,
            List.cons.injEq] at heq
          exact ⟨by rw [heq.1], heq.2⟩

theorem tokens_inj {p q : Phrase} (hp : p.WellFormed) (hq : q.WellFormed)
    (heq : p.tokens = q.tokens) : p = q := by
  have hwords := hp.globalWord_eq hq heq
  have hstatic := hp.staticWord_eq hq hwords.2.2
  have hbody := List.append_inj' hstatic.2 rfl
  have hsemicolon : p.semicolon = q.semicolon := List.singleton_inj.1 hbody.2
  have htree := Body.tokens_inj hp.body hq.body hbody.1
  cases p
  cases q
  simp only [mk.injEq]
  exact ⟨hwords.1, hwords.2.1, hstatic.1, htree, hsemicolon⟩

end Phrase

/-! ## Derivations of a run of tokens -/

/-- The tokens that name the target of the directive. -/
def Body.named : Body → List Token
  | target _ _ first rest => first :: rest
  | name first rest => first :: rest.tokens

theorem Body.tokens_drop_lead (b : Body) : b.tokens.drop b.lead = b.named := by
  cases b <;> rfl

namespace Phrase

/-- The tokens from `start` up to `stop` derive from the grammar by the tree `p`. -/
structure Derives (p : Phrase) (ts : List Token) (start stop : Nat) : Prop where
  wellFormed : p.WellFormed
  stop_le : stop ≤ ts.length
  tokens_eq : p.tokens = (ts.take stop).drop start

theorem length_tokens_pos (p : Phrase) : 0 < p.tokens.length := by
  rw [length_tokens]
  omega

theorem derives_iff {p : Phrase} {ts : List Token} {start stop : Nat} :
    p.Derives ts start stop ↔
      p.WellFormed ∧ p.tokens <+: ts.drop start ∧ stop = start + p.tokens.length := by
  constructor
  · intro h
    have hlen := congrArg List.length h.tokens_eq
    have hpos := p.length_tokens_pos
    have hle := h.stop_le
    rw [List.length_drop, List.length_take] at hlen
    have hstop : stop = start + p.tokens.length := by omega
    refine ⟨h.wellFormed, ?_, hstop⟩
    rw [h.tokens_eq, List.drop_take]
    exact List.take_prefix _ _
  · rintro ⟨hp, hprefix, rfl⟩
    have hle := hprefix.length_le
    have hpos := p.length_tokens_pos
    rw [List.length_drop] at hle
    refine ⟨hp, by omega, ?_⟩
    rw [List.drop_take, Nat.add_sub_cancel_left]
    exact List.prefix_iff_eq_take.1 hprefix

/-- What the reader finds at the start of a derivation is its clause. -/
theorem Derives.parse?_eq {p : Phrase} {ts : List Token} {start stop : Nat}
    (h : p.Derives ts start stop) : parse? (ts.drop start) = some p.clause := by
  obtain ⟨hp, ⟨rest, hrest⟩, _⟩ := derives_iff.1 h
  rw [← hrest]
  exact parse?_tokens_append hp rest

theorem Derives.unique {p q : Phrase} {ts : List Token} {start stop stop' : Nat}
    (hp : p.Derives ts start stop) (hq : q.Derives ts start stop') : stop = stop' ∧ p = q := by
  have hclause : p.clause = q.clause := by
    have heq := hp.parse?_eq
    rw [hq.parse?_eq] at heq
    exact (Option.some.inj heq).symm
  have hlen : p.tokens.length = q.tokens.length := congrArg Clause.length hclause
  have hstop : stop = stop' := by
    rw [(derives_iff.1 hp).2.2, (derives_iff.1 hq).2.2, hlen]
  refine ⟨hstop, tokens_inj hp.wellFormed hq.wellFormed ?_⟩
  rw [hp.tokens_eq, hq.tokens_eq, hstop]

theorem exists_derives_iff {ts : List Token} {start : Nat}
    (hstart : startsDirective (ts.drop start) = true) (stop : Nat) :
    (∃ c, parse? (ts.drop start) = some c ∧ stop = start + c.length) ↔
      ∃ p : Phrase, p.Derives ts start stop := by
  constructor
  · rintro ⟨c, hc, hstop⟩
    obtain ⟨p, rest, hp, hts, rfl⟩ := exists_phrase_of_parse? hstart hc
    exact ⟨p, derives_iff.2 ⟨hp, ⟨rest, hts.symm⟩, hstop⟩⟩
  · rintro ⟨p, hp⟩
    exact ⟨p.clause, hp.parse?_eq, (derives_iff.1 hp).2.2⟩

/-! ## The parts of a directive -/

/-- The name of a directive lies between its first tokens and its semicolon. -/
theorem named_eq (p : Phrase) (rest : List Token) :
    ((p.tokens ++ rest).take (p.clause.length - 1)).drop p.clause.nameStart = p.body.named := by
  have hlen := p.length_tokens
  have htake : (p.tokens ++ rest).take (p.clause.length - 1) = p.front := by
    have hfront : p.clause.length - 1 = p.front.length := by
      simp [clause, p.tokens_eq_front_append]
    rw [hfront, p.tokens_eq_front_append, List.append_assoc, List.take_left]
  have hdrop : p.front.drop p.modifiers = p.body.tokens := by
    have hall := p.drop_modifiers []
    rw [List.append_nil, p.tokens_eq_front_append] at hall
    have hle : p.modifiers ≤ p.front.length := by
      simp [front, modifiers]
      omega
    rw [List.drop_append_of_le_length hle] at hall
    exact (List.append_inj' hall rfl).1
  rw [htake, clause, ← List.drop_drop, hdrop, Body.tokens_drop_lead]

theorem getElem?_nameStart (p : Phrase) (rest : List Token) {t : Token}
    (h : t ∈ p.body.named.head?) : (p.tokens ++ rest)[p.clause.nameStart]? = some t := by
  rw [← p.named_eq rest, List.head?_drop] at h
  have hmem : ((p.tokens ++ rest).take (p.clause.length - 1))[p.clause.nameStart]? = some t := h
  have hlt : p.clause.nameStart < p.clause.length - 1 := by
    have hbound := (List.getElem?_eq_some_iff.1 hmem).1
    rw [List.length_take] at hbound
    omega
  rwa [List.getElem?_take_of_lt hlt] at hmem

theorem getElem?_nameStop (p : Phrase) (rest : List Token) {t : Token}
    (h : t ∈ p.body.named.getLast?) : (p.tokens ++ rest)[p.clause.length - 2]? = some t := by
  have hpos := p.length_tokens_pos
  have hlen : ((p.tokens ++ rest).take (p.clause.length - 1)).length = p.clause.length - 1 := by
    rw [List.length_take, List.length_append]
    show min (p.tokens.length - 1) (p.tokens.length + rest.length) = p.tokens.length - 1
    omega
  have hlast : ((p.tokens ++ rest).take (p.clause.length - 1)).getLast? = some t := by
    have hmem : p.body.named.getLast? = some t := h
    rw [← p.named_eq rest, List.getLast?_drop] at hmem
    split at hmem
    · contradiction
    · exact hmem
  rw [List.getLast?_eq_getElem?, hlen, List.getElem?_take] at hlast
  split at hlast
  · exact hlast
  · contradiction

end Phrase

theorem fst_getD_of_getElem? {items : List (Token × List Token)} {i : Nat} {t : Token}
    (h : (items.map Prod.fst)[i]? = some t) : (items.getD i default).1 = t := by
  rw [List.getElem?_map] at h
  obtain ⟨item, hitem, rfl⟩ := Option.map_eq_some_iff.1 h
  rw [List.getD_eq_getElem?_getD, hitem]
  rfl

/-- The name of the directive that is built for a derivation is the source text from the first to
the last token of its name. -/
theorem name_ofClause (source : List Char) {items : List (Token × List Token)} {p : Phrase}
    {rest : List Token} (h : items.map Prod.fst = p.tokens ++ rest) {first last : Token}
    (hfirst : first ∈ p.body.named.head?) (hlast : last ∈ p.body.named.getLast?) :
    (Directive.ofClause source items p.clause).name =
      slice source first.start.offset last.stop := by
  have hstart := p.getElem?_nameStart rest hfirst
  have hstop := p.getElem?_nameStop rest hlast
  rw [← h] at hstart hstop
  unfold Directive.ofClause
  dsimp only
  rw [fst_getD_of_getElem? hstart, fst_getD_of_getElem? hstop]

/-! ## Reading and deriving agree -/

/-- The reader succeeds up to `stop` if and only if the tokens up to `stop` derive from the grammar.
There is at most one derivation, whatever its end, and alias and name of the directive are its
alias and the source text of its named tokens. -/
theorem parse?_iff_derives {ts : List Token} {start : Nat}
    (hstart : startsDirective (ts.drop start) = true) :
    (∀ stop, (∃ c, parse? (ts.drop start) = some c ∧ stop = start + c.length) ↔
      ∃ p : Phrase, p.Derives ts start stop) ∧
    (parse? (ts.drop start) = none ↔ ∀ stop, ¬ ∃ p : Phrase, p.Derives ts start stop) ∧
    (∀ stop stop' (p q : Phrase), p.Derives ts start stop → q.Derives ts start stop' →
      stop = stop' ∧ p = q) ∧
    ∀ c stop (p : Phrase), parse? (ts.drop start) = some c → p.Derives ts start stop →
      c.aliasName = p.body.aliasName? ∧
      (ts.take (stop - 1)).drop (start + c.nameStart) = p.body.named ∧
      ∀ (source : List Char) (items : List (Token × List Token)), items.map Prod.fst = ts →
        (Directive.ofClause source (items.drop start) c).aliasName = p.body.aliasName? ∧
        ∀ first ∈ p.body.named.head?, ∀ last ∈ p.body.named.getLast?,
          (Directive.ofClause source (items.drop start) c).name =
            slice source first.start.offset last.stop := by
  have hiff := Phrase.exists_derives_iff hstart
  refine ⟨hiff, ?_, fun _ _ _ _ hp hq => hp.unique hq, ?_⟩
  · constructor
    · intro hnone stop hex
      obtain ⟨c, hc, _⟩ := (hiff stop).2 hex
      rw [hnone] at hc
      contradiction
    · intro hnone
      cases hc : parse? (ts.drop start) with
      | none => rfl
      | some c => exact absurd ((hiff _).1 ⟨c, hc, rfl⟩) (hnone _)
  · intro c stop p hc hp
    have hclause : c = p.clause := by
      rw [hp.parse?_eq] at hc
      exact (Option.some.inj hc).symm
    subst hclause
    obtain ⟨_, ⟨rest, hrest⟩, hstop⟩ := Phrase.derives_iff.1 hp
    refine ⟨rfl, ?_, ?_⟩
    · have hnamed := p.named_eq rest
      have hpos := p.length_tokens_pos
      have hwidth : stop - 1 - start = p.clause.length - 1 := by
        show stop - 1 - start = p.tokens.length - 1
        omega
      rw [hrest] at hnamed
      rw [← List.drop_drop, List.drop_take, hwidth, hnamed]
    · intro source items hitems
      have hmap : (items.drop start).map Prod.fst = p.tokens ++ rest := by
        rw [List.map_drop, hitems, hrest]
      refine ⟨rfl, ?_⟩
      intro first hfirst last hlast
      exact name_ofClause source hmap hfirst hlast

/-- Nested lists and a segment behind them are one name. -/
theorem exists_derivation_of_nested_arguments :
    startsDirective ((sourceTokens "; global using static A<B<C>, D>.E;").drop 1) = true ∧
      ∃ p : Phrase, p.Derives (sourceTokens "; global using static A<B<C>, D>.E;") 1 16 := by
  have hstart : startsDirective
      ((sourceTokens "; global using static A<B<C>, D>.E;").drop 1) = true := by
    decide +kernel
  have hread : parse? ((sourceTokens "; global using static A<B<C>, D>.E;").drop 1) =
      some ⟨none, 3, 15⟩ := by
    decide +kernel
  exact ⟨hstart, ((parse?_iff_derives hstart).1 16).1 ⟨⟨none, 3, 15⟩, hread, rfl⟩⟩

end UsingStyle.Grammar
