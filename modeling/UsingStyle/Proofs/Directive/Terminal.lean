import UsingStyle.Proofs.Directive.Target

/-! # Terminal names

The terminal name of a directive is computed from the characters of its name, trivia included. It is
the last identifier of the name, outside all type arguments, if nothing but blanks stands beside
that identifier behind the last separator. A comment there becomes part of the terminal name.
-/

namespace UsingStyle

open Grammar Text

/-! ## Characters outside the type arguments -/

theorem dropTypeArguments_append {w : List Char} (hopen : '<' ∉ w) (hclose : '>' ∉ w)
    (depth : Nat) (cs : List Char) :
    dropTypeArguments depth (w ++ cs) =
      (if depth = 0 then w else []) ++ dropTypeArguments depth cs := by
  induction w with
  | nil => simp
  | cons c w ih =>
      have hc : c ≠ '<' ∧ c ≠ '>' := by
        constructor
        · rintro rfl
          exact hopen List.mem_cons_self
        · rintro rfl
          exact hclose List.mem_cons_self
      have hrest := ih (fun h => hopen (List.mem_cons_of_mem c h))
        (fun h => hclose (List.mem_cons_of_mem c h))
      rw [List.cons_append, dropTypeArguments]
      by_cases hdepth : depth = 0
      · simp [hc, hdepth] at hrest ⊢
        exact hrest
      · simp [hc, hdepth] at hrest ⊢
        exact hrest

/-- The characters `<` and `>` stand alone, as tokens of their own. -/
def BracketsStandAlone (ts : List Token) : Prop :=
  ∀ t ∈ ts, '<' ∈ t.text.toList ∨ '>' ∈ t.text.toList → t.text = "<" ∨ t.text = ">"

instance (ts : List Token) : Decidable (BracketsStandAlone ts) :=
  inferInstanceAs (Decidable (∀ t ∈ ts, '<' ∈ t.text.toList ∨ '>' ∈ t.text.toList →
    t.text = "<" ∨ t.text = ">"))

namespace BracketsStandAlone

variable {t : Token} {ts : List Token} (h : BracketsStandAlone (t :: ts))

include h

theorem tail : BracketsStandAlone ts :=
  fun u hu => h u (List.mem_cons_of_mem t hu)

theorem not_mem_head (hopen : t.text ≠ "<") (hclose : t.text ≠ ">") :
    '<' ∉ t.text.toList ∧ '>' ∉ t.text.toList := by
  constructor
  · intro hmem
    exact (h t List.mem_cons_self (.inl hmem)).elim hopen hclose
  · intro hmem
    exact (h t List.mem_cons_self (.inr hmem)).elim hopen hclose

end BracketsStandAlone

theorem dropTypeArguments_spelled {ts : List Token} (h : BracketsStandAlone ts) (depth : Nat) :
    dropTypeArguments depth (spelled ts) = spelled (outerTokens depth ts) := by
  fun_induction outerTokens depth ts with
  | case1 => simp [dropTypeArguments]
  | case2 depth t ts hopen ih =>
      rw [beq_iff_eq] at hopen
      rw [spelled_cons, hopen]
      exact ih h.tail
  | case3 depth t ts hopen hclose ih =>
      rw [beq_iff_eq] at hclose
      rw [spelled_cons, hclose]
      exact ih h.tail
  | case4 depth t ts hopen hclose hdepth ih =>
      have ht := h.not_mem_head (by simpa using hopen) (by simpa using hclose)
      rw [spelled_cons, spelled_cons, dropTypeArguments_append ht.1 ht.2,
        if_pos (beq_iff_eq.1 hdepth)]
      rw [ih h.tail]
  | case5 depth t ts hopen hclose hdepth ih =>
      have ht := h.not_mem_head (by simpa using hopen) (by simpa using hclose)
      rw [spelled_cons, dropTypeArguments_append ht.1 ht.2, if_neg (by simpa using hdepth)]
      exact ih h.tail

/-! ## The last segment -/

theorem afterLastSeparator_eq_none {cs : List Char} (hdot : '.' ∉ cs) (hcolon : ':' ∉ cs) :
    afterLastSeparator cs = none := by
  fun_induction afterLastSeparator cs with
  | case1 cs _ => exact absurd List.mem_cons_self hcolon
  | case2 cs _ => exact absurd List.mem_cons_self hdot
  | case3 c cs _ _ ih =>
      exact ih (fun h => hdot (List.mem_cons_of_mem c h))
        (fun h => hcolon (List.mem_cons_of_mem c h))
  | case4 => rfl

/-- A separator is found unless a colon in front of it takes its first one. -/
theorem afterLastSeparator_append {w xs : List Char} (hw : w = ['.'] ∨ w = [':', ':'])
    (hxs : w = [':', ':'] → xs.getLast? ≠ some ':') (ys : List Char) :
    afterLastSeparator (xs ++ (w ++ ys)) = some (lastSegment ys) := by
  have htail : ∀ {c : Char} {cs : List Char}, (w = [':', ':'] → (c :: cs).getLast? ≠ some ':') →
      w = [':', ':'] → cs.getLast? ≠ some ':' := by
    intro c cs h hcolons hlast
    refine h hcolons ?_
    rw [List.getLast?_cons, hlast]
    rfl
  fun_induction afterLastSeparator xs with
  | case1 cs ih =>
      rw [List.cons_append, List.cons_append, afterLastSeparator, ih (htail (htail hxs))]
      rfl
  | case2 cs ih =>
      rw [List.cons_append, afterLastSeparator, ih (htail hxs)]
      rfl
  | case3 c cs hcolons hdot ih =>
      rw [List.cons_append, afterLastSeparator, ih (htail hxs)]
      · intro more hc hmore
        cases cs with
        | nil =>
            rcases hw with rfl | rfl
            · cases hmore
            · exact hxs rfl (by rw [hc]; rfl)
        | cons d cs =>
            cases hmore
            exact hcolons cs hc rfl
      · exact hdot
  | case4 =>
      rcases hw with rfl | rfl
      · rfl
      · rfl

theorem lastSegment_append {w xs ys : List Char} (hw : w = ['.'] ∨ w = [':', ':'])
    (hxs : w = [':', ':'] → xs.getLast? ≠ some ':') (hdot : '.' ∉ ys) (hcolon : ':' ∉ ys) :
    lastSegment (xs ++ (w ++ ys)) = ys := by
  rw [lastSegment, afterLastSeparator_append hw hxs, lastSegment,
    afterLastSeparator_eq_none hdot hcolon]
  rfl

theorem lastSegment_of_plain {ys : List Char} (hdot : '.' ∉ ys) (hcolon : ':' ∉ ys) :
    lastSegment ys = ys := by
  rw [lastSegment, afterLastSeparator_eq_none hdot hcolon]
  rfl

/-! ## What stands in front of a separator -/

theorem isChain_outerTokens {ts : List Token} (hsigns : SignsStandOut ts)
    (h : ts.IsChain Token.EndsBefore) (depth : Nat) :
    (outerTokens depth ts).IsChain Token.EndsBefore := by
  fun_induction outerTokens depth ts with
  | case1 => exact .nil
  | case2 depth t ts _ ih =>
      exact ih hsigns.tail h.tail
  | case3 depth t ts _ _ ih =>
      exact ih hsigns.tail h.tail
  | case4 depth t ts _ _ hdepth ih =>
      refine List.isChain_cons.2
        ⟨?_, ih hsigns.tail h.tail⟩
      intro u hu
      rw [beq_iff_eq] at hdepth
      subst hdepth
      cases ts with
      | nil => contradiction
      | cons v ts =>
          have hnext := (List.isChain_cons.1 h).1 v rfl
          refine ⟨fun hline => ?_, hnext.block⟩
          -- the line break behind the line is no bracket
          have hkind := hnext.line hline
          have hbracket := hsigns.ne_bracket (t := v) (by simp)
            (.inl (by rw [Token.isTrivia, hkind]; rfl))
          rw [outerTokens_plain _ hbracket.1 hbracket.2] at hu
          cases hu
          exact hkind
  | case5 depth t ts _ _ _ ih =>
      exact ih hsigns.tail h.tail

/-- What the lexer guarantees of a row of its tokens. -/
structure LexedRow (ts : List Token) : Prop where
  signs : SignsStandOut ts
  chain : ts.IsChain Token.EndsBefore
  ne_nil : ∀ t ∈ ts, t.text.toList ≠ []
  word : ∀ t ∈ ts, t.kind = .identifier → ∀ c ∈ t.text.toList, c = '@' ∨ isWord c = true
  blank : ∀ t ∈ ts, t.isTrivia = true → t.kind.isAside = false →
    ∀ c ∈ t.text.toList, isBlank c = true
  aside : ∀ t ∈ ts, t.kind.isAside = true → ∃ c ∈ t.text.toList, c = '/' ∨ c = '#'

theorem Dissection.lexedRow_named {text : String} {o : Occurrence} (D : Dissection text o) :
    LexedRow D.named := by
  have hmem : ∀ t ∈ D.named, t ∈ textTokens text := by
    intro t ht
    exact D.mem_textTokens_of_whole (by simp [whole, ht])
  constructor
  case signs => exact (signsStandOut_tokensFrom _ _ _).mono hmem
  case chain =>
    have hchain : (textTokens text).IsChain Token.EndsBefore := isChain_endsBefore _ _ _
    rw [D.tokens_eq] at hchain
    exact hchain.right_of_append.right_of_append.left_of_append
  case ne_nil =>
    intro t ht hnil
    obtain ⟨_, c, _, word, _, htext⟩ := exists_opening_of_mem (hmem t ht)
    rw [htext] at hnil
    contradiction
  case word => exact fun t ht => chars_of_identifier (hmem t ht)
  case blank => exact fun t ht => chars_of_trivia (hmem t ht)
  case aside =>
    intro t ht haside
    obtain ⟨c, word, htext, hc⟩ :=
      first_of_trivia (hmem t ht) (TokenKind.isTrivia_of_isAside haside)
    rw [if_pos haside] at hc
    exact ⟨c, by rw [htext]; exact List.mem_cons_self, hc⟩

namespace NameEnd

variable {ts : List Token}

/-- The tokens around the last identifier, up to the separator before it. -/
def row (E : NameEnd ts) : List Token :=
  E.leading ++ E.word :: E.trailing

theorem chars_of_row (E : NameEnd ts) (L : LexedRow ts) {t : Token} (ht : t ∈ E.row)
    (haside : t.kind.isAside = false) :
    ∀ c ∈ t.text.toList, isBlank c = true ∨ c = '@' ∨ isWord c = true := by
  have hmem := E.mem_of_mem_row ht
  intro c hc
  rcases List.mem_append.1 ht with hleading | hrest
  · exact .inl (L.blank t hmem (E.leading_trivia t hleading) haside c hc)
  · rcases List.mem_cons.1 hrest with rfl | htrailing
    · exact .inr (L.word _ hmem E.kind_eq c hc)
    · exact .inl (L.blank t hmem (E.trailing_trivia t htrailing) haside c hc)

theorem mem_of_mem_before (E : NameEnd ts) {t : Token} (h : t ∈ E.before) : t ∈ ts := by
  refine (outerTokens_sublist 0 ts).mem ?_
  rw [E.outer_eq]
  exact List.mem_append_left _ h

theorem getLast?_spelled_concat (L : LexedRow ts) (us : List Token) {t : Token} (ht : t ∈ ts) :
    (spelled (us ++ [t])).getLast? = t.text.toList.getLast? := by
  rw [spelled_append, spelled_cons, spelled_nil, List.append_nil]
  exact List.getLast?_append_of_ne_nil _ (L.ne_nil t ht)

/-- Trivia in front of the last separator have ended there, and not in a colon. -/
theorem getLast?_trivia_ne_colon (E : NameEnd ts) (L : LexedRow ts) {more : List Token}
    {t separator : Token} (hbefore : E.before = more ++ [t, separator])
    (htrivia : t.isTrivia = true) (hseparator : Clause.separatesSegments separator = true) :
    t.text.toList.getLast? ≠ some ':' := by
  have hmem : t ∈ ts := E.mem_of_mem_before (by simp [hbefore])
  have hends : t.EndsBefore separator := by
    have hchain := isChain_outerTokens L.signs L.chain 0
    rw [E.outer_eq, hbefore, List.append_assoc] at hchain
    exact (List.isChain_append_cons_cons.1 hchain).2.1
  have hnewline : separator.kind ≠ .newline := by
    intro hkind
    have hmeaningful := L.signs separator (E.mem_of_mem_before (by simp [hbefore]))
      (text_mem_signs_of_separates hseparator)
    rw [Token.isTrivia, hkind] at hmeaningful
    exact Bool.noConfusion hmeaningful.1
  intro hlast
  cases hkind : t.kind with
  | lineComment => exact hnewline (hends.line (.inl hkind))
  | preprocessor => exact hnewline (hends.line (.inr hkind))
  | blockComment =>
      rw [hends.block hkind] at hlast
      contradiction
  | newline | whitespace =>
      have hblank := L.blank t hmem htrivia (by rw [hkind]; rfl) ':' (List.mem_of_getLast? hlast)
      exact absurd hblank (by decide)
  | string | char | identifier | number | punctuation =>
      rw [Token.isTrivia, hkind] at htrivia
      contradiction

/-- No colon stands right in front of the last separator. -/
theorem getLast?_ne_colon (E : NameEnd ts) (L : LexedRow ts) {more between : List Token}
    {prior separator : Token} (hbefore : E.before = more ++ prior :: (between ++ [separator]))
    (hprior : prior.kind = .identifier) (hbetween : ∀ t ∈ between, t.isTrivia = true)
    (hseparator : Clause.separatesSegments separator = true) :
    (spelled (more ++ prior :: between)).getLast? ≠ some ':' := by
  rcases List.eq_nil_or_concat' between with rfl | ⟨init, t, rfl⟩
  · have hmem : prior ∈ ts := E.mem_of_mem_before (by simp [hbefore])
    rw [getLast?_spelled_concat L more hmem]
    intro hlast
    have hc := L.word prior hmem hprior ':' (List.mem_of_getLast? hlast)
    exact absurd hc (by decide +kernel)
  · have hmem : t ∈ ts := E.mem_of_mem_before (by simp [hbefore])
    rw [← List.cons_append, ← List.append_assoc, getLast?_spelled_concat L _ hmem]
    have hcut : E.before = (more ++ prior :: init) ++ [t, separator] := by simp [hbefore]
    exact E.getLast?_trivia_ne_colon L hcut (hbetween t (by simp)) hseparator

theorem terminalName_eq (E : NameEnd ts) (L : LexedRow ts) (hbrackets : BracketsStandAlone ts)
    (hplain : ∀ t ∈ E.row, t.kind.isAside = true → '.' ∉ t.text.toList ∧ ':' ∉ t.text.toList)
    {d : Directive} (hname : d.name.toList = spelled ts) :
    d.terminalName = trim (String.ofList (spelled E.row)) := by
  have hnone : ∀ t ∈ E.row, '.' ∉ t.text.toList ∧ ':' ∉ t.text.toList := by
    intro t ht
    cases haside : t.kind.isAside with
    | true => exact hplain t ht haside
    | false =>
        have hchars := E.chars_of_row L ht haside
        constructor
        · intro hmem
          exact absurd (hchars '.' hmem) (by decide +kernel)
        · intro hmem
          exact absurd (hchars ':' hmem) (by decide +kernel)
  have hdot : '.' ∉ spelled E.row := by
    intro hmem
    obtain ⟨t, ht, hc⟩ := List.mem_flatMap.1 hmem
    exact (hnone t ht).1 hc
  have hcolon : ':' ∉ spelled E.row := by
    intro hmem
    obtain ⟨t, ht, hc⟩ := List.mem_flatMap.1 hmem
    exact (hnone t ht).2 hc
  have hsegment : lastSegment (spelled (outerTokens 0 ts)) = spelled E.row := by
    rw [E.outer_eq, spelled_append]
    rcases E.before_eq with
      hnil | ⟨more, prior, between, separator, hbefore, hprior, hbetween, hsep⟩
    · rw [hnil]
      exact lastSegment_of_plain hdot hcolon
    · have hlast := E.getLast?_ne_colon L hbefore hprior hbetween hsep
      have hw : separator.text.toList = ['.'] ∨ separator.text.toList = [':', ':'] := by
        simp only [Clause.separatesSegments, Bool.or_eq_true, beq_iff_eq] at hsep
        rcases hsep with hsep | hsep
        · exact .inl (by rw [hsep]; rfl)
        · exact .inr (by rw [hsep]; rfl)
      have hcut : spelled E.before =
          spelled (more ++ prior :: between) ++ separator.text.toList := by
        rw [hbefore, ← List.cons_append, ← List.append_assoc, spelled_append, spelled_cons,
          spelled_nil, List.append_nil]
      rw [hcut, List.append_assoc]
      exact lastSegment_append hw (fun _ => hlast) hdot hcolon
  rw [Directive.terminalName, hname, dropTypeArguments_spelled hbrackets, hsegment]

theorem isBlank_eq_false_of_word (E : NameEnd ts) (L : LexedRow ts) :
    ∀ c ∈ E.word.text.toList, isBlank c = false := by
  have hword := L.word E.word (E.mem_of_mem_row (by simp)) E.kind_eq
  intro c hc
  rw [Bool.eq_false_iff]
  intro hblank
  rcases hword c hc with rfl | hc
  · exact absurd hblank (by decide)
  · rw [isWord_eq_false_of_isBlank hblank] at hc
    contradiction

/-- Nothing but blanks remains to be trimmed if no comment stands beside the identifier. -/
theorem trim_row_eq_iff (E : NameEnd ts) (L : LexedRow ts) :
    trim (String.ofList (spelled E.row)) = E.word.text ↔
      ∀ t ∈ E.row, t.kind.isAside = false := by
  have hwordMem : E.word ∈ ts := E.mem_of_mem_row (by simp)
  have hnonblank := E.isBlank_eq_false_of_word L
  have hfirst : ∀ c ∈ E.word.text.toList.head?, isBlank c = false :=
    fun c hc => hnonblank c (List.mem_of_mem_head? hc)
  have hlast : ∀ c ∈ E.word.text.toList.getLast?, isBlank c = false :=
    fun c hc => hnonblank c (List.mem_of_getLast? hc)
  have hcut : spelled E.row =
      spelled E.leading ++ (E.word.text.toList ++ spelled E.trailing) := by
    rw [row, spelled_append, spelled_cons]
  constructor
  · intro htrim t ht
    rw [Bool.eq_false_iff]
    intro haside
    obtain ⟨c, hc, hsign⟩ := L.aside t (E.mem_of_mem_row ht) haside
    rw [← String.ofList_toList (s := E.word.text),
      trim_eq_iff (L.ne_nil E.word hwordMem) hfirst hlast] at htrim
    obtain ⟨before, after, hbefore, hafter, hspelled⟩ := htrim
    have hmem : c ∈ spelled E.row := List.mem_flatMap.2 ⟨t, ht, hc⟩
    have hclass : isBlank c = true ∨ c = '@' ∨ isWord c = true := by
      rw [hspelled, List.mem_append, List.mem_append] at hmem
      rcases hmem with hmem | hmem | hmem
      · exact .inl (hbefore c hmem)
      · exact .inr (L.word E.word hwordMem E.kind_eq c hmem)
      · exact .inl (hafter c hmem)
    rcases hsign with rfl | rfl
    · exact absurd hclass (by decide +kernel)
    · exact absurd hclass (by decide +kernel)
  · intro hnone
    have hblank : ∀ us : List Token, (∀ t ∈ us, t ∈ E.row ∧ t.isTrivia = true) →
        ∀ c ∈ spelled us, isBlank c = true := by
      intro us hus c hc
      obtain ⟨t, ht, hct⟩ := List.mem_flatMap.1 hc
      exact L.blank t (E.mem_of_mem_row (hus t ht).1) (hus t ht).2 (hnone t (hus t ht).1) c hct
    have hleading := hblank E.leading fun t ht => ⟨by simp [row, ht], E.leading_trivia t ht⟩
    have htrailing := hblank E.trailing fun t ht => ⟨by simp [row, ht], E.trailing_trivia t ht⟩
    rw [hcut, trim_between_blanks (L.ne_nil E.word hwordMem) hfirst hlast hleading htrailing,
      String.ofList_toList]

end NameEnd

/-! ## The shape of an aliased directive -/

/-- The shape of an alias for a target whose last segment is `segment`. -/
def Shape.ofSegment (aliasName segment : String) : Shape :=
  if aliasName = segment then .plainAliased aliasName else .renamingAliased aliasName segment

theorem Shape.ofSegment_inj {a v w : String} : ofSegment a v = ofSegment a w ↔ v = w := by
  constructor
  · intro h
    unfold ofSegment at h
    by_cases hv : a = v
    · by_cases hw : a = w
      · exact hv.symm.trans hw
      · rw [if_pos hv, if_neg hw] at h
        exact Shape.noConfusion h
    · by_cases hw : a = w
      · rw [if_neg hv, if_pos hw] at h
        exact Shape.noConfusion h
      · rw [if_neg hv, if_neg hw] at h
        exact (Shape.renamingAliased.inj h).2
  · intro h
    rw [h]

namespace Directive

theorem shape_eq_ofSegment {d : Directive} {a : String} (h : d.aliasName = some a) :
    d.shape = .ofSegment a d.terminalName := by
  unfold shape
  rw [h]
  rfl

/-- The shape that the alias and the last identifier of its target make. -/
def targetShape? (text : String) (d : Directive) : Option Shape :=
  match d.aliasName, lastIdentifier (d.targetIn text) with
  | some a, some word => some (.ofSegment a word.text)
  | _, _ => none

end Directive

/-- An aliased directive has the shape of its target unless a comment or preprocessor line stands
beside the last identifier. -/
theorem shape_eq_targetShape_iff {text : String} {d : Directive} (hd : d ∈ scan text)
    (haliased : d.isAliased = true) (hname : IsName (withoutTrivia (d.targetIn text)))
    (hbrackets : BracketsStandAlone (d.targetIn text))
    (hplain : ∀ t ∈ lastRow (d.targetIn text), t.kind.isAside = true →
      '.' ∉ t.text.toList ∧ ':' ∉ t.text.toList) :
    d.targetShape? text = some d.shape ↔
      ∀ t ∈ lastRow (d.targetIn text), t.kind.isAside = false := by
  obtain ⟨o, D, rfl⟩ := exists_dissection_of_mem_scan hd
  have hreported := D.reported_eq
  cases hbody : D.phrase.body with
  | name first rest =>
      rw [Directive.isAliased, hreported, hbody] at haliased
      exact absurd haliased Bool.false_ne_true
  | target aliasName equals first rest =>
      have htarget := D.targetIn_reported hbody
      have halias : (reported text o).aliasName = some aliasName.text := by
        rw [hreported, hbody]
        rfl
      have hspelled : (reported text o).name.toList = spelled D.named := by
        rw [hreported, String.toList_ofList]
      rw [htarget] at hname hbrackets hplain ⊢
      have L := D.lexedRow_named
      obtain ⟨E⟩ := exists_nameEnd hname L.signs
      have hrow : lastRow D.named = E.row := E.lastRow_eq L.signs
      rw [hrow] at hplain ⊢
      have hshape : (reported text o).targetShape? text =
          some (.ofSegment aliasName.text E.word.text) := by
        rw [Directive.targetShape?, halias, htarget, E.lastIdentifier_eq]
      rw [hshape, Directive.shape_eq_ofSegment halias, Option.some.injEq, Shape.ofSegment_inj,
        E.terminalName_eq L hbrackets hplain hspelled, eq_comm, E.trim_row_eq_iff L]

/-- The line break behind the comment keeps its colon apart from the separator. -/
theorem shape_behind_colon_comment :
    (⟨"using C = A//:\n<B<D>>::\tC;", "A//:\n<B<D>>::\tC", 0, 0, some "C", []⟩ : Directive) ∈
        scan "using C = A//:\n<B<D>>::\tC;" ∧
      (⟨"using C = A//:\n<B<D>>::\tC;", "A//:\n<B<D>>::\tC", 0, 0, some "C", []⟩ :
        Directive).targetShape? "using C = A//:\n<B<D>>::\tC;" = some (.plainAliased "C") := by
  have hmem : (⟨"using C = A//:\n<B<D>>::\tC;", "A//:\n<B<D>>::\tC", 0, 0, some "C", []⟩ :
      Directive) ∈ scan "using C = A//:\n<B<D>>::\tC;" := by
    decide +kernel
  refine ⟨hmem, ?_⟩
  exact (shape_eq_targetShape_iff hmem rfl (isName_of_nameLength (by decide +kernel))
    (by decide +kernel) (by decide +kernel)).2 (by decide +kernel)

/-- The comment beside the last identifier becomes part of the terminal name. -/
theorem not_shape_eq_targetShape_beside_comment :
    ¬ ∀ d ∈ scan "using File = System.IO./* x */File;", d.isAliased = true →
      IsName (withoutTrivia (d.targetIn "using File = System.IO./* x */File;")) →
        d.targetShape? "using File = System.IO./* x */File;" = some d.shape := by
  intro hall
  have hshape := hall ⟨"using File = System.IO./* x */File;", "System.IO./* x */File", 0, 0,
    some "File", []⟩ (by decide +kernel) rfl (isName_of_nameLength (by decide +kernel))
  exact absurd hshape (by decide +kernel)

end UsingStyle
