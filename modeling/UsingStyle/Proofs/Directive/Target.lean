import UsingStyle.Proofs.Directive.Extent
import UsingStyle.Proofs.Token.Contents
import Mathlib.Data.List.DropRight

/-! # Targets of aliases

The target of an alias is the row of tokens between `=` and the semicolon. If its meaningful tokens
are a qualified name, then outside all type argument lists it is a row of identifiers and separators
in turn, so it ends with an identifier.
-/

namespace UsingStyle

open Grammar

/-! ## Signs -/

/-- The signs of a target. -/
def signs : List String :=
  ["=", "<", ">", ".", "::"]

/-- Whatever is written like a sign is neither trivia nor a word. -/
def SignsStandOut (ts : List Token) : Prop :=
  ∀ t ∈ ts, t.text ∈ signs → t.isTrivia = false ∧ t.kind ≠ .identifier

theorem signsStandOut_tokensFrom (p : Position) (fresh : Bool) (cs : List Char) :
    SignsStandOut (tokensFrom p fresh cs) := by
  intro t ht hsign
  have hfirst : ∀ c ∈ t.text.toList.head?, c ≠ '@' ∧ c ≠ '/' ∧ c ≠ '#' ∧
      Text.isWordStart c = false ∧ Text.isBlank c = false := by
    have hall : signs.all (fun s => s.toList.head?.all fun c => c != '@' && (c != '/' &&
        (c != '#' && (!Text.isWordStart c && !Text.isBlank c)))) = true := by
      decide +kernel
    intro c hc
    simpa using (Option.all_eq_true _ _).1 (List.all_eq_true.1 hall _ hsign) c hc
  constructor
  · rw [Bool.eq_false_iff]
    intro htrivia
    obtain ⟨c, word, htext, hc⟩ := first_of_trivia ht htrivia
    have hne := hfirst c (by rw [htext]; rfl)
    split at hc
    · exact hc.elim hne.2.1 hne.2.2.1
    · rw [hc] at hne
      exact absurd hne.2.2.2.2 (by decide)
  · intro hkind
    obtain ⟨c, word, htext, hc⟩ := first_of_identifier ht hkind
    have hne := hfirst c (by rw [htext]; rfl)
    rcases hc with hc | hc
    · exact hne.1 hc
    · rw [hc] at hne
      exact absurd hne.2.2.2.1 (by decide)

theorem SignsStandOut.mono {ts us : List Token} (h : SignsStandOut us) (hts : ∀ t ∈ ts, t ∈ us) :
    SignsStandOut ts :=
  fun t ht => h t (hts t ht)

theorem SignsStandOut.tail {t : Token} {ts : List Token} (h : SignsStandOut (t :: ts)) :
    SignsStandOut ts :=
  h.mono fun _ hu => List.mem_cons_of_mem t hu

theorem SignsStandOut.ne_bracket {ts : List Token} {t : Token} (h : SignsStandOut ts) (ht : t ∈ ts)
    (hkind : t.isTrivia = true ∨ t.kind = .identifier) : t.text ≠ "<" ∧ t.text ≠ ">" := by
  have hsign : t.text ∉ signs := by
    intro hmem
    have hmeaning := h t ht hmem
    rcases hkind with htrivia | hword
    · rw [htrivia] at hmeaning
      exact Bool.noConfusion hmeaning.1
    · exact hmeaning.2 hword
  constructor
  · intro htext
    exact hsign (by simp [signs, htext])
  · intro htext
    exact hsign (by simp [signs, htext])

theorem text_mem_signs_of_separates {t : Token} (h : Clause.separatesSegments t = true) :
    t.text ∈ signs := by
  simp only [Clause.separatesSegments, Bool.or_eq_true, beq_iff_eq] at h
  rcases h with h | h <;> simp [signs, h]

/-! ## The target of a directive -/

namespace Directive

/-- The tokens of the directive, trivia included. -/
def tokensIn (text : String) (d : Directive) : List Token :=
  (textTokens text).filter fun t => d.offsetIn text ≤ t.start.offset && t.stop ≤ d.stopIn text

/-- The tokens behind `=`, without the semicolon and the trivia at either end. -/
def targetIn (text : String) (d : Directive) : List Token :=
  (((d.tokensIn text).dropWhile fun t => t.text != "=").tail.dropWhile Token.isTrivia).rdropWhile
    fun t => t.isTrivia || t.text == ";"

end Directive

namespace Dissection

variable {text : String} {o : Occurrence}

theorem tokensIn_reported (D : Dissection text o) : (reported text o).tokensIn text = D.whole := by
  unfold Directive.tokensIn
  rw [D.textTokens_eq, List.filter_append, List.filter_append, List.filter_eq_nil_iff.2,
    List.filter_eq_self.2, List.filter_eq_nil_iff.2, List.nil_append, List.append_nil]
  · intro t ht
    have hstart := D.stopIn_le_start ht
    have hlt := D.tiling_behind.start_lt_stop ht
    simp only [Bool.and_eq_true, decide_eq_true_eq]
    omega
  · intro t ht
    simpa using D.bounds_of_mem_whole ht
  · intro t ht
    have hlt := D.tiling.append_left.start_lt_stop ht
    have hstop := D.stop_le_offsetIn ht
    simp only [Bool.and_eq_true, decide_eq_true_eq]
    omega

theorem mem_textTokens_of_whole (D : Dissection text o) {t : Token} (ht : t ∈ D.whole) :
    t ∈ textTokens text := by
  rw [D.textTokens_eq]
  simp [ht]

theorem signsStandOut_whole (D : Dissection text o) : SignsStandOut D.whole :=
  (signsStandOut_tokensFrom _ _ _).mono fun _ ht => D.mem_textTokens_of_whole ht

/-- Only the sign `=` of an alias is written so among the tokens in front of its target. -/
theorem exists_opening_split (D : Dissection text o) {aliasName equals first : Token}
    {rest : List Token} (hbody : D.phrase.body = .target aliasName equals first rest) :
    ∃ us vs, D.opening = us ++ equals :: vs ∧ (∀ t ∈ us, t.text ≠ "=") ∧
      ∀ t ∈ vs, t.isTrivia = true := by
  have hwell := D.wellFormed
  have hopening : withoutTrivia D.opening =
      (D.phrase.globalWord.toList ++ D.phrase.usingWord :: (D.phrase.staticWord.toList ++
        [aliasName])) ++ equals :: [] := by
    rw [D.opening_eq, Phrase.opening, hbody]
    simp [Body.opening]
  obtain ⟨us, vs, hsplit, _, hus, hvs⟩ := exists_split_of_withoutTrivia hopening
  refine ⟨us, vs, hsplit, ?_, isTrivia_of_withoutTrivia_eq_nil hvs⟩
  have hwhole : ∀ t ∈ us, t ∈ D.whole := fun t ht => by simp [whole, hsplit, ht]
  intro t ht heq
  have hsign := D.signsStandOut_whole t (hwhole t ht) (by simp [signs, heq])
  have hmem : t ∈ withoutTrivia us := List.mem_filter.2 ⟨ht, by simp [hsign.1]⟩
  rw [hus] at hmem
  simp only [List.mem_append, List.mem_cons, Option.mem_toList, List.not_mem_nil, or_false] at hmem
  rcases hmem with hglobal | husing | hstatic | halias
  · have hword := hwell.globalWord t hglobal
    simp [Token.isIdentifier, heq] at hword
  · rw [husing, hwell.usingWord] at heq
    contradiction
  · rw [hwell.staticWord t hstatic] at heq
    contradiction
  · have hkind := hwell.body
    rw [hbody] at hkind
    exact hsign.2 (halias ▸ hkind.1)

theorem targetIn_reported (D : Dissection text o) {aliasName equals first : Token}
    {rest : List Token} (hbody : D.phrase.body = .target aliasName equals first rest) :
    (reported text o).targetIn text = D.named := by
  obtain ⟨us, vs, hopening, hus, hvs⟩ := D.exists_opening_split hbody
  have hwell := D.wellFormed.body
  rw [hbody] at hwell
  have hnamed : withoutTrivia D.named = first :: rest := by
    rw [D.named_eq, hbody]
    rfl
  have hmeaningful : ∀ t ∈ first :: rest, t.isTrivia = false := by
    intro t ht
    rw [← hnamed] at ht
    exact isTrivia_of_mem_withoutTrivia ht
  have hhead : ∀ t ∈ (D.named ++ (D.gap ++ [D.phrase.semicolon])).head?, t.isTrivia = false := by
    intro t ht
    have hfirst : D.named.head? = some first := by
      rw [D.head_named, hbody]
      rfl
    rw [List.head?_append, hfirst] at ht
    cases ht
    exact hmeaningful first List.mem_cons_self
  have hlast : ∀ t ∈ D.named.reverse.head?, (t.isTrivia || t.text == ";") = false := by
    intro t ht
    rw [List.head?_reverse, D.last_named, hbody] at ht
    have hmem : t ∈ first :: rest := List.mem_of_getLast? ht
    have hbreak := hwell.2.2 t hmem
    simp only [Clause.breaksScope, Bool.or_eq_false_iff] at hbreak
    rw [hmeaningful t hmem, hbreak.2]
    rfl
  have hback : ∀ t ∈ (D.gap ++ [D.phrase.semicolon]).reverse,
      (t.isTrivia || t.text == ";") = true := by
    intro t ht
    rw [List.mem_reverse, List.mem_append, List.mem_singleton] at ht
    rcases ht with hgap | rfl
    · rw [D.gap_trivia t hgap]
      rfl
    · simp [D.wellFormed.semicolon]
  have hequals : (equals.text != "=") = false := by simp [hwell.2.1]
  unfold Directive.targetIn
  rw [D.tokensIn_reported, whole, hopening, List.append_assoc,
    List.dropWhile_append_of_pos (fun t ht => by simpa using hus t ht), List.cons_append,
    List.dropWhile_cons, hequals, if_neg Bool.false_ne_true, List.tail_cons,
    List.dropWhile_append_of_pos hvs, Text.dropWhile_of_head? hhead, List.rdropWhile,
    List.reverse_append, List.dropWhile_append_of_pos hback, Text.dropWhile_of_head? hlast,
    List.reverse_reverse]

end Dissection

/-! ## Outside the type arguments -/

/-- The tokens outside all `<…>`, given how many lists are open. -/
def outerTokens : (depth : Nat) → List Token → List Token
  | _, [] => []
  | depth, t :: ts =>
    if t.text == "<" then outerTokens (depth + 1) ts
    else if t.text == ">" then outerTokens (depth - 1) ts
    else if depth == 0 then t :: outerTokens depth ts
    else outerTokens depth ts

section Outer

variable {t : Token} (ts : List Token)

theorem outerTokens_open (h : t.text = "<") (depth : Nat) :
    outerTokens depth (t :: ts) = outerTokens (depth + 1) ts := by
  simp [outerTokens, h]

theorem outerTokens_close (h : t.text = ">") (depth : Nat) :
    outerTokens (depth + 1) (t :: ts) = outerTokens depth ts := by
  simp [outerTokens, h]

theorem outerTokens_plain (hopen : t.text ≠ "<") (hclose : t.text ≠ ">") :
    outerTokens 0 (t :: ts) = t :: outerTokens 0 ts := by
  simp [outerTokens, hopen, hclose]

theorem outerTokens_inside (hopen : t.text ≠ "<") (hclose : t.text ≠ ">") (depth : Nat) :
    outerTokens (depth + 1) (t :: ts) = outerTokens (depth + 1) ts := by
  simp [outerTokens, hopen, hclose]

end Outer

theorem outerTokens_sublist (depth : Nat) (ts : List Token) :
    (outerTokens depth ts).Sublist ts := by
  fun_induction outerTokens depth ts with
  | case1 => exact .slnil
  | case2 depth t ts _ ih => exact ih.cons t
  | case3 depth t ts _ _ ih => exact ih.cons t
  | case4 depth t ts _ _ _ ih => exact ih.cons_cons t
  | case5 depth t ts _ _ _ ih => exact ih.cons t

/-- No trivia are brackets. -/
theorem withoutTrivia_outerTokens {ts : List Token} (h : SignsStandOut ts) (depth : Nat) :
    withoutTrivia (outerTokens depth ts) = outerTokens depth (withoutTrivia ts) := by
  fun_induction outerTokens depth ts with
  | case1 => rfl
  | case2 depth t ts hopen ih =>
      rw [beq_iff_eq] at hopen
      have ht := (h t List.mem_cons_self (by simp [signs, hopen])).1
      rw [withoutTrivia_cons ht, outerTokens_open _ hopen]
      exact ih h.tail
  | case3 depth t ts hopen hclose ih =>
      rw [beq_iff_eq] at hclose
      have ht := (h t List.mem_cons_self (by simp [signs, hclose])).1
      rw [withoutTrivia_cons ht, outerTokens, if_neg hopen, if_pos (beq_iff_eq.2 hclose)]
      exact ih h.tail
  | case4 depth t ts hopen hclose hdepth ih =>
      have hrest := ih h.tail
      rw [beq_iff_eq] at hdepth
      subst hdepth
      cases ht : t.isTrivia with
      | true => simpa [withoutTrivia, ht] using hrest
      | false =>
          rw [withoutTrivia_cons ht, withoutTrivia_cons ht, hrest,
            outerTokens_plain _ (by simpa using hopen) (by simpa using hclose)]
  | case5 depth t ts hopen hclose hdepth ih =>
      have hrest := ih h.tail
      cases ht : t.isTrivia with
      | true => simpa [withoutTrivia, ht] using hrest
      | false =>
          rw [withoutTrivia_cons ht, hrest, outerTokens, if_neg hopen, if_neg hclose,
            if_neg hdepth]

namespace Grammar

theorem Arguments.outerTokens_append {a : Arguments} (h : a.WellFormed) (depth : Nat)
    (ts : List Token) : outerTokens (depth + 1) (a.tokens ++ ts) = outerTokens (depth + 1) ts := by
  induction a generalizing depth ts with
  | nil => rfl
  | token t rest ih =>
      rw [tokens, List.cons_append, outerTokens_inside _ h.1.1 h.1.2.1, ih h.2]
  | nested opening inner closing rest ihInner ihRest =>
      rw [tokens, List.cons_append, List.append_assoc, List.cons_append, outerTokens_open _ h.1,
        ihInner h.2.1, outerTokens_close _ h.2.2.1, ihRest h.2.2.2]

/-- The separators and identifiers of the segments. -/
def Segments.outer : Segments → List Token
  | nil => []
  | segment separator name rest => separator :: name :: rest.outer
  | arguments _ _ _ rest => rest.outer

theorem Segments.outerTokens_tokens {s : Segments} (h : s.WellFormed)
    (hsigns : SignsStandOut s.tokens) : outerTokens 0 s.tokens = s.outer := by
  induction s with
  | nil => rfl
  | segment separator name rest ih =>
      have hseparator : separator.text ≠ "<" ∧ separator.text ≠ ">" := by
        constructor
        · exact (text_ne_of_separatesSegments h.1).1
        · intro htext
          have hseparates := h.1
          simp [Clause.separatesSegments, htext] at hseparates
      have hname := hsigns.ne_bracket (t := name) (by simp [tokens]) (.inr h.2.1)
      rw [tokens, outerTokens_plain _ hseparator.1 hseparator.2,
        outerTokens_plain _ hname.1 hname.2, outer]
      rw [ih h.2.2 (hsigns.mono fun t ht => by simp [tokens, ht])]
  | arguments opening inner closing rest ih =>
      rw [tokens, outerTokens_open _ h.1, Arguments.outerTokens_append h.2.1,
        outerTokens_close _ h.2.2.1, outer]
      exact ih h.2.2.2 (hsigns.mono fun t ht => by simp [tokens, ht])

/-- Identifiers and separators in turn end with an identifier. -/
theorem Segments.exists_last {s : Segments} (h : s.WellFormed) {first : Token}
    (hfirst : first.kind = .identifier) :
    ∃ front last, first :: s.outer = front ++ [last] ∧ last.kind = .identifier ∧
      (front = [] ∨ ∃ more prior separator, front = more ++ [prior, separator] ∧
        prior.kind = .identifier ∧ Clause.separatesSegments separator = true) := by
  induction s generalizing first with
  | nil => exact ⟨[], first, rfl, hfirst, .inl rfl⟩
  | segment separator name rest ih =>
      obtain ⟨front, last, hsplit, hlast, hfront⟩ := ih h.2.2 h.2.1
      refine ⟨first :: separator :: front, last, by rw [outer, hsplit]; rfl, hlast, .inr ?_⟩
      rcases hfront with hnil | hcons
      · exact ⟨[], first, separator, by rw [hnil]; rfl, hfirst, h.1⟩
      · obtain ⟨more, prior, next, hmore, hprior, hnext⟩ := hcons
        exact ⟨first :: separator :: more, prior, next, by rw [hmore]; rfl, hprior, hnext⟩
  | arguments opening inner closing rest ih => exact ih h.2.2.2 hfirst

/-- An identifier with segments and type argument lists behind it. -/
def IsName (ts : List Token) : Prop :=
  ∃ (first : Token) (segments : Segments), first.kind = .identifier ∧ segments.WellFormed ∧
    ts = first :: segments.tokens

theorem isName_of_nameLength {ts : List Token} (h : Clause.nameLength ts = some ts.length) :
    IsName ts := by
  unfold Clause.nameLength at h
  split at h
  · rename_i hfirst
    cases ts with
    | nil => contradiction
    | cons first ts =>
        obtain ⟨n, hn, hlength⟩ := Option.map_eq_some_iff.1 h
        obtain ⟨segments, rest, hsegments, hts, hsize⟩ := exists_segments_of_nameRest hn
        have hrest : rest = [] := by
          have htotal := congrArg List.length hts
          rw [List.drop_one, List.tail_cons, List.length_append] at htotal
          rw [List.length_cons] at hlength
          exact List.eq_nil_of_length_eq_zero (by omega)
        rw [hrest, List.append_nil] at hts
        exact ⟨first, segments, beq_iff_eq.1 hfirst, hsegments, congrArg (first :: ·) hts⟩
  · contradiction

end Grammar

/-! ## The end of a name -/

/-- The last identifier outside all type arguments. -/
def lastIdentifier (ts : List Token) : Option Token :=
  ((outerTokens 0 ts).filter fun t => t.kind == .identifier).getLast?

/-- The tokens outside all type arguments that follow the last separator. -/
def lastRow (ts : List Token) : List Token :=
  (outerTokens 0 ts).rtakeWhile fun t => !Clause.separatesSegments t

/-- The tokens outside all type arguments, cut at the last separator and at the identifiers around
it. -/
structure NameEnd (ts : List Token) where
  before : List Token
  leading : List Token
  word : Token
  trailing : List Token
  outer_eq : outerTokens 0 ts = before ++ (leading ++ word :: trailing)
  leading_trivia : ∀ t ∈ leading, t.isTrivia = true
  trailing_trivia : ∀ t ∈ trailing, t.isTrivia = true
  kind_eq : word.kind = .identifier
  before_eq : before = [] ∨ ∃ more prior between separator,
    before = more ++ prior :: (between ++ [separator]) ∧ prior.kind = .identifier ∧
      (∀ t ∈ between, t.isTrivia = true) ∧ Clause.separatesSegments separator = true

theorem exists_nameEnd {ts : List Token} (hname : IsName (withoutTrivia ts))
    (hsigns : SignsStandOut ts) : Nonempty (NameEnd ts) := by
  obtain ⟨first, segments, hfirst, hsegments, hts⟩ := hname
  have hmeaningful : SignsStandOut (first :: segments.tokens) :=
    hts ▸ hsigns.mono fun t ht => (List.mem_filter.1 ht).1
  have hbracket := hmeaningful.ne_bracket List.mem_cons_self (.inr hfirst)
  have houter : withoutTrivia (outerTokens 0 ts) = first :: segments.outer := by
    rw [withoutTrivia_outerTokens hsigns, hts, outerTokens_plain _ hbracket.1 hbracket.2,
      segments.outerTokens_tokens hsegments hmeaningful.tail]
  obtain ⟨front, last, hsplit, hlast, hfront⟩ := segments.exists_last hsegments hfirst
  rw [hsplit] at houter
  rcases hfront with rfl | ⟨more, prior, separator, rfl, hprior, hseparator⟩
  · obtain ⟨us, vs, hcut, _, hus, hvs⟩ := exists_split_of_withoutTrivia houter
    exact
      ⟨{  before := []
          leading := us
          word := last
          trailing := vs
          outer_eq := hcut
          leading_trivia := isTrivia_of_withoutTrivia_eq_nil hus
          trailing_trivia := isTrivia_of_withoutTrivia_eq_nil hvs
          kind_eq := hlast
          before_eq := .inl rfl }⟩
  · have hall : withoutTrivia (outerTokens 0 ts) = more ++ prior :: (separator :: [last]) := by
      simp [houter]
    obtain ⟨us, afterPrior, hcut, _, _, hafterPrior⟩ := exists_split_of_withoutTrivia hall
    obtain ⟨between, afterSeparator, hcut', _, hbetween, hafterSeparator⟩ :=
      exists_split_of_withoutTrivia (hafterPrior.trans (List.nil_append _).symm)
    obtain ⟨leading, trailing, hcut'', _, hleading, htrailing⟩ :=
      exists_split_of_withoutTrivia (hafterSeparator.trans (List.nil_append _).symm)
    exact
      ⟨{  before := us ++ prior :: (between ++ [separator])
          leading := leading
          word := last
          trailing := trailing
          outer_eq := by simp [hcut, hcut', hcut'']
          leading_trivia := isTrivia_of_withoutTrivia_eq_nil hleading
          trailing_trivia := isTrivia_of_withoutTrivia_eq_nil htrailing
          kind_eq := hlast
          before_eq := .inr ⟨us, prior, between, separator, rfl, hprior,
            isTrivia_of_withoutTrivia_eq_nil hbetween, hseparator⟩ }⟩

namespace NameEnd

variable {ts : List Token}

theorem mem_of_mem_row (E : NameEnd ts) {t : Token} (h : t ∈ E.leading ++ E.word :: E.trailing) :
    t ∈ ts := by
  refine (outerTokens_sublist 0 ts).mem ?_
  rw [E.outer_eq]
  exact List.mem_append_right _ h

theorem lastIdentifier_eq (E : NameEnd ts) : lastIdentifier ts = some E.word := by
  have hnone : E.trailing.filter (fun t => t.kind == .identifier) = [] := by
    refine List.filter_eq_nil_iff.2 fun t ht hkind => ?_
    have htrivia := E.trailing_trivia t ht
    rw [Token.isTrivia, beq_iff_eq.1 hkind] at htrivia
    contradiction
  rw [lastIdentifier, E.outer_eq, List.filter_append, List.filter_append, List.filter_cons, hnone]
  simp [E.kind_eq]

theorem lastRow_eq (E : NameEnd ts) (hsigns : SignsStandOut ts) :
    lastRow ts = E.leading ++ E.word :: E.trailing := by
  have hrow : ∀ t ∈ (E.leading ++ E.word :: E.trailing).reverse,
      (!Clause.separatesSegments t) = true := by
    intro t ht
    rw [List.mem_reverse] at ht
    rw [Bool.not_eq_true', Bool.eq_false_iff]
    intro hseparates
    have hsign := hsigns t (E.mem_of_mem_row ht) (text_mem_signs_of_separates hseparates)
    rw [List.mem_append, List.mem_cons] at ht
    rcases ht with hleading | rfl | htrailing
    · rw [E.leading_trivia t hleading] at hsign
      exact absurd hsign.1 (by decide)
    · exact hsign.2 E.kind_eq
    · rw [E.trailing_trivia t htrailing] at hsign
      exact absurd hsign.1 (by decide)
  have hbefore : E.before.reverse.takeWhile (fun t => !Clause.separatesSegments t) = [] := by
    rcases E.before_eq with hnil | ⟨more, prior, between, separator, hcut, _, _, hseparator⟩
    · rw [hnil]
      rfl
    · rw [hcut]
      simp [hseparator]
  rw [lastRow, E.outer_eq, List.rtakeWhile, List.reverse_append, List.takeWhile_append_of_pos hrow,
    hbefore, List.append_nil, List.reverse_reverse]

end NameEnd

end UsingStyle
