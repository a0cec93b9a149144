import UsingStyle.Proofs.Directive.Derivation
import UsingStyle.Proofs.Directive.Printed

/-! # Trees of printed directives

Whatever the places of its tokens, a printed line derives from the grammar of directives. The tree
is built along the printed name: a name under type arguments is a list of arguments, and a name of a
directive is an identifier with segments.
-/

namespace UsingStyle

open Grammar

/-! ## Tokens of a layout -/

/-- What a token looks like, apart from its place. -/
def Token.look (t : Token) : TokenKind × String :=
  (t.kind, t.text)

/-- What the pieces look like that are no trivia. -/
def Piece.looks (ps : List Piece) : List (TokenKind × String) :=
  (ps.filter fun a => !a.kind.isTrivia).map fun a => (a.kind, String.ofList a.text)

/-- The tokens of a list that are no trivia. -/
def withoutTrivia (ts : List Token) : List Token :=
  ts.filter fun t => !t.isTrivia

theorem Piece.looks_append (ps qs : List Piece) :
    Piece.looks (ps ++ qs) = Piece.looks ps ++ Piece.looks qs := by
  rw [looks, List.filter_append, List.map_append]
  rfl

theorem Piece.looks_cons {a : Piece} (h : a.kind.isTrivia = false) (ps : List Piece) :
    Piece.looks (a :: ps) = (a.kind, String.ofList a.text) :: Piece.looks ps := by
  simp [looks, h]

theorem Piece.looks_cons_trivia {a : Piece} (h : a.kind.isTrivia = true) (ps : List Piece) :
    Piece.looks (a :: ps) = Piece.looks ps := by
  simp [looks, h]

theorem Identifier.looks_cons (w : Identifier) (ps : List Piece) :
    Piece.looks (w.piece :: ps) = (.identifier, w.text) :: Piece.looks ps := by
  rw [Piece.looks_cons rfl]
  simp only [Identifier.piece, Piece.word, String.ofList_toList]

theorem Separator.looks_cons (s : Separator) (ps : List Piece) :
    Piece.looks (s.piece :: ps) = (.punctuation, s.text) :: Piece.looks ps := by
  rw [Piece.looks_cons rfl]
  simp only [Separator.piece, Piece.symbol, String.ofList_toList]

theorem looks_commaPieces (spaced : Bool) (ps : List Piece) :
    Piece.looks (commaPieces spaced ++ ps) = (.punctuation, ",") :: Piece.looks ps := by
  cases spaced <;> rfl

theorem map_look_tokens (p : Position) (ps : List Piece) :
    (withoutTrivia (Piece.tokens p ps)).map Token.look = Piece.looks ps := by
  unfold withoutTrivia
  induction ps generalizing p with
  | nil => rfl
  | cons a ps ih =>
      rw [Piece.tokens]
      cases h : a.kind.isTrivia with
      | true =>
          rw [Piece.looks_cons_trivia h, ← ih (p.advance a.text)]
          simp [Token.isTrivia, h]
      | false =>
          rw [Piece.looks_cons h, ← ih (p.advance a.text)]
          simp [Token.isTrivia, Token.look, h]

/-! ## Trees of printed names -/

theorem plain_of_look {t : Token} {w : Identifier} (h : t.look = (.identifier, w.text)) :
    t.text ≠ "<" ∧ t.text ≠ ">" ∧ Clause.breaksScope t = false := by
  have htext : t.text = w.text := congrArg Prod.snd h
  have hne : ∀ s : String, spellsIdentifier s.toList = false → t.text ≠ s := by
    intro s hs heq
    have hspells := w.spells
    rw [← htext, heq, hs] at hspells
    contradiction
  refine ⟨hne "<" (by decide), hne ">" (by decide), ?_⟩
  simp only [Clause.breaksScope, Bool.or_eq_false_iff, beq_eq_false_iff_ne]
  exact ⟨⟨hne "\x7b" (by decide), hne "\x7d" (by decide)⟩, hne ";" (by decide)⟩

theorem plain_of_text {t : Token} (h : t.text = "." ∨ t.text = "::" ∨ t.text = ",") :
    t.text ≠ "<" ∧ t.text ≠ ">" ∧ Clause.breaksScope t = false := by
  rcases h with h | h | h
  · simp [Clause.breaksScope, h]
  · simp [Clause.breaksScope, h]
  · simp [Clause.breaksScope, h]

theorem Separator.text_of_look {t : Token} {s : Separator}
    (h : t.look = (.punctuation, s.text)) : t.text = "." ∨ t.text = "::" := by
  have htext : t.text = s.text := congrArg Prod.snd h
  cases s with
  | dot => exact .inl htext
  | colons => exact .inr htext

mutual

/-- A printed name can stand in a list of type arguments, before any further ones. -/
theorem QualifiedName.exists_arguments (n : QualifiedName) {ts : List Token}
    (hts : ts.map Token.look = Piece.looks n.pieces) (more : Arguments) (hmore : more.WellFormed) :
    ∃ a : Arguments, a.WellFormed ∧ a.tokens = ts ++ more.tokens := by
  match n with
  | .word w =>
      rw [QualifiedName.pieces, w.looks_cons] at hts
      obtain ⟨t, us, rfl, ht, hus⟩ := List.map_eq_cons_iff.1 hts
      cases List.map_eq_nil_iff.1 hus
      exact ⟨.token t more, ⟨plain_of_look ht, hmore⟩, rfl⟩
  | .member qualifier separator w =>
      rw [QualifiedName.pieces, Piece.looks_append, separator.looks_cons, w.looks_cons] at hts
      obtain ⟨us, vs, rfl, hus, hvs⟩ := List.map_eq_append_iff.1 hts
      obtain ⟨s, vs, rfl, hs, hvs⟩ := List.map_eq_cons_iff.1 hvs
      obtain ⟨t, vs, rfl, ht, hvs⟩ := List.map_eq_cons_iff.1 hvs
      cases List.map_eq_nil_iff.1 hvs
      have hseparator := plain_of_text ((Separator.text_of_look hs).imp_right .inl)
      have hbehind : (Arguments.token s (.token t more)).WellFormed :=
        ⟨hseparator, plain_of_look ht, hmore⟩
      obtain ⟨a, ha, htokens⟩ := qualifier.exists_arguments hus _ hbehind
      exact ⟨a, ha, by rw [htokens]; simp [Arguments.tokens]⟩
  | .generic base spaced arguments =>
      rw [QualifiedName.pieces, Piece.looks_append, Piece.looks_cons rfl,
        Piece.looks_append] at hts
      obtain ⟨us, vs, rfl, hus, hvs⟩ := List.map_eq_append_iff.1 hts
      obtain ⟨opening, vs, rfl, hopen, hvs⟩ := List.map_eq_cons_iff.1 hvs
      obtain ⟨inner, vs, rfl, hinner, hvs⟩ := List.map_eq_append_iff.1 hvs
      obtain ⟨closing, vs, rfl, hclose, hvs⟩ := List.map_eq_cons_iff.1 hvs
      cases List.map_eq_nil_iff.1 hvs
      obtain ⟨list, hlist, hlistTokens⟩ := exists_arguments_of_list arguments hinner
      have hbehind : (Arguments.nested opening list closing more).WellFormed :=
        ⟨congrArg Prod.snd hopen, hlist, congrArg Prod.snd hclose, hmore⟩
      obtain ⟨a, ha, htokens⟩ := base.exists_arguments hus _ hbehind
      exact ⟨a, ha, by rw [htokens]; simp [Arguments.tokens, hlistTokens]⟩

theorem exists_arguments_of_list (ns : List QualifiedName) {spaced : Bool} {ts : List Token}
    (hts : ts.map Token.look = Piece.looks (argumentPieces ns spaced)) :
    ∃ a : Arguments, a.WellFormed ∧ a.tokens = ts := by
  match ns with
  | [] =>
      rw [argumentPieces] at hts
      cases List.map_eq_nil_iff.1 hts
      exact ⟨.nil, trivial, rfl⟩
  | [n] =>
      rw [argumentPieces] at hts
      obtain ⟨a, ha, htokens⟩ := n.exists_arguments hts .nil trivial
      exact ⟨a, ha, by rw [htokens]; simp [Arguments.tokens]⟩
  | n :: m :: ns =>
      rw [argumentPieces, Piece.looks_append, looks_commaPieces] at hts
      obtain ⟨us, vs, rfl, hus, hvs⟩ := List.map_eq_append_iff.1 hts
      obtain ⟨s, vs, rfl, hs, hvs⟩ := List.map_eq_cons_iff.1 hvs
      obtain ⟨list, hlist, hlistTokens⟩ := exists_arguments_of_list (m :: ns) hvs
      have hcomma := plain_of_text (t := s) (.inr (.inr (congrArg Prod.snd hs)))
      obtain ⟨a, ha, htokens⟩ := n.exists_arguments hus (.token s list) ⟨hcomma, hlist⟩
      exact ⟨a, ha, by rw [htokens]; simp [Arguments.tokens, hlistTokens]⟩

end

/-- A printed name is an identifier with segments, before any further ones. -/
theorem QualifiedName.exists_segments (n : QualifiedName) {ts : List Token}
    (hts : ts.map Token.look = Piece.looks n.pieces) (more : Segments) (hmore : more.WellFormed) :
    ∃ (first : Token) (s : Segments), first.look = (.identifier, n.head.text) ∧ s.WellFormed ∧
      first :: s.tokens = ts ++ more.tokens := by
  match n with
  | .word w =>
      rw [pieces, w.looks_cons] at hts
      obtain ⟨t, us, rfl, ht, hus⟩ := List.map_eq_cons_iff.1 hts
      cases List.map_eq_nil_iff.1 hus
      exact ⟨t, more, ht, hmore, rfl⟩
  | .member qualifier separator w =>
      rw [pieces, Piece.looks_append, separator.looks_cons, w.looks_cons] at hts
      obtain ⟨us, vs, rfl, hus, hvs⟩ := List.map_eq_append_iff.1 hts
      obtain ⟨s, vs, rfl, hs, hvs⟩ := List.map_eq_cons_iff.1 hvs
      obtain ⟨t, vs, rfl, ht, hvs⟩ := List.map_eq_cons_iff.1 hvs
      cases List.map_eq_nil_iff.1 hvs
      have hseparator : Clause.separatesSegments s = true := by
        rcases Separator.text_of_look hs with h | h
        · simp [Clause.separatesSegments, h]
        · simp [Clause.separatesSegments, h]
      have hbehind : (Segments.segment s t more).WellFormed :=
        ⟨hseparator, congrArg Prod.fst ht, hmore⟩
      obtain ⟨first, r, hfirst, hr, htokens⟩ := qualifier.exists_segments hus _ hbehind
      exact ⟨first, r, hfirst, hr, by rw [htokens]; simp [Segments.tokens]⟩
  | .generic base spaced arguments =>
      rw [pieces, Piece.looks_append, Piece.looks_cons rfl, Piece.looks_append] at hts
      obtain ⟨us, vs, rfl, hus, hvs⟩ := List.map_eq_append_iff.1 hts
      obtain ⟨opening, vs, rfl, hopen, hvs⟩ := List.map_eq_cons_iff.1 hvs
      obtain ⟨inner, vs, rfl, hinner, hvs⟩ := List.map_eq_append_iff.1 hvs
      obtain ⟨closing, vs, rfl, hclose, hvs⟩ := List.map_eq_cons_iff.1 hvs
      cases List.map_eq_nil_iff.1 hvs
      obtain ⟨list, hlist, hlistTokens⟩ := exists_arguments_of_list arguments hinner
      have hbehind : (Segments.arguments opening list closing more).WellFormed :=
        ⟨congrArg Prod.snd hopen, hlist, congrArg Prod.snd hclose, hmore⟩
      obtain ⟨first, r, hfirst, hr, htokens⟩ := base.exists_segments hus _ hbehind
      exact ⟨first, r, hfirst, hr, by rw [htokens]; simp [Segments.tokens, hlistTokens]⟩

/-! ## Trees of printed lines -/

theorem exists_optionalWord {present : Bool} {w : Identifier} {ts : List Token}
    (hts : ts.map Token.look = Piece.looks (optionalWord present w)) :
    ∃ o : Option Token, ts = o.toList ∧ (∀ t ∈ o, t.look = (.identifier, w.text)) ∧
      (o = none → present = false) := by
  cases present with
  | false =>
      cases List.map_eq_nil_iff.1 hts
      exact ⟨none, rfl, by simp, fun _ => rfl⟩
  | true =>
      rw [optionalWord, if_pos rfl, w.looks_cons] at hts
      obtain ⟨t, us, rfl, ht, hus⟩ := List.map_eq_cons_iff.1 hts
      cases List.map_eq_nil_iff.1 hus
      exact ⟨some t, rfl, by simpa using ht, by simp⟩

theorem exists_body {l : Line} {as ns : List Token}
    (has : as.map Token.look = Piece.looks (aliasPieces l.aliasName))
    (hns : ns.map Token.look = Piece.looks l.name.pieces) :
    ∃ b : Body, b.WellFormed ∧ b.tokens = as ++ ns ∧ b.named = ns ∧
      b.aliasName? = l.aliasName.map Identifier.text ∧
      b.head.text = (l.aliasName.getD l.name.head).text := by
  cases halias : l.aliasName with
  | none =>
      rw [halias] at has
      cases List.map_eq_nil_iff.1 has
      obtain ⟨first, s, hfirst, hs, htokens⟩ := l.name.exists_segments hns .nil trivial
      rw [Segments.tokens, List.append_nil] at htokens
      refine ⟨.name first s, ⟨congrArg Prod.fst hfirst, hs⟩, ?_, htokens, rfl, ?_⟩
      · exact htokens
      · exact congrArg Prod.snd hfirst
  | some a =>
      rw [halias, aliasPieces, Option.elim_some, a.looks_cons] at has
      obtain ⟨x, us, rfl, hx, hus⟩ := List.map_eq_cons_iff.1 has
      obtain ⟨equals, us, rfl, hequals, hus⟩ := List.map_eq_cons_iff.1 hus
      cases List.map_eq_nil_iff.1 hus
      -- any tokens may be the target of an alias as long as none of them ends the directive
      obtain ⟨target, htarget, htokens⟩ := l.name.exists_arguments hns .nil trivial
      rw [Arguments.tokens, List.append_nil] at htokens
      obtain ⟨pieces, hpieces⟩ := l.name.pieces_eq_cons
      rw [hpieces, l.name.head.looks_cons] at hns
      obtain ⟨first, rest, rfl, hfirst, hrest⟩ := List.map_eq_cons_iff.1 hns
      have hfree : ∀ t ∈ first :: rest, Clause.breaksScope t = false := by
        intro t ht
        rw [← htokens] at ht
        exact Arguments.breaksScope_tokens htarget ht
      refine ⟨.target x equals first rest, ?_, rfl, rfl, ?_, ?_⟩
      · exact ⟨congrArg Prod.fst hx, congrArg Prod.snd hequals, hfree⟩
      · exact congrArg some (congrArg Prod.snd hx)
      · exact congrArg Prod.snd hx

theorem Line.exists_phrase (l : Line) {fs ns : List Token} {semicolon : Token}
    (hfs : fs.map Token.look = Piece.looks l.front)
    (hns : ns.map Token.look = Piece.looks l.name.pieces) (hsemi : semicolon.text = ";") :
    ∃ p : Phrase, p.WellFormed ∧ p.front = fs ++ ns ∧ p.semicolon = semicolon ∧
      p.body.named = ns ∧ p.body.aliasName? = l.aliasName.map Identifier.text := by
  rw [Line.front, Piece.looks_append, Piece.looks_append, Piece.looks_append] at hfs
  obtain ⟨gs, us, rfl, hgs, hus⟩ := List.map_eq_append_iff.1 hfs
  obtain ⟨vs, ws, rfl, hvs, hws⟩ := List.map_eq_append_iff.1 hus
  obtain ⟨ss, as, rfl, hss, has⟩ := List.map_eq_append_iff.1 hws
  obtain ⟨globalWord, rfl, hglobal, _⟩ := exists_optionalWord hgs
  obtain ⟨staticWord, rfl, hstatic, hnone⟩ := exists_optionalWord hss
  obtain ⟨usingWord, rest, rfl, husing, hrest⟩ := List.map_eq_cons_iff.1 hvs
  cases List.map_eq_nil_iff.1 hrest
  obtain ⟨b, hb, htokens, hnamed, halias, hhead⟩ := exists_body has hns
  refine ⟨⟨globalWord, usingWord, staticWord, b, semicolon⟩, ?_, ?_, rfl, hnamed, halias⟩
  · constructor
    · intro t ht
      have hlook := hglobal t ht
      have hkind : t.kind = .identifier := congrArg Prod.fst hlook
      have htext : t.text = "global" := congrArg Prod.snd hlook
      simp [Token.isIdentifier, hkind, htext]
    · exact congrArg Prod.snd husing
    · intro _
      exact congrArg Prod.fst husing
    · intro t ht
      exact congrArg Prod.snd (hstatic t ht)
    · intro hstaticWord
      rw [hhead]
      exact l.not_static (hnone hstaticWord)
    · exact hb
    · exact hsemi
  · simp [Phrase.front, htokens]

end UsingStyle
