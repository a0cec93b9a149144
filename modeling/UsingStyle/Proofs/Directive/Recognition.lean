import UsingStyle.Proofs.Directive.Namespaces
import UsingStyle.Proofs.Directive.Source
import Mathlib.Data.List.Nodup

/-! # Which directives are recognised

A phrase of the grammar is reported wherever every open brace belongs to a namespace, unless it
starts inside a phrase that is reported already. Conversely, every brace open at a reported
directive is marked as the brace of a namespace. A mark is right as long as no directive stands
between the word `namespace` and the brace: its semicolon should end the wait for the brace, and
does not.
-/

namespace UsingStyle

/-! ## The token at which a directive stands -/

/-- Whether the directive is reported at the place of the token with index `k`. -/
def Directive.standsAt (text : String) (d : Directive) (k : Nat) : Bool :=
  (sourceTokens text)[k]?.any d.startsAt

theorem standsAt_iff {text : String} {d : Directive} {k : Nat} :
    d.standsAt text k = true ↔
      ∃ t, (sourceTokens text)[k]? = some t ∧ d.startsAt t = true := by
  unfold Directive.standsAt
  exact Option.any_eq_true _ _

theorem not_lt_of_standsAt {text : String} {d : Directive} {i j : Nat}
    (hi : d.standsAt text i = true) (hj : d.standsAt text j = true) : ¬ i < j := by
  intro hlt
  obtain ⟨t, ht, hdt⟩ := standsAt_iff.1 hi
  obtain ⟨u, hu, hdu⟩ := standsAt_iff.1 hj
  have hbefore := before_of_index_lt ht hu hlt
  rw [startsAt_iff] at hdt hdu
  unfold Position.Before at hbefore
  omega

theorem standsAt_reported_iff {text : String} {o : Occurrence}
    (h : o ∈ occurrences (sourceTokens text)) (k : Nat) :
    (reported text o).standsAt text k = true ↔ o.index = k := by
  obtain ⟨t, ht⟩ := exists_first_token h
  have hfirst := standsAt_iff.2 ⟨t, ht, startsAt_reported ht⟩
  constructor
  · intro hk
    have := not_lt_of_standsAt hfirst hk
    have := not_lt_of_standsAt hk hfirst
    omega
  · rintro rfl
    exact hfirst

theorem exists_occurrence_of_standsAt {text : String} {d : Directive} (hd : d ∈ scan text)
    {k : Nat} (hk : d.standsAt text k = true) :
    ∃ o ∈ occurrences (sourceTokens text), o.index = k := by
  rw [scan_eq_map_reported] at hd
  obtain ⟨o, ho, rfl⟩ := List.mem_map.1 hd
  exact ⟨o, ho, (standsAt_reported_iff ho k).1 hk⟩

theorem exists_standsAt {text : String} {d : Directive} (hd : d ∈ scan text) :
    ∃ k, d.standsAt text k = true := by
  rw [scan_eq_map_reported] at hd
  obtain ⟨o, ho, rfl⟩ := List.mem_map.1 hd
  exact ⟨o.index, (standsAt_reported_iff ho o.index).2 rfl⟩

theorem forall₂_standsAt (text : String) :
    List.Forall₂ (fun d o => d.standsAt text o.index = true) (scan text)
      (occurrences (sourceTokens text)) := by
  rw [scan_eq_map_reported, List.forall₂_map_left_iff, List.forall₂_same]
  intro o ho
  exact (standsAt_reported_iff ho o.index).2 rfl

/-- No two directives stand at one token. -/
theorem countP_standsAt {text : String} {o : Occurrence}
    (h : o ∈ occurrences (sourceTokens text)) :
    (scan text).countP (·.standsAt text o.index) = 1 := by
  have hsame : (scan text).countP (·.standsAt text o.index) =
      ((occurrences (sourceTokens text)).map Occurrence.index).count o.index := by
    rw [scan_eq_map_reported, List.countP_map, List.count, List.countP_map]
    apply List.countP_congr
    intro o' ho'
    simp [standsAt_reported_iff ho']
  have hnodup : ((occurrences (sourceTokens text)).map Occurrence.index).Nodup :=
    List.pairwise_map.2 ((pairwise_index_lt _).imp Nat.ne_of_lt)
  rw [hsame]
  exact List.count_eq_one_of_mem hnodup (List.mem_map_of_mem h)

/-! ## Directives stand in namespaces -/

theorem marked_of_mem_occurrences {ts : List Token} (hwords : WordsBreakNothing ts)
    {o : Occurrence} (h : o ∈ occurrences ts) {b : Nat} (hb : OpenAt ts o.index b) :
    Marked ts b := by
  obtain ⟨s, hat, hc⟩ := exists_visits_of_mem h
  exact (hat.admitsDirective_iff hwords).1 (directiveAt?_eq_some_iff.1 hc).1 b hb

theorem marked_of_standsAt {text : String} {d : Directive} (hd : d ∈ scan text) {k b : Nat}
    (hk : d.standsAt text k = true) (hb : OpenAt (sourceTokens text) k b) :
    Marked (sourceTokens text) b := by
  obtain ⟨o, ho, rfl⟩ := exists_occurrence_of_standsAt hd hk
  exact marked_of_mem_occurrences (wordsBreakNothing_sourceTokens text) ho hb

/-- Every brace open at a directive of the text belongs to a namespace. -/
def ScopeSound (text : String) : Prop :=
  ∀ d ∈ scan text, ∀ k, d.standsAt text k = true → ∀ b, OpenAt (sourceTokens text) k b →
    OpensNamespace (sourceTokens text) b

/-- Every brace open at a directive is marked, and all of these marks are right unless one of the
braces follows a directive. -/
theorem scopeSound_iff_not_followsDirective (text : String) :
    (∀ d ∈ scan text, ∃ k, d.standsAt text k = true ∧
      ∀ b, OpenAt (sourceTokens text) k b → Marked (sourceTokens text) b) ∧
    (ScopeSound text ↔
      ∀ d ∈ scan text, ∀ k, d.standsAt text k = true → ∀ b, OpenAt (sourceTokens text) k b →
        ¬ FollowsDirective (sourceTokens text) b) := by
  have hwords := wordsBreakNothing_sourceTokens text
  constructor
  · intro d hd
    obtain ⟨k, hk⟩ := exists_standsAt hd
    exact ⟨k, hk, fun b hb => marked_of_standsAt hd hk hb⟩
  · constructor
    · intro hsound d hd k hk b hb
      exact not_followsDirective_of_opensNamespace (hsound d hd k hk b hb)
    · intro hnone d hd k hk b hb
      have hmarked := marked_of_standsAt hd hk hb
      exact opensNamespace_of_marked hwords hmarked (hnone d hd k hk b hb)

theorem not_scopeSound_of_directive_before_class :
    ¬ ScopeSound "namespace N using A; class C \x7b using B; \x7d" := by
  intro hsound
  have hfound : ∃ d ∈ scan "namespace N using A; class C \x7b using B; \x7d",
      d.standsAt "namespace N using A; class C \x7b using B; \x7d" 8 = true := by
    decide +kernel
  obtain ⟨d, hd, hk⟩ := hfound
  have hnamespace := hsound d hd 8 hk 7 (by decide +kernel)
  revert hnamespace
  decide +kernel

/-! ## Every phrase is found -/

theorem exists_occurrence_of_phrase {ts : List Token} (hwords : WordsBreakNothing ts) {k : Nat}
    {p : Grammar.Phrase} (hp : p.WellFormed) (hphrase : p.tokens <+: ts.drop k)
    (hopen : ∀ b, OpenAt ts k b → OpensNamespace ts b)
    (houtside : ∀ o ∈ occurrences ts, ¬ (o.index < k ∧ k < o.stop)) :
    ⟨k, p.clause⟩ ∈ occurrences ts := by
  obtain ⟨rest, hrest⟩ := hphrase
  have hlen : k ≤ ts.length := by
    have := congrArg List.length hrest
    rw [List.length_append, p.tokens_eq_front_append, List.length_append, List.length_drop,
      List.length_singleton] at this
    omega
  rcases visits_or_inside ts hlen with ⟨s, hat⟩ | ⟨o, ho, hin⟩
  · have hadmits : s.admitsDirective = true := by
      rw [hat.admitsDirective_iff hwords]
      intro b hb
      exact marked_of_opensNamespace hwords hb.2.1 (hopen b hb)
    apply hat.mem_occurrences
    rw [directiveAt?_eq_some_iff, ← hrest]
    exact ⟨hadmits, Grammar.Phrase.startsDirective_tokens_append hp rest,
      Grammar.Phrase.parse?_tokens_append hp rest⟩
  · exact absurd hin (houtside o ho)

theorem exists_phrase_at_occurrence {ts : List Token} {o : Occurrence} (h : o ∈ occurrences ts) :
    ∃ p : Grammar.Phrase, p.WellFormed ∧ p.tokens <+: ts.drop o.index ∧
      o.stop = o.index + p.tokens.length := by
  obtain ⟨p, rest, hp, hdrop, hclause⟩ := exists_phrase_of_mem h
  refine ⟨p, hp, ⟨rest, hdrop.symm⟩, ?_⟩
  rw [Occurrence.stop, hclause]
  rfl

/-- The runs of tokens of the directives, in order, are phrases, disjoint, and end at their only
brace or semicolon; a phrase in the right scope is missing only if it starts inside of one. -/
theorem scan_finds_every_phrase (text : String) :
    List.Forall₂ (fun d o => d.standsAt text o.index = true) (scan text)
      (occurrences (sourceTokens text)) ∧
    (∀ (k : Nat) (p : Grammar.Phrase), p.WellFormed → p.tokens <+: (sourceTokens text).drop k →
      (∀ b, OpenAt (sourceTokens text) k b → OpensNamespace (sourceTokens text) b) →
      (∀ o ∈ occurrences (sourceTokens text), ¬ (o.index < k ∧ k < o.stop)) →
      (scan text).countP (·.standsAt text k) = 1) ∧
    (occurrences (sourceTokens text)).Pairwise (fun o o' => o.stop ≤ o'.index) ∧
    ∀ o ∈ occurrences (sourceTokens text),
      (∃ p : Grammar.Phrase, p.WellFormed ∧ p.tokens <+: (sourceTokens text).drop o.index ∧
        o.stop = o.index + p.tokens.length) ∧
      ∀ j, o.index ≤ j → j < o.stop →
        (breaksAt (sourceTokens text) j = true ↔ j + 1 = o.stop) := by
  have hwords := wordsBreakNothing_sourceTokens text
  refine ⟨forall₂_standsAt text, ?_, pairwise_occurrences _, ?_⟩
  · intro k p hp hphrase hopen houtside
    exact countP_standsAt (exists_occurrence_of_phrase hwords hp hphrase hopen houtside)
  · intro o ho
    exact ⟨exists_phrase_at_occurrence ho, fun j hj hlt => breaksAt_inside_iff hwords ho hj hlt⟩

/-- Neither a brace too many nor a `using` that starts no phrase hides the directive behind it. -/
theorem scan_finds_phrase_behind_broken_text :
    (scan "\x7d using ; namespace N \x7b using A; \x7d").countP
      (·.standsAt "\x7d using ; namespace N \x7b using A; \x7d" 6) = 1 := by
  let ts := sourceTokens "\x7d using ; namespace N \x7b using A; \x7d"
  let p : Grammar.Phrase :=
    ⟨none, ts.getD 6 default, none, .name (ts.getD 7 default) .nil, ts.getD 8 default⟩
  have hp : p.WellFormed :=
    { globalWord := by simp [p]
      usingWord := by decide +kernel
      usingKind := fun _ => by decide +kernel
      staticWord := by simp [p]
      notStatic := fun _ => by decide +kernel
      body := ⟨by decide +kernel, trivial⟩
      semicolon := by decide +kernel }
  have hopen : ∀ b, b < 6 → OpenAt ts 6 b → OpensNamespace ts b := by decide +kernel
  exact (scan_finds_every_phrase _).2.1 6 p hp (by decide +kernel)
    (fun b hb => hopen b hb.1 hb) (by decide +kernel)

end UsingStyle
