import UsingStyle.Proofs.Directive.Grammar

/-! # The reader of directives

The reader goes from left to right, counts open type argument lists and never goes back. It accepts
what a well-formed phrase writes, whatever follows (`parse?_tokens_append`), and it accepts nothing
else (`exists_phrase_of_parse?`).
-/

namespace UsingStyle.Grammar

open Clause

/-! ## Type argument lists -/

theorem typeArgumentsRest_open {t : Token} (h : t.text = "<") (depth : Nat) (ts : List Token) :
    typeArgumentsRest depth (t :: ts) = (typeArgumentsRest (depth + 1) ts).map (· + 1) := by
  simp [typeArgumentsRest, h]

theorem typeArgumentsRest_plain {t : Token}
    (h : t.text ≠ "<" ∧ t.text ≠ ">" ∧ breaksScope t = false) (depth : Nat) (ts : List Token) :
    typeArgumentsRest depth (t :: ts) = (typeArgumentsRest depth ts).map (· + 1) := by
  simp [typeArgumentsRest, h]

theorem typeArgumentsRest_close {t : Token} (h : t.text = ">") (depth : Nat) (ts : List Token) :
    typeArgumentsRest (depth + 2) (t :: ts) =
      (typeArgumentsRest (depth + 1) ts).map (· + 1) := by
  simp [typeArgumentsRest, h]

theorem typeArgumentsRest_close_last {t : Token} (h : t.text = ">") (ts : List Token) :
    typeArgumentsRest 1 (t :: ts) = some 1 := by
  simp [typeArgumentsRest, h]

theorem typeArgumentsRest_tokens_append {a : Arguments} (h : a.WellFormed) (depth : Nat)
    (rest : List Token) :
    typeArgumentsRest (depth + 1) (a.tokens ++ rest) =
      (typeArgumentsRest (depth + 1) rest).map (· + a.tokens.length) := by
  induction a generalizing depth rest with
  | nil => simp [Arguments.tokens]
  | token t args ih =>
      obtain ⟨hplain, hargs⟩ := h
      rw [Arguments.tokens, List.cons_append, typeArgumentsRest_plain hplain, ih hargs]
      cases typeArgumentsRest (depth + 1) rest with
      | none => rfl
      | some n => simp only [Option.map_some, List.length_cons, Nat.add_assoc]
  | nested opening inner closing args ihInner ihArgs =>
      obtain ⟨hopen, hinner, hclose, hargs⟩ := h
      have hlist : opening :: (inner.tokens ++ closing :: args.tokens) ++ rest =
          opening :: (inner.tokens ++ closing :: (args.tokens ++ rest)) := by simp
      rw [Arguments.tokens, hlist, typeArgumentsRest_open hopen, ihInner hinner,
        typeArgumentsRest_close hclose, ihArgs hargs]
      cases typeArgumentsRest (depth + 1) rest with
      | none => rfl
      | some n =>
          simp only [Option.map_some, List.length_cons, List.length_append, Option.some.injEq]
          omega

theorem typeArgumentsRest_closed {a : Arguments} (h : a.WellFormed) {closing : Token}
    (hclose : closing.text = ">") (rest : List Token) :
    typeArgumentsRest 1 (a.tokens ++ closing :: rest) = some (a.tokens.length + 1) := by
  rw [typeArgumentsRest_tokens_append h 0, typeArgumentsRest_close_last hclose, Option.map_some,
    Nat.add_comm]

/-- The rest of several open lists, innermost first, each with the token that closes it. -/
def closedLists (lists : List (Arguments × Token)) : List Token :=
  lists.flatMap fun l => l.1.tokens ++ [l.2]

/-- The first `n` of the tokens close `count` open lists. -/
def ClosesLists (count : Nat) (ts : List Token) (n : Nat) : Prop :=
  ∃ (lists : List (Arguments × Token)) (rest : List Token), lists.length = count ∧
    (∀ l ∈ lists, l.1.WellFormed ∧ l.2.text = ">") ∧
    ts = closedLists lists ++ rest ∧ n = (closedLists lists).length

namespace ClosesLists

variable {count n : Nat} {t : Token} {ts : List Token}

theorem zero (ts : List Token) : ClosesLists 0 ts 0 :=
  ⟨[], ts, rfl, by simp, rfl, rfl⟩

/-- The two innermost lists behind `<` become one list with a nested one. -/
theorem open_cons (h : ClosesLists (count + 2) ts n) (ht : t.text = "<") :
    ClosesLists (count + 1) (t :: ts) (n + 1) := by
  obtain ⟨lists, rest, hlen, hlists, rfl, rfl⟩ := h
  obtain ⟨⟨inner, closing⟩, lists, rfl⟩ := List.exists_cons_of_length_eq_add_one hlen
  obtain ⟨⟨args, last⟩, lists, rfl⟩ := List.exists_cons_of_length_eq_add_one (Nat.succ.inj hlen)
  simp only [List.forall_mem_cons] at hlists
  obtain ⟨⟨hinner, hclosing⟩, ⟨hargs, hlast⟩, hmore⟩ := hlists
  refine ⟨(.nested t inner closing args, last) :: lists, rest, by simpa using hlen, ?_, ?_, ?_⟩
  · exact List.forall_mem_cons.2 ⟨⟨⟨ht, hinner, hclosing, hargs⟩, hlast⟩, hmore⟩
  · simp [closedLists, Arguments.tokens]
  · simp [closedLists, Arguments.tokens]

theorem close_cons (h : ClosesLists count ts n) (ht : t.text = ">") :
    ClosesLists (count + 1) (t :: ts) (n + 1) := by
  obtain ⟨lists, rest, hlen, hlists, rfl, rfl⟩ := h
  refine ⟨(.nil, t) :: lists, rest, by simp [hlen], ?_, ?_, ?_⟩
  · exact List.forall_mem_cons.2 ⟨⟨trivial, ht⟩, hlists⟩
  · simp [closedLists, Arguments.tokens]
  · simp [closedLists, Arguments.tokens]

theorem plain_cons (h : ClosesLists (count + 1) ts n)
    (ht : t.text ≠ "<" ∧ t.text ≠ ">" ∧ breaksScope t = false) :
    ClosesLists (count + 1) (t :: ts) (n + 1) := by
  obtain ⟨lists, rest, hlen, hlists, rfl, rfl⟩ := h
  obtain ⟨⟨args, last⟩, lists, rfl⟩ := List.exists_cons_of_length_eq_add_one hlen
  obtain ⟨⟨hargs, hlast⟩, hmore⟩ := List.forall_mem_cons.1 hlists
  refine ⟨(.token t args, last) :: lists, rest, by simpa using hlen, ?_, ?_, ?_⟩
  · exact List.forall_mem_cons.2 ⟨⟨⟨ht, hargs⟩, hlast⟩, hmore⟩
  · simp [closedLists, Arguments.tokens]
  · simp [closedLists, Arguments.tokens]

end ClosesLists

theorem closesLists_of_typeArgumentsRest {depth n : Nat} {ts : List Token}
    (h : typeArgumentsRest (depth + 1) ts = some n) : ClosesLists (depth + 1) ts n := by
  induction ts generalizing depth n with
  | nil => simp [typeArgumentsRest] at h
  | cons t ts ih =>
      by_cases hopen : t.text = "<"
      · rw [typeArgumentsRest_open hopen] at h
        obtain ⟨m, hm, rfl⟩ := Option.map_eq_some_iff.1 h
        exact (ih hm).open_cons hopen
      · by_cases hclose : t.text = ">"
        · cases depth with
          | zero =>
              rw [typeArgumentsRest_close_last hclose] at h
              cases h
              exact (ClosesLists.zero ts).close_cons hclose
          | succ depth =>
              rw [typeArgumentsRest_close hclose] at h
              obtain ⟨m, hm, rfl⟩ := Option.map_eq_some_iff.1 h
              exact (ih hm).close_cons hclose
        · have hbreak : breaksScope t = false := by
            cases hb : breaksScope t with
            | false => rfl
            | true => simp [typeArgumentsRest, hopen, hclose, hb] at h
          have hplain := And.intro hopen (And.intro hclose hbreak)
          rw [typeArgumentsRest_plain hplain] at h
          obtain ⟨m, hm, rfl⟩ := Option.map_eq_some_iff.1 h
          exact (ih hm).plain_cons hplain

theorem exists_arguments_of_typeArgumentsRest {n : Nat} {ts : List Token}
    (h : typeArgumentsRest 1 ts = some n) :
    ∃ (a : Arguments) (closing : Token) (rest : List Token), a.WellFormed ∧ closing.text = ">" ∧
      ts = a.tokens ++ closing :: rest ∧ n = a.tokens.length + 1 := by
  obtain ⟨lists, rest, hlen, hlists, rfl, rfl⟩ := closesLists_of_typeArgumentsRest h
  obtain ⟨⟨a, closing⟩, rfl⟩ := List.length_eq_one_iff.1 hlen
  obtain ⟨ha, hclosing⟩ := hlists _ List.mem_cons_self
  exact ⟨a, closing, rest, ha, hclosing, by simp [closedLists], by simp [closedLists]⟩

/-! ## Names -/

theorem nameRest_semicolon {t : Token} (h : t.text = ";") (ts : List Token) :
    nameRest (t :: ts) = some 0 := by
  rw [nameRest]
  simp [separatesSegments, h]

theorem nameRest_segment {separator name : Token} (hsep : separatesSegments separator = true)
    (hname : name.kind = .identifier) (ts : List Token) :
    nameRest (separator :: name :: ts) = (nameRest ts).map (· + 2) := by
  have hopen : separator.text ≠ "<" := by
    intro h
    simp [separatesSegments, h] at hsep
  rw [nameRest]
  simp [hopen, hsep, startsWithIdentifier, hname]

theorem nameRest_arguments {opening closing : Token} {a : Arguments} (hopen : opening.text = "<")
    (ha : a.WellFormed) (hclose : closing.text = ">") (ts : List Token) :
    nameRest (opening :: (a.tokens ++ closing :: ts)) =
      (nameRest ts).map (· + (a.tokens.length + 2)) := by
  have hdrop : (a.tokens ++ closing :: ts).drop (a.tokens.length + 1) = ts :=
    List.drop_length_add_append 1
  rw [nameRest]
  simp [hopen, typeArgumentsRest_closed ha hclose, hdrop]

theorem nameRest_tokens_append {s : Segments} (h : s.WellFormed) {semicolon : Token}
    (hsemi : semicolon.text = ";") (rest : List Token) :
    nameRest (s.tokens ++ semicolon :: rest) = some s.tokens.length := by
  induction s with
  | nil => exact nameRest_semicolon hsemi rest
  | segment separator name more ih =>
      obtain ⟨hsep, hname, hmore⟩ := h
      rw [Segments.tokens, List.cons_append, List.cons_append, nameRest_segment hsep hname,
        ih hmore]
      simp
  | arguments opening inner closing more ih =>
      obtain ⟨hopen, hinner, hclose, hmore⟩ := h
      rw [Segments.tokens, List.cons_append, List.append_assoc, List.cons_append,
        nameRest_arguments hopen hinner hclose, ih hmore]
      simp
      omega

theorem exists_segments_of_nameRest {n : Nat} {ts : List Token} (h : nameRest ts = some n) :
    ∃ (s : Segments) (rest : List Token), s.WellFormed ∧ ts = s.tokens ++ rest ∧
      n = s.tokens.length := by
  fun_induction nameRest ts generalizing n with
  | case1 =>
      cases h
      exact ⟨.nil, [], trivial, rfl, rfl⟩
  | case2 t ts hopen hargs => contradiction
  | case3 t ts hopen m hargs ih =>
      obtain ⟨k, hk, rfl⟩ := Option.map_eq_some_iff.1 h
      obtain ⟨a, closing, rest, ha, hclose, rfl, rfl⟩ := exists_arguments_of_typeArgumentsRest hargs
      obtain ⟨s, rest', hs, hrest, rfl⟩ := ih hk
      rw [List.drop_length_add_append, List.drop_one, List.tail_cons] at hrest
      subst hrest
      refine ⟨.arguments t a closing s, rest', ?_, by simp [Segments.tokens], ?_⟩
      · exact ⟨by simpa using hopen, ha, hclose, hs⟩
      · simp [Segments.tokens]
        omega
  | case4 t ts hopen hseg ih =>
      obtain ⟨k, hk, rfl⟩ := Option.map_eq_some_iff.1 h
      obtain ⟨hsep, hident⟩ := Bool.and_eq_true_iff.1 hseg
      cases ts with
      | nil => simp [startsWithIdentifier] at hident
      | cons name ts =>
          obtain ⟨s, rest, hs, hrest, rfl⟩ := ih hk
          rw [List.drop_one, List.tail_cons] at hrest
          subst hrest
          refine ⟨.segment t name s, rest, ?_, by simp [Segments.tokens], by simp [Segments.tokens]⟩
          exact ⟨hsep, by simpa [startsWithIdentifier] using hident, hs⟩
  | case5 t ts hopen hseg =>
      cases h
      exact ⟨.nil, t :: ts, trivial, rfl, rfl⟩

/-! ## Bodies -/

theorem aliasOf_tokens_append {b : Body} (h : b.WellFormed) {semicolon : Token}
    (hsemi : semicolon.text = ";") (rest : List Token) :
    aliasOf (b.tokens ++ semicolon :: rest) = b.aliasName? := by
  cases b with
  | target aliasName equals first more =>
      obtain ⟨hkind, hequals, _⟩ := h
      simp [Body.tokens, Body.aliasName?, aliasOf, hkind, hequals]
  | name first segments =>
      -- The token behind the first identifier of a name is never `=`.
      obtain ⟨hkind, hsegments⟩ := h
      cases segments with
      | nil => simp [Body.tokens, Segments.tokens, Body.aliasName?, aliasOf, hsemi]
      | segment separator name more =>
          have hsep : separator.text ≠ "=" := by
            intro heq
            simp [Segments.WellFormed, separatesSegments, heq] at hsegments
          simp [Body.tokens, Segments.tokens, Body.aliasName?, aliasOf, hsep]
      | arguments opening inner closing more =>
          simp [Body.tokens, Segments.tokens, Body.aliasName?, aliasOf, hsegments.1]

theorem targetLength_append {first : Token} {more : List Token}
    (h : ∀ t ∈ first :: more, breaksScope t = false) {semicolon : Token}
    (hsemi : semicolon.text = ";") (rest : List Token) :
    targetLength (first :: more ++ semicolon :: rest) = some (more.length + 1) := by
  have hbreak : breaksScope semicolon = true := by simp [breaksScope, hsemi]
  have htake : (first :: more ++ semicolon :: rest).takeWhile (fun t => !breaksScope t) =
      first :: more := by
    rw [List.takeWhile_append_of_pos (by simpa using h)]
    simp [hbreak]
  rw [targetLength, htake]
  rfl

theorem exists_target_of_targetLength {n : Nat} {ts : List Token}
    (h : targetLength ts = some n) :
    ∃ (first : Token) (more rest : List Token), (∀ t ∈ first :: more, breaksScope t = false) ∧
      ts = first :: more ++ rest ∧ n = more.length + 1 := by
  have hsplit := List.takeWhile_append_dropWhile (p := fun t => !breaksScope t) (l := ts)
  have hall : ∀ t ∈ ts.takeWhile (fun t => !breaksScope t), breaksScope t = false := by
    intro t ht
    simpa using List.all_eq_true.1 (List.all_takeWhile (p := fun t => !breaksScope t)) t ht
  unfold targetLength at h
  cases htake : ts.takeWhile (fun t => !breaksScope t) with
  | nil => simp [htake] at h
  | cons first more =>
      simp only [htake, List.length_cons, Option.some.injEq] at h
      rw [htake] at hsplit hall
      exact ⟨first, more, _, hall, hsplit.symm, h.symm⟩

theorem nameLength_append {first : Token} {segments : Segments} (hkind : first.kind = .identifier)
    (h : segments.WellFormed) {semicolon : Token} (hsemi : semicolon.text = ";")
    (rest : List Token) :
    nameLength (first :: segments.tokens ++ semicolon :: rest) =
      some (segments.tokens.length + 1) := by
  simp [nameLength, startsWithIdentifier, hkind, nameRest_tokens_append h hsemi]

theorem exists_name_of_nameLength {n : Nat} {ts : List Token} (h : nameLength ts = some n) :
    ∃ (first : Token) (segments : Segments) (rest : List Token), first.kind = .identifier ∧
      segments.WellFormed ∧ ts = first :: segments.tokens ++ rest ∧
      n = segments.tokens.length + 1 := by
  cases ts with
  | nil => simp [nameLength, startsWithIdentifier] at h
  | cons first ts =>
      simp only [nameLength, startsWithIdentifier, List.drop_one, List.tail_cons] at h
      split at h
      · rename_i hkind
        obtain ⟨m, hm, rfl⟩ := Option.map_eq_some_iff.1 h
        obtain ⟨segments, rest, hsegments, rfl, rfl⟩ := exists_segments_of_nameRest hm
        exact ⟨first, segments, rest, by simpa using hkind, hsegments, rfl, rfl⟩
      · contradiction

/-! ## Phrases -/

theorem startsWithText_cons (text : String) (t : Token) (ts : List Token) :
    startsWithText text (t :: ts) = (t.text == text) := rfl

theorem modifiersLength_words {globalWord : Option Token} {usingWord : Token}
    (hglobal : ∀ t ∈ globalWord, t.isIdentifier "global" = true)
    (husing : usingWord.text = "using") (rest : List Token) :
    modifiersLength (globalWord.toList ++ usingWord :: rest) =
      globalWord.toList.length + 1 + if startsWithText "static" rest then 1 else 0 := by
  unfold modifiersLength
  cases globalWord with
  | none => cases h : startsWithText "static" rest <;> simp [startsWithText_cons, husing, h]
  | some g =>
      have htext : g.text = "global" := by
        have hword := hglobal g rfl
        simp only [Token.isIdentifier, Bool.and_eq_true, beq_iff_eq] at hword
        exact hword.2
      cases h : startsWithText "static" rest <;> simp [startsWithText_cons, htext, h]

theorem Body.tokens_eq_cons (b : Body) : ∃ more, b.tokens = b.head :: more := by
  cases b with
  | target aliasName equals first rest => exact ⟨_, rfl⟩
  | name first rest => exact ⟨_, rfl⟩

namespace Phrase

theorem length_tokens (p : Phrase) :
    p.tokens.length = p.modifiers + p.body.tokens.length + 1 := by
  simp [tokens, modifiers]
  omega

theorem drop_modifiers (p : Phrase) (rest : List Token) :
    (p.tokens ++ rest).drop p.modifiers = p.body.tokens ++ p.semicolon :: rest := by
  unfold tokens modifiers
  cases p.globalWord <;> cases p.staticWord <;> simp

theorem modifiersLength_tokens_append {p : Phrase} (h : p.WellFormed) (rest : List Token) :
    modifiersLength (p.tokens ++ rest) = p.modifiers := by
  rw [tokens, List.append_assoc, List.cons_append, modifiersLength_words h.globalWord h.usingWord,
    modifiers]
  cases hs : p.staticWord with
  | none =>
      obtain ⟨more, hmore⟩ := p.body.tokens_eq_cons
      simp [hmore, startsWithText_cons, h.notStatic hs]
  | some t => simp [startsWithText_cons, h.staticWord t hs]

theorem startsDirective_tokens_append {p : Phrase} (h : p.WellFormed) (rest : List Token) :
    startsDirective (p.tokens ++ rest) = true := by
  have husing := h.usingWord
  unfold tokens
  cases hg : p.globalWord with
  | none =>
      have hkind := h.usingKind hg
      simp [startsDirective, Token.isIdentifier, husing, hkind]
  | some g =>
      have hword := h.globalWord g hg
      simp [startsDirective, hword, startsWithText, husing]

theorem close?_tokens_append {p : Phrase} (h : p.WellFormed) (rest : List Token)
    (aliasName : Option String) {nameStart size : Nat}
    (hsum : nameStart + size = p.modifiers + p.body.tokens.length) :
    close? (p.tokens ++ rest) aliasName nameStart size =
      some ⟨aliasName, nameStart, p.tokens.length⟩ := by
  have hdrop : (p.tokens ++ rest).drop (nameStart + size) = p.semicolon :: rest := by
    rw [hsum, ← List.drop_drop, drop_modifiers, List.drop_left]
  rw [close?, hdrop, length_tokens, hsum]
  simp [startsWithText, h.semicolon]

/-- The reader accepts what a phrase writes and gives its parts, whatever follows. -/
theorem parse?_tokens_append {p : Phrase} (h : p.WellFormed) (rest : List Token) :
    parse? (p.tokens ++ rest) = some p.clause := by
  have halias := aliasOf_tokens_append h.body h.semicolon rest
  have hwell := h.body
  have hdrop := drop_modifiers p rest
  unfold parse? clause
  simp only [modifiersLength_tokens_append h, hdrop, halias]
  cases hb : p.body with
  | target aliasName equals first more =>
      rw [hb] at hwell hdrop
      have hbehind : (p.tokens ++ rest).drop (p.modifiers + 2) =
          first :: more ++ p.semicolon :: rest := by
        rw [← List.drop_drop, hdrop]
        rfl
      have hsum : p.modifiers + 2 + (more.length + 1) = p.modifiers + p.body.tokens.length := by
        simp [hb, Body.tokens]
        omega
      simp only [Body.aliasName?, Body.lead, hbehind, targetLength_append hwell.2.2 h.semicolon,
        Option.bind_some, close?_tokens_append h rest _ hsum]
  | name first segments =>
      rw [hb] at hwell
      have hsum : p.modifiers + (segments.tokens.length + 1) =
          p.modifiers + p.body.tokens.length := by
        simp [hb, Body.tokens]
      simp only [Body.aliasName?, Body.lead, Body.tokens, nameLength_append hwell.1 hwell.2
        h.semicolon, Option.bind_some, close?_tokens_append h rest _ hsum, Nat.add_zero]

end Phrase

/-- The words in front of the body of a directive. -/
theorem exists_words_of_startsDirective {ts : List Token} (h : startsDirective ts = true) :
    ∃ (globalWord : Option Token) (usingWord : Token) (rest : List Token),
      ts = globalWord.toList ++ usingWord :: rest ∧
      (∀ t ∈ globalWord, t.isIdentifier "global" = true) ∧ usingWord.text = "using" ∧
      (globalWord = none → usingWord.kind = .identifier) := by
  cases ts with
  | nil => simp [startsDirective] at h
  | cons t ts =>
      simp only [startsDirective, Bool.or_eq_true, Bool.and_eq_true] at h
      rcases h with husing | ⟨hglobal, hnext⟩
      · simp only [Token.isIdentifier, Bool.and_eq_true, beq_iff_eq] at husing
        exact ⟨none, t, ts, rfl, by simp, husing.2, fun _ => husing.1⟩
      · cases ts with
        | nil => simp [startsWithText] at hnext
        | cons u ts =>
            refine ⟨some t, u, ts, rfl, by simpa using hglobal, ?_, by simp⟩
            simpa [startsWithText] using hnext

theorem exists_cons_of_startsWithText {text : String} {ts : List Token}
    (h : startsWithText text ts = true) : ∃ t rest, ts = t :: rest ∧ t.text = text := by
  cases ts with
  | nil => simp [startsWithText] at h
  | cons t rest => exact ⟨t, rest, rfl, by simpa [startsWithText] using h⟩

theorem exists_semicolon_of_close? {ts : List Token} {aliasName : Option String}
    {nameStart size : Nat} {c : Clause} (h : close? ts aliasName nameStart size = some c) :
    ∃ semicolon rest, ts.drop (nameStart + size) = semicolon :: rest ∧ semicolon.text = ";" ∧
      c = ⟨aliasName, nameStart, nameStart + size + 1⟩ := by
  unfold close? at h
  split at h
  · rename_i hsemi
    obtain ⟨semicolon, rest, hdrop, htext⟩ := exists_cons_of_startsWithText hsemi
    cases h
    exact ⟨semicolon, rest, hdrop, htext, rfl⟩
  · contradiction

theorem aliasOf_eq_some {ts : List Token} {a : String} (h : aliasOf ts = some a) :
    ∃ aliasName equals rest, ts = aliasName :: equals :: rest ∧ aliasName.kind = .identifier ∧
      equals.text = "=" ∧ aliasName.text = a := by
  unfold aliasOf at h
  split at h
  · split at h
    · rename_i t u rest hcond
      simp only [Bool.and_eq_true, beq_iff_eq] at hcond
      cases h
      exact ⟨t, u, rest, rfl, hcond.1, hcond.2, rfl⟩
    · contradiction
  · contradiction

/-- Behind the modifiers the reader has found a body and a semicolon. -/
theorem exists_body_of_parse? {ts : List Token} {c : Clause} (h : parse? ts = some c) :
    ∃ (b : Body) (semicolon : Token) (rest : List Token), b.WellFormed ∧ semicolon.text = ";" ∧
      ts.drop (modifiersLength ts) = b.tokens ++ semicolon :: rest ∧
      c = ⟨b.aliasName?, modifiersLength ts + b.lead,
        modifiersLength ts + b.tokens.length + 1⟩ := by
  unfold parse? at h
  dsimp only at h
  cases halias : aliasOf (ts.drop (modifiersLength ts)) with
  | some a =>
      rw [halias] at h
      obtain ⟨aliasName, equals, behind, hdrop, hkind, hequals, rfl⟩ := aliasOf_eq_some halias
      obtain ⟨n, hn, hclose⟩ := Option.bind_eq_some_iff.1 h
      rw [← List.drop_drop, hdrop, List.drop_succ_cons, List.drop_one, List.tail_cons] at hn
      obtain ⟨first, more, rest, hfree, rfl, rfl⟩ := exists_target_of_targetLength hn
      obtain ⟨semicolon, rest', hsemi, htext, rfl⟩ := exists_semicolon_of_close? hclose
      rw [Nat.add_assoc, ← List.drop_drop, hdrop] at hsemi
      have hrest : rest = semicolon :: rest' := by
        simpa [Nat.add_comm, List.drop_append] using hsemi
      subst hrest
      refine ⟨.target aliasName equals first more, semicolon, rest', ?_, htext, ?_, ?_⟩
      · exact ⟨hkind, hequals, hfree⟩
      · rw [hdrop]
        rfl
      · simp [Body.aliasName?, Body.lead, Body.tokens]
        omega
  | none =>
      rw [halias] at h
      obtain ⟨n, hn, hclose⟩ := Option.bind_eq_some_iff.1 h
      obtain ⟨first, segments, rest, hkind, hsegments, hdrop, rfl⟩ := exists_name_of_nameLength hn
      obtain ⟨semicolon, rest', hsemi, htext, rfl⟩ := exists_semicolon_of_close? hclose
      rw [← List.drop_drop, hdrop] at hsemi
      have hrest : rest = semicolon :: rest' := by
        simpa [List.drop_append] using hsemi
      subst hrest
      refine ⟨.name first segments, semicolon, rest', ⟨hkind, hsegments⟩, htext, hdrop, ?_⟩
      simp [Body.aliasName?, Body.lead, Body.tokens]

/-- The reader accepts only what a phrase writes, and gives the parts of that phrase. -/
theorem exists_phrase_of_parse? {ts : List Token} {c : Clause} (hstart : startsDirective ts = true)
    (h : parse? ts = some c) :
    ∃ (p : Phrase) (rest : List Token), p.WellFormed ∧ ts = p.tokens ++ rest ∧ c = p.clause := by
  obtain ⟨globalWord, usingWord, behind, rfl, hglobal, husing, hkind⟩ :=
    exists_words_of_startsDirective hstart
  obtain ⟨b, semicolon, rest, hbody, hsemi, hdrop, rfl⟩ := exists_body_of_parse? h
  have hwords := modifiersLength_words hglobal husing behind
  cases hstatic : startsWithText "static" behind with
  | true =>
      obtain ⟨staticWord, behind, rfl, htext⟩ := exists_cons_of_startsWithText hstatic
      rw [hstatic] at hwords
      have hbehind : behind = b.tokens ++ semicolon :: rest := by
        rw [← hdrop, hwords]
        cases globalWord <;> rfl
      subst hbehind
      refine ⟨⟨globalWord, usingWord, some staticWord, b, semicolon⟩, rest, ?_, ?_, ?_⟩
      · exact ⟨hglobal, husing, hkind, by simpa using htext, by simp, hbody, hsemi⟩
      · simp [Phrase.tokens]
      · simp [Phrase.clause, Phrase.length_tokens, Phrase.modifiers, hwords]
  | false =>
      rw [hstatic] at hwords
      have hbehind : behind = b.tokens ++ semicolon :: rest := by
        rw [← hdrop, hwords]
        cases globalWord <;> rfl
      subst hbehind
      have hhead : b.head.text ≠ "static" := by
        obtain ⟨more, hmore⟩ := b.tokens_eq_cons
        simpa [hmore, startsWithText] using hstatic
      refine ⟨⟨globalWord, usingWord, none, b, semicolon⟩, rest, ?_, ?_, ?_⟩
      · exact ⟨hglobal, husing, hkind, by simp, fun _ => hhead, hbody, hsemi⟩
      · simp [Phrase.tokens]
      · simp [Phrase.clause, Phrase.length_tokens, Phrase.modifiers, hwords]

end UsingStyle.Grammar
