import UsingStyle.Proofs.Directive.PrintedTree
import UsingStyle.Proofs.Directive.Spans

/-! # Bodies

A brace that no namespace waits for opens the body of a type or a method. The scan looks for no
directive until it is closed, and whatever stands in the body, the scope behind its closing brace is
the one before its opening brace, with no namespace waiting. As no directive reaches over a brace,
the directives outside of the body are found as if the body were empty.
-/

namespace UsingStyle

open Clause

/-! ## Inside a body -/

/-- From the left never more braces are closed than opened, and in all as many. -/
structure Balanced (ts : List Token) : Prop where
  level_nonneg : ∀ k, k ≤ ts.length → 0 ≤ level ts k
  level_end : level ts ts.length = 0

instance (ts : List Token) : Decidable (Balanced ts) :=
  decidable_of_iff ((∀ k, k ≤ ts.length → 0 ≤ level ts k) ∧ level ts ts.length = 0)
    ⟨fun h => ⟨h.1, h.2⟩, fun h => ⟨h.level_nonneg, h.level_end⟩⟩

/-- The brace of a body is open below `depth` more braces and above those with the given flags. -/
def InsideBody (flags : List Bool) (depth : Nat) (s : Scope) : Prop :=
  ∃ inner, inner.length = depth ∧ s.braces = inner ++ false :: flags

theorem level_zero (ts : List Token) : level ts 0 = 0 := by
  simp [level]

theorem level_cons (t : Token) (ts : List Token) (k : Nat) :
    level (t :: ts) (k + 1) =
      level ts k + (if t.text = "\x7b" then 1 else 0) - (if t.text = "\x7d" then 1 else 0) := by
  simp only [level, List.take_succ_cons, List.countP_cons, beq_iff_eq]
  split <;> split <;> omega

theorem level_cons_of_open {t : Token} (h : t.text = "\x7b") (ts : List Token) (k : Nat) :
    level (t :: ts) (k + 1) = level ts k + 1 := by
  simp [level_cons, h]

theorem level_cons_of_close {t : Token} (h : t.text = "\x7d") (ts : List Token) (k : Nat) :
    level (t :: ts) (k + 1) = level ts k - 1 := by
  simp [level_cons, h]

theorem level_cons_of_other {t : Token} (hopen : t.text ≠ "\x7b") (hclose : t.text ≠ "\x7d")
    (ts : List Token) (k : Nat) : level (t :: ts) (k + 1) = level ts k := by
  simp [level_cons, hopen, hclose]

theorem directiveAt?_of_false_mem {s : Scope} (h : false ∈ s.braces) (ts : List Token) :
    directiveAt? s ts = none := by
  have hadmits : s.admitsDirective = false := by
    rw [Scope.admitsDirective, List.all_eq_false]
    exact ⟨false, h, by decide⟩
  rw [directiveAt?, hadmits]
  rfl

namespace InsideBody

variable {flags : List Bool} {depth : Nat} {s : Scope} {t : Token}

theorem occurrencesFrom_cons (h : InsideBody flags depth s) (index : Nat) (t : Token)
    (ts : List Token) :
    occurrencesFrom s index (t :: ts) = occurrencesFrom (s.step t) (index + 1) ts := by
  obtain ⟨inner, _, hbraces⟩ := h
  have hmem : false ∈ s.braces := by
    rw [hbraces]
    exact List.mem_append_right inner List.mem_cons_self
  exact occurrencesFrom_of_none (directiveAt?_of_false_mem hmem _) index

theorem step_open (h : InsideBody flags depth s) (ht : t.text = "\x7b") :
    InsideBody flags (depth + 1) (s.step t) := by
  obtain ⟨inner, hlength, hbraces⟩ := h
  refine ⟨s.pending :: inner, by rw [List.length_cons, hlength], ?_⟩
  rw [s.step_braces_of_open ht, hbraces]
  rfl

theorem step_close (h : InsideBody flags (depth + 1) s) (ht : t.text = "\x7d") :
    InsideBody flags depth (s.step t) := by
  obtain ⟨inner, hlength, hbraces⟩ := h
  cases inner with
  | nil => contradiction
  | cons flag inner =>
      refine ⟨inner, Nat.succ.inj hlength, ?_⟩
      rw [s.step_braces_of_close ht, hbraces]
      rfl

theorem step_other (h : InsideBody flags depth s) (hopen : t.text ≠ "\x7b")
    (hclose : t.text ≠ "\x7d") : InsideBody flags depth (s.step t) := by
  obtain ⟨inner, hlength, hbraces⟩ := h
  exact ⟨inner, hlength, by rw [s.step_braces_of_other hopen hclose, hbraces]⟩

/-- The closing brace of the body leaves the braces around it. -/
theorem step_end (h : InsideBody flags 0 s) (ht : t.text = "\x7d") :
    s.step t = ⟨flags, false⟩ := by
  obtain ⟨inner, hlength, hbraces⟩ := h
  cases List.length_eq_zero_iff.1 hlength
  have hword : t.isIdentifier "namespace" = false := isIdentifier_eq_false (by simp [ht])
  simp [Scope.step, hword, ht, hbraces]

/-- The scan comes out of a body without a directive, and with the braces around it. -/
theorem occurrencesFrom_body (h : InsideBody flags depth s) {body : List Token}
    (hlow : ∀ k, k ≤ body.length → 0 ≤ depth + level body k)
    (hend : depth + level body body.length = 0) {closing : Token} (hclose : closing.text = "\x7d")
    (index : Nat) (rest : List Token) :
    occurrencesFrom s index (body ++ closing :: rest) =
      occurrencesFrom ⟨flags, false⟩ (index + body.length + 1) rest := by
  induction body generalizing s depth index with
  | nil =>
      have hdepth : depth = 0 := by
        rw [List.length_nil, level_zero] at hend
        omega
      subst hdepth
      rw [List.nil_append, h.occurrencesFrom_cons, h.step_end hclose]
      rfl
  | cons t body ih =>
      have hindex : index + (t :: body).length + 1 = index + 1 + body.length + 1 := by
        rw [List.length_cons]
        omega
      rw [List.cons_append, h.occurrencesFrom_cons, hindex]
      have hlow' : ∀ k, k ≤ body.length → 0 ≤ depth + level (t :: body) (k + 1) :=
        fun k hk => hlow (k + 1) (Nat.succ_le_succ hk)
      rw [List.length_cons] at hend
      by_cases hopen : t.text = "\x7b"
      · simp only [level_cons_of_open hopen] at hlow' hend
        refine ih (h.step_open hopen) (fun k hk => ?_) ?_ (index + 1)
        · have := hlow' k hk
          omega
        · omega
      · by_cases hcloses : t.text = "\x7d"
        · simp only [level_cons_of_close hcloses] at hlow' hend
          have hfirst := hlow' 0 (Nat.zero_le _)
          rw [level_zero] at hfirst
          obtain ⟨below, rfl⟩ : ∃ below, depth = below + 1 := ⟨depth - 1, by omega⟩
          refine ih (h.step_close hcloses) (fun k hk => ?_) ?_ (index + 1)
          · have := hlow' k hk
            omega
          · omega
        · simp only [level_cons_of_other hopen hcloses] at hlow' hend
          exact ih (h.step_other hopen hcloses) hlow' hend (index + 1)

end InsideBody

/-! ## In front of a body -/

theorem endsBroken_concat {t : Token} (h : breaksScope t = true) (ts : List Token) :
    EndsBroken (ts ++ [t]) := by
  intro u hu
  rw [List.getLast?_concat, Option.mem_some_iff] at hu
  exact hu ▸ h

theorem directiveAt?_append {s : Scope} {ts us : List Token}
    (hwords : WordsBreakNothing (ts ++ us)) (hne : ts ≠ []) (hbroken : EndsBroken ts) :
    directiveAt? s (ts ++ us) = directiveAt? s ts := by
  cases h : directiveAt? s ts with
  | none => exact directiveAt?_append_of_none h hwords hne hbroken
  | some c => exact directiveAt?_append_of_some h us

theorem directiveAt?_drop_append {s : Scope} {ts us : List Token}
    (hwords : WordsBreakNothing (ts ++ us)) (hbroken : EndsBroken ts) {k : Nat}
    (hk : k < ts.length) : directiveAt? s ((ts ++ us).drop k) = directiveAt? s (ts.drop k) := by
  have hdrop : (ts ++ us).drop k = ts.drop k ++ us :=
    List.drop_append_of_le_length (Nat.le_of_lt hk)
  have hwords' : WordsBreakNothing (ts.drop k ++ us) := by
    rw [← hdrop]
    exact fun u hu => hwords u (List.mem_of_mem_drop hu)
  have hne : ts.drop k ≠ [] := List.drop_eq_nil_iff.not.2 (Nat.not_le.2 hk)
  rw [hdrop]
  exact directiveAt?_append hwords' hne (hbroken.drop hk)

/-- The scan of the first tokens does not depend on those behind a brace. -/
theorem Visits.of_append {ts us : List Token} (hwords : WordsBreakNothing (ts ++ us))
    (hbroken : EndsBroken ts) {k : Nat} {s : Scope} (h : Visits (ts ++ us) k s)
    (hk : k ≤ ts.length) : Visits ts k s := by
  induction h with
  | start => exact .start
  | @skip k s t hat ht hnone ih =>
      rw [directiveAt?_drop_append hwords hbroken hk] at hnone
      rw [List.getElem?_append_left hk] at ht
      exact (ih (Nat.le_of_lt hk)).skip ht hnone
  | @take k s c hat hsome ih =>
      have hlt : k < ts.length := by
        have := length_pos_of_directiveAt? hsome
        omega
      rw [directiveAt?_drop_append hwords hbroken hlt] at hsome
      exact (ih (Nat.le_of_lt hlt)).take hsome

theorem Visits.of_sameRole {ts us : List Token} (hroles : List.Forall₂ Token.SameRole ts us)
    {k : Nat} {s : Scope} (h : Visits ts k s) : Visits us k s := by
  induction h with
  | start => exact .start
  | @skip k s t hat ht hnone ih =>
      obtain ⟨u, hu, hrole⟩ := exists_sameRole_at hroles ht
      rw [directiveAt?_eq (List.forall₂_drop k hroles)] at hnone
      rw [hrole.step_eq]
      exact ih.skip hu hnone
  | @take k s c hat hsome ih =>
      rw [directiveAt?_eq (List.forall₂_drop k hroles)] at hsome
      exact ih.take hsome

/-- No directive that stands in front of a brace reaches over it. -/
theorem stop_le_of_mem_occurrences_concat {ts : List Token} {opening : Token}
    (hopen : opening.text = "\x7b") {o : Occurrence} (h : o ∈ occurrences (ts ++ [opening])) :
    o.stop ≤ ts.length := by
  obtain ⟨j, t, hj, ht, htext⟩ := exists_semicolon_of_mem h
  have hle := (bounds_of_mem_occurrences h).1
  rw [List.length_append, List.length_singleton] at hle
  by_cases hlast : j = ts.length
  · rw [hlast, List.getElem?_concat_length, Option.some.injEq] at ht
    rw [← ht, hopen] at htext
    contradiction
  · omega

/-! ## Around a body -/

/-- The scan comes to the brace at `k` and records that it belongs to no namespace. -/
def RecordsBody (ts : List Token) (k : Nat) : Prop :=
  ∃ s t, Visits ts k s ∧ ts[k]? = some t ∧ t.text = "\x7b" ∧
    (s.step t).braces = false :: s.braces

theorem directiveAt?_of_open {t : Token} (h : t.text = "\x7b") (s : Scope) (ts : List Token) :
    directiveAt? s (t :: ts) = none := by
  have hstart : startsDirective (t :: ts) = false := by
    simp [startsDirective, Token.isIdentifier, h]
  rw [directiveAt?, hstart, Bool.and_false]
  rfl

theorem Scope.step_of_open {t : Token} (h : t.text = "\x7b") (s : Scope) :
    s.step t = ⟨s.pending :: s.braces, false⟩ := by
  have hword : t.isIdentifier "namespace" = false := isIdentifier_eq_false (by simp [h])
  simp [Scope.step, hword, h]

/-- What the scan records of a brace it also records without all that follows the brace. -/
theorem RecordsBody.visits_brace {before rest : List Token} {opening : Token}
    (h : RecordsBody (before ++ [opening] ++ rest) before.length)
    (hwords : WordsBreakNothing (before ++ [opening] ++ rest)) :
    ∃ flags, Visits (before ++ [opening]) (before.length + 1) ⟨false :: flags, false⟩ := by
  obtain ⟨s, t, hat, ht, hopen, hbraces⟩ := h
  rw [List.append_assoc, List.getElem?_append_right (Nat.le_refl _), Nat.sub_self] at ht
  cases ht
  have hpending : s.pending = false := by
    rw [s.step_braces_of_open hopen] at hbraces
    exact List.head_eq_of_cons_eq hbraces
  have hbroken : EndsBroken (before ++ [opening]) :=
    endsBroken_concat (by simp [breaksScope, hopen]) before
  have hfront := hat.of_append hwords hbroken (by simp)
  have hnone : directiveAt? s ((before ++ [opening]).drop before.length) = none := by
    rw [List.drop_left]
    exact directiveAt?_of_open hopen s []
  have hnext := hfront.skip List.getElem?_concat_length hnone
  rw [Scope.step_of_open hopen, hpending] at hnext
  exact ⟨s.braces, hnext⟩

/-- The directives in front of a body are those found without all that follows its brace, and
those behind it are found with the braces that are open around it. -/
theorem occurrences_around_body {before : List Token} {opening : Token}
    (hopen : opening.text = "\x7b") {flags : List Bool}
    (hat : Visits (before ++ [opening]) (before.length + 1) ⟨false :: flags, false⟩)
    {body : List Token} (hbody : Balanced body) {closing : Token}
    (hclose : closing.text = "\x7d") {behind : List Token}
    (hwords : WordsBreakNothing (before ++ [opening] ++ (body ++ closing :: behind))) :
    occurrences (before ++ [opening] ++ (body ++ closing :: behind)) =
      occurrences (before ++ [opening]) ++
        (occurrencesFrom ⟨flags, false⟩ 0 behind).map
          (Occurrence.after (before.length + body.length + 2)) := by
  have hbroken : EndsBroken (before ++ [opening]) :=
    endsBroken_concat (by simp [breaksScope, hopen]) before
  have hlength : (before ++ [opening]).length = before.length + 1 := by simp
  obtain ⟨found, hfront, hall⟩ := hat.occurrences_append hwords hbroken
  have hnil : occurrencesFrom ⟨false :: flags, false⟩ (before.length + 1) [] = [] := by
    rw [occurrencesFrom]
  rw [← hlength, List.drop_length, hlength, hnil, List.append_nil] at hfront
  have hinside : InsideBody flags 0 ⟨false :: flags, false⟩ := ⟨[], rfl, rfl⟩
  rw [← hlength, List.drop_left, hlength, hinside.occurrencesFrom_body
    (fun k hk => by simpa using hbody.level_nonneg k hk) (by simpa using hbody.level_end) hclose]
    at hall
  rw [hall, hfront, ← occurrencesFrom_add]
  congr 2
  omega

/-! ## Texts with the same surroundings -/

/-- The meaningful tokens of the text are the given ones, places apart. -/
def HasTokens (text : String) (ts : List Token) : Prop :=
  (sourceTokens text).map Token.look = ts.map Token.look

instance (text : String) (ts : List Token) : Decidable (HasTokens text ts) :=
  inferInstanceAs (Decidable (_ = _))

theorem Token.sameRole_of_look_eq {t u : Token} (h : t.look = u.look) : t.SameRole u := by
  obtain ⟨hkind, htext⟩ := Prod.ext_iff.1 h
  have hsame : t.text = u.text := htext
  exact ⟨hkind, fun w _ => by rw [hsame], fun _ => hsame⟩

namespace HasTokens

variable {text : String} {ts : List Token}

theorem sameRoles (h : HasTokens text ts) : List.Forall₂ Token.SameRole (sourceTokens text) ts :=
  (forall₂_of_map_eq h).imp fun _ _ => Token.sameRole_of_look_eq

theorem occurrences_eq (h : HasTokens text ts) : occurrences (sourceTokens text) = occurrences ts :=
  occurrencesFrom_eq h.sameRoles .top 0

theorem wordsBreakNothing (h : HasTokens text ts) : WordsBreakNothing ts := by
  intro t ht hkind
  have hmem : t.look ∈ (sourceTokens text).map Token.look := by
    rw [h]
    exact List.mem_map_of_mem ht
  obtain ⟨u, hu, hlook⟩ := List.mem_map.1 hmem
  have hrole := Token.sameRole_of_look_eq hlook
  rw [← hrole.breaksScope_eq]
  exact wordsBreakNothing_sourceTokens text u hu (hrole.kind_eq.trans hkind)

theorem recordsBody (h : HasTokens text ts) {k : Nat}
    (hrecords : RecordsBody (sourceTokens text) k) : RecordsBody ts k := by
  obtain ⟨s, t, hat, ht, hopen, hbraces⟩ := hrecords
  obtain ⟨u, hu, hrole⟩ := exists_sameRole_at h.sameRoles ht
  have hopen' : u.text = "\x7b" := by
    rw [← beq_iff_eq, ← hrole.beq_word _ (by decide), beq_iff_eq, hopen]
  rw [hrole.step_eq] at hbraces
  exact ⟨s, u, hat.of_sameRole h.sameRoles, hu, hopen', hbraces⟩

end HasTokens

/-- Where the occurrences in two texts are the same ones in front, and the same ones moved behind
other tokens, so are the directives. -/
theorem sameRun_of_occurrences_eq {a b : String} {m n : Nat} {front rear : List Occurrence}
    (ha : occurrences (sourceTokens a) = front ++ rear.map (Occurrence.after m))
    (hb : occurrences (sourceTokens b) = front ++ rear.map (Occurrence.after n)) :
    List.Forall₂ (Directive.SameRun a b 0 0) (front.map (reported a)) (front.map (reported b)) ∧
      List.Forall₂ (Directive.SameRun a b m n) ((rear.map (Occurrence.after m)).map (reported a))
        ((rear.map (Occurrence.after n)).map (reported b)) := by
  constructor
  · refine forall₂_sameRun_zero (fun o ho => ?_) (fun o ho => ?_)
    · exact ha ▸ List.mem_append_left _ ho
    · exact hb ▸ List.mem_append_left _ ho
  · refine forall₂_sameRun (fun o ho => ?_) (fun o ho => ?_)
    · exact ha ▸ List.mem_append_right _ (List.mem_map_of_mem ho)
    · exact hb ▸ List.mem_append_right _ (List.mem_map_of_mem ho)

/-- What the body of a type or a method holds does not matter for the directives outside of it.
Where the scan records a brace as one of no namespace, it reports no directive from between that
brace and the one that closes it; and another text that differs in the tokens between them only has
the same directives in front, and the same directives behind. -/
theorem scan_around_bodies {a b : String} {before body body' behind : List Token}
    {opening closing : Token}
    (ha : HasTokens a (before ++ [opening] ++ (body ++ closing :: behind)))
    (hb : HasTokens b (before ++ [opening] ++ (body' ++ closing :: behind)))
    (hopen : opening.text = "\x7b") (hclose : closing.text = "\x7d")
    (hbody : Balanced body) (hbody' : Balanced body')
    (hrecords : RecordsBody (sourceTokens a) before.length) :
    (∀ d ∈ scan a, ∀ i j, d.Spans a i j →
      ¬ (before.length + 1 ≤ i ∧ i < before.length + 1 + body.length)) ∧
    ∃ front rear front' rear', scan a = front ++ rear ∧ scan b = front' ++ rear' ∧
      (∀ d ∈ front, ∀ i j, d.Spans a i j → j ≤ before.length) ∧
      List.Forall₂ (Directive.SameRun a b 0 0) front front' ∧
      List.Forall₂ (Directive.SameRun a b (before.length + body.length + 2)
        (before.length + body'.length + 2)) rear rear' := by
  obtain ⟨flags, hat⟩ := (ha.recordsBody hrecords).visits_brace ha.wordsBreakNothing
  have hfound := ha.occurrences_eq.trans
    (occurrences_around_body hopen hat hbody hclose ha.wordsBreakNothing)
  have hfound' := hb.occurrences_eq.trans
    (occurrences_around_body hopen hat hbody' hclose hb.wordsBreakNothing)
  have hfront : ∀ d ∈ (occurrences (before ++ [opening])).map (reported a), ∀ i j,
      d.Spans a i j → j ≤ before.length := by
    intro d hd i j hspans
    obtain ⟨o, ho, rfl⟩ := List.mem_map.1 hd
    have hmem : o ∈ occurrences (sourceTokens a) := hfound ▸ List.mem_append_left _ ho
    rw [(hspans.unique (spans_reported hmem)).2]
    exact stop_le_of_mem_occurrences_concat hopen ho
  have hscan := scan_eq_map_reported a
  rw [hfound, List.map_append] at hscan
  have hscan' := scan_eq_map_reported b
  rw [hfound', List.map_append] at hscan'
  have hsame := sameRun_of_occurrences_eq hfound hfound'
  refine ⟨fun d hd i j hspans hinside => ?_, _, _, _, _, hscan, hscan', hfront, hsame⟩
  rw [hscan, List.mem_append] at hd
  rcases hd with hd | hd
  · have hstop := hfront d hd i j hspans
    have hlt := hspans.1
    omega
  · obtain ⟨o, ho, rfl⟩ := List.mem_map.1 hd
    have hspans' := spans_reported (hfound ▸ List.mem_append_right _ ho)
    obtain ⟨o', _, rfl⟩ := List.mem_map.1 ho
    have hindex : i = before.length + body.length + 2 + o'.index := hspans.start_eq hspans'
    omega

/-- A class with a namespace and a directive in it, and one with nothing in it. -/
theorem scan_around_nested_body :
    (scan "using A; class C \x7b namespace \x7b using B; \x7d \x7d using D = E;").length = 2 ∧
    (∀ d ∈ scan "using A; class C \x7b namespace \x7b using B; \x7d \x7d using D = E;", ∀ i j,
      d.Spans "using A; class C \x7b namespace \x7b using B; \x7d \x7d using D = E;" i j →
        ¬ (6 ≤ i ∧ i < 12)) ∧
    ∃ front rear front' rear',
      scan "using A; class C \x7b namespace \x7b using B; \x7d \x7d using D = E;" = front ++ rear ∧
      scan "using A; class C \x7b\x7d using D = E;" = front' ++ rear' ∧
      List.Forall₂ (Directive.SameRun
        "using A; class C \x7b namespace \x7b using B; \x7d \x7d using D = E;"
        "using A; class C \x7b\x7d using D = E;" 0 0) front front' ∧
      List.Forall₂ (Directive.SameRun
        "using A; class C \x7b namespace \x7b using B; \x7d \x7d using D = E;"
        "using A; class C \x7b\x7d using D = E;" 13 7) rear rear' := by
  have hstart : Visits (sourceTokens
      "using A; class C \x7b namespace \x7b using B; \x7d \x7d using D = E;") 0 .top :=
    .start
  have hfirst := hstart.take (c := ⟨none, 1, 3⟩) (by decide +kernel)
  have hclass := hfirst.read .top (by decide +kernel)
  have hname := hclass.read .top (by decide +kernel)
  have hbefore : (sourceTokens "using A; class C").length = 5 := by decide +kernel
  have hbody : (sourceTokens "namespace \x7b using B; \x7d").length = 6 := by decide +kernel
  obtain ⟨hinside, front, rear, front', rear', ha, hb, _, hfront, hrear⟩ := @scan_around_bodies
    "using A; class C \x7b namespace \x7b using B; \x7d \x7d using D = E;"
    "using A; class C \x7b\x7d using D = E;" (sourceTokens "using A; class C")
    (sourceTokens "namespace \x7b using B; \x7d") [] (sourceTokens "using D = E;")
    ⟨.punctuation, "\x7b", .start⟩ ⟨.punctuation, "\x7d", .start⟩ (by decide +kernel)
    (by decide +kernel) rfl rfl (by decide +kernel) (by decide +kernel)
    ⟨.top, ⟨.punctuation, "\x7b", ⟨0, 17, 17⟩⟩, hbefore ▸ hname, by decide +kernel, rfl, rfl⟩
  rw [hbefore, hbody] at hinside hrear
  exact ⟨by decide +kernel, hinside, front, rear, front', rear', ha, hb, hfront, hrear⟩

end UsingStyle
