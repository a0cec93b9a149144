import UsingStyle.Directive.Clause

/-! # Phrases

The grammar of a directive as syntax trees. A tree writes its tokens from left to right, and
`WellFormed` says which tokens may stand where:

    [global] using [static] (Alias = Target | Name) ;

The only brace or semicolon that a well-formed phrase writes is its last token.
-/

namespace UsingStyle.Grammar

open Clause

/-! ## Trees -/

/-- What stands between `<` and `>`. -/
inductive Arguments where
  | nil
  | token (t : Token) (rest : Arguments)
  | nested (opening : Token) (inner : Arguments) (closing : Token) (rest : Arguments)

namespace Arguments

def tokens : Arguments → List Token
  | nil => []
  | token t rest => t :: rest.tokens
  | nested opening inner closing rest => opening :: (inner.tokens ++ closing :: rest.tokens)

def WellFormed : Arguments → Prop
  | nil => True
  | token t rest => (t.text ≠ "<" ∧ t.text ≠ ">" ∧ breaksScope t = false) ∧ rest.WellFormed
  | nested opening inner closing rest =>
    opening.text = "<" ∧ inner.WellFormed ∧ closing.text = ">" ∧ rest.WellFormed

end Arguments

/-- What follows the first identifier of a name. -/
inductive Segments where
  | nil
  | segment (separator name : Token) (rest : Segments)
  | arguments (opening : Token) (inner : Arguments) (closing : Token) (rest : Segments)

namespace Segments

def tokens : Segments → List Token
  | nil => []
  | segment separator name rest => separator :: name :: rest.tokens
  | arguments opening inner closing rest => opening :: (inner.tokens ++ closing :: rest.tokens)

def WellFormed : Segments → Prop
  | nil => True
  | segment separator name rest =>
    separatesSegments separator = true ∧ name.kind = .identifier ∧ rest.WellFormed
  | arguments opening inner closing rest =>
    opening.text = "<" ∧ inner.WellFormed ∧ closing.text = ">" ∧ rest.WellFormed

end Segments

/-- What a directive brings into scope. -/
inductive Body where
  | target (aliasName equals first : Token) (rest : List Token)
  | name (first : Token) (rest : Segments)

namespace Body

def tokens : Body → List Token
  | target aliasName equals first rest => aliasName :: equals :: first :: rest
  | name first rest => first :: rest.tokens

/-- The token right behind the modifiers. -/
def head : Body → Token
  | target aliasName _ _ _ => aliasName
  | name first _ => first

def aliasName? : Body → Option String
  | target aliasName _ _ _ => some aliasName.text
  | name _ _ => none

/-- How many tokens precede the name or target. -/
def lead : Body → Nat
  | target _ _ _ _ => 2
  | name _ _ => 0

def WellFormed : Body → Prop
  | target aliasName equals first rest =>
    aliasName.kind = .identifier ∧ equals.text = "=" ∧ ∀ t ∈ first :: rest, breaksScope t = false
  | name first rest => first.kind = .identifier ∧ rest.WellFormed

end Body

/-- A whole directive. -/
structure Phrase where
  globalWord : Option Token
  usingWord : Token
  staticWord : Option Token
  body : Body
  semicolon : Token

namespace Phrase

def tokens (p : Phrase) : List Token :=
  p.globalWord.toList ++ p.usingWord :: (p.staticWord.toList ++ (p.body.tokens ++ [p.semicolon]))

/-- How many tokens precede the body. -/
def modifiers (p : Phrase) : Nat :=
  p.globalWord.toList.length + 1 + p.staticWord.toList.length

/-- The parts of the directive as counts of tokens. -/
def clause (p : Phrase) : Clause :=
  ⟨p.body.aliasName?, p.modifiers + p.body.lead, p.tokens.length⟩

/-- A `static` right behind `using` is always the modifier. -/
structure WellFormed (p : Phrase) : Prop where
  globalWord : ∀ t ∈ p.globalWord, t.isIdentifier "global" = true
  usingWord : p.usingWord.text = "using"
  usingKind : p.globalWord = none → p.usingWord.kind = .identifier
  staticWord : ∀ t ∈ p.staticWord, t.text = "static"
  notStatic : p.staticWord = none → p.body.head.text ≠ "static"
  body : p.body.WellFormed
  semicolon : p.semicolon.text = ";"

end Phrase

/-! ## Braces and semicolons in a phrase -/

theorem breaksScope_of_separatesSegments {t : Token} (h : separatesSegments t = true) :
    breaksScope t = false := by
  simp only [separatesSegments, Bool.or_eq_true, beq_iff_eq] at h
  rcases h with h | h <;> simp [breaksScope, h]

theorem breaksScope_of_isIdentifier {t : Token} {word : String} (h : t.isIdentifier word = true)
    (hword : word ≠ "\x7b" ∧ word ≠ "\x7d" ∧ word ≠ ";") : breaksScope t = false := by
  simp only [Token.isIdentifier, Bool.and_eq_true, beq_iff_eq] at h
  simp [breaksScope, h.2, hword]

theorem Arguments.breaksScope_tokens {a : Arguments} (h : a.WellFormed) {t : Token}
    (ht : t ∈ a.tokens) : breaksScope t = false := by
  induction a with
  | nil => simp [tokens] at ht
  | token u rest ih =>
      obtain ⟨⟨_, _, hu⟩, hrest⟩ := h
      rcases List.mem_cons.1 ht with rfl | ht
      · exact hu
      · exact ih hrest ht
  | nested opening inner closing rest ihInner ihRest =>
      obtain ⟨hopen, hinner, hclose, hrest⟩ := h
      rcases List.mem_cons.1 ht with rfl | ht
      · simp [breaksScope, hopen]
      · rcases List.mem_append.1 ht with ht | ht
        · exact ihInner hinner ht
        · rcases List.mem_cons.1 ht with rfl | ht
          · simp [breaksScope, hclose]
          · exact ihRest hrest ht

theorem Segments.breaksScope_tokens {s : Segments} (h : s.WellFormed)
    (hwords : ∀ t ∈ s.tokens, t.kind = .identifier → breaksScope t = false) {t : Token}
    (ht : t ∈ s.tokens) : breaksScope t = false := by
  induction s with
  | nil => simp [tokens] at ht
  | segment separator name rest ih =>
      obtain ⟨hsep, hname, hrest⟩ := h
      simp only [tokens, List.forall_mem_cons] at hwords
      rcases List.mem_cons.1 ht with rfl | ht
      · exact breaksScope_of_separatesSegments hsep
      · rcases List.mem_cons.1 ht with rfl | ht
        · exact hwords.2.1 hname
        · exact ih hrest hwords.2.2 ht
  | arguments opening inner closing rest ih =>
      obtain ⟨hopen, hinner, hclose, hrest⟩ := h
      simp only [tokens, List.forall_mem_cons, List.forall_mem_append] at hwords
      rcases List.mem_cons.1 ht with rfl | ht
      · simp [breaksScope, hopen]
      · rcases List.mem_append.1 ht with ht | ht
        · exact Arguments.breaksScope_tokens hinner ht
        · rcases List.mem_cons.1 ht with rfl | ht
          · simp [breaksScope, hclose]
          · exact ih hrest hwords.2.2.2 ht

theorem Body.breaksScope_tokens {b : Body} (h : b.WellFormed)
    (hwords : ∀ t ∈ b.tokens, t.kind = .identifier → breaksScope t = false) {t : Token}
    (ht : t ∈ b.tokens) : breaksScope t = false := by
  cases b with
  | target aliasName equals first rest =>
      obtain ⟨hkind, hequals, hfree⟩ := h
      rcases List.mem_cons.1 ht with rfl | ht
      · exact hwords _ List.mem_cons_self hkind
      · rcases List.mem_cons.1 ht with rfl | ht
        · simp [breaksScope, hequals]
        · exact hfree t ht
  | name first rest =>
      obtain ⟨hkind, hrest⟩ := h
      simp only [tokens, List.forall_mem_cons] at hwords
      rcases List.mem_cons.1 ht with rfl | ht
      · exact hwords.1 hkind
      · exact Segments.breaksScope_tokens hrest hwords.2 ht

namespace Phrase

/-- All tokens but the semicolon. -/
def front (p : Phrase) : List Token :=
  p.globalWord.toList ++ p.usingWord :: (p.staticWord.toList ++ p.body.tokens)

theorem tokens_eq_front_append (p : Phrase) : p.tokens = p.front ++ [p.semicolon] := by
  simp [tokens, front]

theorem breaksScope_front {p : Phrase} (h : p.WellFormed)
    (hwords : ∀ t ∈ p.tokens, t.kind = .identifier → breaksScope t = false) {t : Token}
    (ht : t ∈ p.front) : breaksScope t = false := by
  have hbody : ∀ u ∈ p.body.tokens, u.kind = .identifier → breaksScope u = false := by
    intro u hu
    exact hwords u (by simp [tokens, hu])
  rcases List.mem_append.1 ht with ht | ht
  · exact breaksScope_of_isIdentifier (h.globalWord t (Option.mem_toList.1 ht)) (by decide)
  · rcases List.mem_cons.1 ht with rfl | ht
    · simp [breaksScope, h.usingWord]
    · rcases List.mem_append.1 ht with ht | ht
      · simp [breaksScope, h.staticWord t (Option.mem_toList.1 ht)]
      · exact Body.breaksScope_tokens h.body hbody ht

end Phrase

end UsingStyle.Grammar
