import UsingStyle.Directive
import UsingStyle.Proofs.Token.Layout

/-! # Printed directives

A directive is described by its modifiers, its alias, its name and a comment, and printed as one
line:

    [global ]using [static ][alias = ]name;[  //comment]

The line is laid out as a row of pieces, which the lexer gives back whatever follows the line.
-/

namespace UsingStyle

/-! ## Names -/

structure Identifier where
  text : String
  spells : spellsIdentifier text.toList = true

inductive Separator where
  | dot
  | colons

def Separator.text : Separator → String
  | dot => "."
  | colons => "::"

/-- A qualified name. In a list of type arguments a blank may follow every comma. -/
inductive QualifiedName where
  | word (w : Identifier)
  | member (qualifier : QualifiedName) (separator : Separator) (w : Identifier)
  | generic (base : QualifiedName) (spaced : Bool) (arguments : List QualifiedName)

def comma (spaced : Bool) : String :=
  if spaced then ", " else ","

mutual

def QualifiedName.text : QualifiedName → String
  | .word w => w.text
  | .member qualifier separator w => qualifier.text ++ separator.text ++ w.text
  | .generic base spaced arguments => base.text ++ "<" ++ argumentsText arguments spaced ++ ">"

/-- Type arguments, separated by commas. -/
def argumentsText : List QualifiedName → Bool → String
  | [], _ => ""
  | [n], _ => n.text
  | n :: m :: ns, spaced => n.text ++ comma spaced ++ argumentsText (m :: ns) spaced

end

/-- The first identifier of a name. -/
def QualifiedName.head : QualifiedName → Identifier
  | .word w => w
  | .member qualifier _ _ => qualifier.head
  | .generic base _ _ => base.head

/-! ## Lines -/

/-- A directive on a line of its own. The word behind `using` is `static` only as the modifier, and
a comment has no line break. -/
structure Line where
  isGlobal : Bool
  isStatic : Bool
  aliasName : Option Identifier
  name : QualifiedName
  comment : Option String
  not_static : isStatic = false → (aliasName.getD name.head).text ≠ "static"
  inline : ∀ body ∈ comment, ∀ c ∈ body.toList, Text.isBreak c = false

namespace Line

/-- The line up to its semicolon. -/
def phrase (l : Line) : String :=
  (if l.isGlobal then "global " else "") ++ "using " ++ (if l.isStatic then "static " else "") ++
    (l.aliasName.elim "" fun a => a.text ++ " = ") ++ l.name.text ++ ";"

def print (l : Line) : String :=
  l.phrase ++ (l.comment.elim "" fun body => "  //" ++ body) ++ "\n"

/-- The directive that the line describes, as it stands on the line with the given number. -/
def directive (l : Line) (number : Nat) : Directive where
  text := l.phrase
  name := l.name.text
  line := number
  column := 0
  aliasName := l.aliasName.map Identifier.text
  trailing := l.comment.elim [] fun body => ["  ", "//" ++ body]

end Line

def printLines (ls : List Line) : String :=
  String.join (ls.map Line.print)

/-! ## Layout of names -/

def Identifier.piece (w : Identifier) : Piece :=
  .word w.text.toList

def Separator.piece (s : Separator) : Piece :=
  .symbol s.text.toList

def commaPieces (spaced : Bool) : List Piece :=
  if spaced then [.symbol [','], .blank 0] else [.symbol [',']]

mutual

def QualifiedName.pieces : QualifiedName → List Piece
  | .word w => [w.piece]
  | .member qualifier separator w => qualifier.pieces ++ [separator.piece, w.piece]
  | .generic base spaced arguments =>
    base.pieces ++ .symbol ['<'] :: (argumentPieces arguments spaced ++ [.symbol ['>']])

def argumentPieces : List QualifiedName → Bool → List Piece
  | [], _ => []
  | [n], _ => n.pieces
  | n :: m :: ns, spaced => n.pieces ++ (commaPieces spaced ++ argumentPieces (m :: ns) spaced)

end

theorem chars_commaPieces (spaced : Bool) :
    Piece.chars (commaPieces spaced) = (comma spaced).toList := by
  cases spaced <;> rfl

mutual

theorem QualifiedName.chars_pieces (n : QualifiedName) : Piece.chars n.pieces = n.text.toList := by
  match n with
  | .word w => simp [QualifiedName.pieces, QualifiedName.text, Identifier.piece, Piece.word]
  | .member qualifier separator w =>
      have hqualifier := qualifier.chars_pieces
      simp [QualifiedName.pieces, QualifiedName.text, Identifier.piece, Separator.piece, Piece.word,
        Piece.symbol, hqualifier]
  | .generic base spaced arguments =>
      have hbase := base.chars_pieces
      have harguments := chars_argumentPieces arguments spaced
      simp [QualifiedName.pieces, QualifiedName.text, Piece.symbol, hbase, harguments]

theorem chars_argumentPieces (ns : List QualifiedName) (spaced : Bool) :
    Piece.chars (argumentPieces ns spaced) = (argumentsText ns spaced).toList := by
  match ns with
  | [] => simp [argumentPieces, argumentsText]
  | [n] =>
      have hfirst := n.chars_pieces
      simp [argumentPieces, argumentsText, hfirst]
  | n :: m :: ns =>
      have hfirst := n.chars_pieces
      have hmore := chars_argumentPieces (m :: ns) spaced
      simp [argumentPieces, argumentsText, hfirst, hmore, chars_commaPieces]

end

theorem Identifier.first (w : Identifier) :
    ∃ c cs, w.text.toList = c :: cs ∧ (c = '@' ∨ Text.isWordStart c = true) := by
  have hw := w.spells
  unfold spellsIdentifier at hw
  split at hw
  · rename_i c cs heq
    exact ⟨'@', c :: cs, heq, .inl rfl⟩
  · rename_i c cs _ heq
    exact ⟨c, cs, heq, .inr (Bool.and_eq_true_iff.1 hw).1⟩
  · contradiction

theorem Identifier.inline (w : Identifier) : Piece.Inline [w.piece] := by
  have hw := w.spells
  have hword : ∀ (c : Char) (cs : List Char), (Text.isWordStart c && cs.all Text.isWord) = true →
      ∀ d ∈ c :: cs, Text.isBreak d = false := by
    intro c cs h d hd
    have hc := Bool.and_eq_true_iff.1 h
    rcases List.mem_cons.1 hd with rfl | hd
    · exact isBreak_eq_false_of_isWord (Bool.and_eq_true_iff.1 hc.1).1
    · exact isBreak_eq_false_of_isWord (List.all_eq_true.1 hc.2 d hd)
  intro d hd
  rw [Piece.chars_cons, Piece.chars_nil, List.append_nil, Identifier.piece, Piece.word] at hd
  unfold spellsIdentifier at hw
  split at hw
  · rename_i c cs heq
    rw [heq] at hd
    rcases List.mem_cons.1 hd with rfl | hd
    · decide
    · exact hword c cs hw d hd
  · rename_i c cs _ heq
    rw [heq] at hd
    exact hword c cs hw d hd
  · contradiction

/-- No word goes on into the text. -/
def EndsWord (rest : List Char) : Prop :=
  ∀ c ∈ rest.head?, Text.isWord c = false

/-- No run of blanks goes on into the text. -/
def EndsBlank (rest : List Char) : Prop :=
  ∀ c ∈ rest.head?, Text.isInlineBlank c = false

theorem endsWord_cons {c : Char} (h : Text.isWord c = false) (rest : List Char) :
    EndsWord (c :: rest) := by
  intro d hd
  cases hd
  exact h

theorem endsBlank_cons {c : Char} (h : Text.isInlineBlank c = false) (rest : List Char) :
    EndsBlank (c :: rest) := by
  intro d hd
  cases hd
  exact h

theorem Identifier.endsBlank (w : Identifier) (rest : List Char) :
    EndsBlank (w.text.toList ++ rest) := by
  obtain ⟨c, cs, htext, hc⟩ := w.first
  rw [htext]
  apply endsBlank_cons
  rcases hc with rfl | hc
  · decide
  · exact isInlineBlank_eq_false_of_isWord (Bool.and_eq_true_iff.1 hc).1

theorem Identifier.standsBefore (w : Identifier) {rest : List Char} (h : EndsWord rest) :
    w.piece.StandsBefore rest :=
  Piece.standsBefore_word w.spells h

theorem Separator.standsBefore (s : Separator) (rest : List Char) :
    s.piece.StandsBefore rest := by
  cases s with
  | dot => exact Piece.standsBefore_symbol (by decide) rest
  | colons => exact Piece.standsBefore_colons rest

theorem Separator.endsWord (s : Separator) (rest : List Char) :
    EndsWord (s.text.toList ++ rest) := by
  cases s with
  | dot => exact endsWord_cons (by decide) _
  | colons => exact endsWord_cons (by decide) _

theorem QualifiedName.pieces_eq_cons (n : QualifiedName) :
    ∃ more, n.pieces = n.head.piece :: more := by
  match n with
  | .word w => exact ⟨[], by simp [pieces, head]⟩
  | .member qualifier separator w =>
      obtain ⟨more, hmore⟩ := qualifier.pieces_eq_cons
      exact ⟨more ++ [separator.piece, w.piece], by simp [pieces, head, hmore]⟩
  | .generic base spaced arguments =>
      obtain ⟨more, hmore⟩ := base.pieces_eq_cons
      refine ⟨more ++ .symbol ['<'] :: (argumentPieces arguments spaced ++ [.symbol ['>']]), ?_⟩
      simp [pieces, head, hmore]

theorem QualifiedName.endsBlank (n : QualifiedName) (rest : List Char) :
    EndsBlank (Piece.chars n.pieces ++ rest) := by
  obtain ⟨more, hmore⟩ := n.pieces_eq_cons
  rw [hmore, Piece.chars_cons, List.append_assoc]
  exact n.head.endsBlank _

theorem endsBlank_argumentPieces (n : QualifiedName) (ns : List QualifiedName) (spaced : Bool)
    (rest : List Char) : EndsBlank (Piece.chars (argumentPieces (n :: ns) spaced) ++ rest) := by
  cases ns with
  | nil =>
      rw [argumentPieces]
      exact n.endsBlank rest
  | cons m ns =>
      rw [argumentPieces, Piece.chars_append, List.append_assoc]
      exact n.endsBlank _

theorem separated_commaPieces (spaced : Bool) {rest : List Char} (h : EndsBlank rest) :
    Piece.Separated (commaPieces spaced) rest := by
  cases spaced with
  | false => exact ⟨Piece.standsBefore_symbol (by decide) _, trivial⟩
  | true =>
      exact ⟨Piece.standsBefore_symbol (by decide) _, Piece.standsBefore_blank 0 h, trivial⟩

theorem endsWord_commaPieces (spaced : Bool) (rest : List Char) :
    EndsWord (Piece.chars (commaPieces spaced) ++ rest) := by
  cases spaced with
  | false => exact endsWord_cons (by decide) _
  | true => exact endsWord_cons (by decide) _

mutual

theorem QualifiedName.separated (n : QualifiedName) {rest : List Char} (h : EndsWord rest) :
    Piece.Separated n.pieces rest := by
  match n with
  | .word w =>
      rw [QualifiedName.pieces]
      exact ⟨w.standsBefore h, trivial⟩
  | .member qualifier separator w =>
      rw [QualifiedName.pieces]
      apply Piece.separated_append
      · apply qualifier.separated
        rw [Piece.chars_cons, List.append_assoc]
        exact separator.endsWord _
      · exact ⟨separator.standsBefore _, w.standsBefore h, trivial⟩
  | .generic base spaced arguments =>
      have harguments := separated_argumentPieces arguments spaced
        (endsWord_cons (show Text.isWord '>' = false by decide) rest)
      rw [QualifiedName.pieces]
      apply Piece.separated_append
      · apply base.separated
        exact endsWord_cons (by decide) _
      · refine ⟨Piece.standsBefore_symbol (by decide) _, ?_⟩
        apply Piece.separated_append harguments
        exact ⟨Piece.standsBefore_symbol (by decide) _, trivial⟩

theorem separated_argumentPieces (ns : List QualifiedName) (spaced : Bool) {rest : List Char}
    (h : EndsWord rest) : Piece.Separated (argumentPieces ns spaced) rest := by
  match ns with
  | [] =>
      rw [argumentPieces]
      trivial
  | [n] =>
      rw [argumentPieces]
      exact n.separated h
  | n :: m :: ns =>
      have hmore := separated_argumentPieces (m :: ns) spaced h
      rw [argumentPieces]
      apply Piece.separated_append
      · apply n.separated
        rw [Piece.chars_append, List.append_assoc]
        exact endsWord_commaPieces spaced _
      · apply Piece.separated_append _ hmore
        exact separated_commaPieces spaced (endsBlank_argumentPieces m ns spaced rest)

end

theorem inline_commaPieces (spaced : Bool) : Piece.Inline (commaPieces spaced) := by
  cases spaced <;> decide

mutual

theorem QualifiedName.inline (n : QualifiedName) : Piece.Inline n.pieces := by
  match n with
  | .word w =>
      rw [QualifiedName.pieces]
      exact w.inline
  | .member qualifier separator w =>
      have hseparator : Piece.Inline [separator.piece] := by
        cases separator <;> decide
      rw [QualifiedName.pieces]
      apply Piece.inline_append qualifier.inline
      exact Piece.inline_cons hseparator w.inline
  | .generic base spaced arguments =>
      have harguments := inline_argumentPieces arguments spaced
      rw [QualifiedName.pieces]
      apply Piece.inline_append base.inline
      exact Piece.inline_cons (by decide) (Piece.inline_append harguments (by decide))

theorem inline_argumentPieces (ns : List QualifiedName) (spaced : Bool) :
    Piece.Inline (argumentPieces ns spaced) := by
  match ns with
  | [] =>
      rw [argumentPieces]
      exact Piece.inline_nil
  | [n] =>
      rw [argumentPieces]
      exact n.inline
  | n :: m :: ns =>
      have hmore := inline_argumentPieces (m :: ns) spaced
      rw [argumentPieces]
      exact Piece.inline_append n.inline (Piece.inline_append (inline_commaPieces spaced) hmore)

end

/-! ## Layout of lines -/

def globalIdentifier : Identifier := ⟨"global", by decide⟩

def usingIdentifier : Identifier := ⟨"using", by decide⟩

def staticIdentifier : Identifier := ⟨"static", by decide⟩

/-- A word that may be left out, with a blank behind it. -/
def optionalWord (present : Bool) (w : Identifier) : List Piece :=
  if present then [w.piece, .blank 0] else []

def aliasPieces (aliasName : Option Identifier) : List Piece :=
  aliasName.elim [] fun a => [a.piece, .blank 0, .symbol ['='], .blank 0]

namespace Line

/-- The words in front of the name. -/
def front (l : Line) : List Piece :=
  optionalWord l.isGlobal globalIdentifier ++ (optionalWord true usingIdentifier ++
    (optionalWord l.isStatic staticIdentifier ++ aliasPieces l.aliasName))

def trail (l : Line) : List Piece :=
  l.comment.elim [] fun body => [.blank 1, .comment body.toList]

/-- The line without its line feed. -/
def content (l : Line) : List Piece :=
  l.front ++ (l.name.pieces ++ .symbol [';'] :: l.trail)

theorem chars_front (l : Line) :
    Piece.chars l.front = (if l.isGlobal then "global " else "").toList ++ ("using ".toList ++
      ((if l.isStatic then "static " else "").toList ++
        (l.aliasName.elim "" fun a => a.text ++ " = ").toList)) := by
  have halias : Piece.chars (aliasPieces l.aliasName) =
      (l.aliasName.elim "" fun a => a.text ++ " = ").toList := by
    cases l.aliasName with
    | none => rfl
    | some a => simp [aliasPieces, Identifier.piece, Piece.word, Piece.blank, Piece.symbol]
  have hglobal : Piece.chars (optionalWord l.isGlobal globalIdentifier) =
      (if l.isGlobal then "global " else "").toList := by
    cases l.isGlobal <;> rfl
  have hstatic : Piece.chars (optionalWord l.isStatic staticIdentifier) =
      (if l.isStatic then "static " else "").toList := by
    cases l.isStatic <;> rfl
  rw [front, Piece.chars_append, Piece.chars_append, Piece.chars_append, hglobal, hstatic, halias]
  rfl

theorem chars_phrase (l : Line) :
    Piece.chars l.front ++ (Piece.chars l.name.pieces ++ [';']) = l.phrase.toList := by
  simp [chars_front, QualifiedName.chars_pieces, phrase]

theorem chars_content (l : Line) :
    Piece.chars l.content ++ ['\n'] = l.print.toList := by
  have htrail : Piece.chars l.trail = (l.comment.elim "" fun body => "  //" ++ body).toList := by
    unfold trail
    cases l.comment with
    | none => rfl
    | some body => simp [Piece.blank, Piece.comment]
  have hphrase := l.chars_phrase
  simp only [print, String.toList_append, ← hphrase, ← htrail, content, Piece.chars_append,
    Piece.chars_cons, List.append_assoc]
  rfl

/-! ## The lexer gives the line back -/

theorem separated_optionalWord (present : Bool) (w : Identifier) {rest : List Char}
    (h : EndsBlank rest) : Piece.Separated (optionalWord present w) rest := by
  cases present with
  | false => trivial
  | true =>
      exact ⟨w.standsBefore (endsWord_cons (by decide) _), Piece.standsBefore_blank 0 h, trivial⟩

theorem endsBlank_optionalWord (present : Bool) (w : Identifier) {rest : List Char}
    (h : EndsBlank rest) : EndsBlank (Piece.chars (optionalWord present w) ++ rest) := by
  cases present with
  | false => exact h
  | true =>
      rw [optionalWord, if_pos rfl, Piece.chars_cons, List.append_assoc]
      exact w.endsBlank _

theorem separated_aliasPieces (aliasName : Option Identifier) {rest : List Char}
    (h : EndsBlank rest) : Piece.Separated (aliasPieces aliasName) rest := by
  cases aliasName with
  | none => trivial
  | some a =>
      refine ⟨a.standsBefore (endsWord_cons (by decide) _), ?_, ?_, ?_, trivial⟩
      · exact Piece.standsBefore_blank 0 (endsBlank_cons (by decide) _)
      · exact Piece.standsBefore_symbol (by decide) _
      · exact Piece.standsBefore_blank 0 h

theorem endsBlank_aliasPieces (aliasName : Option Identifier) {rest : List Char}
    (h : EndsBlank rest) : EndsBlank (Piece.chars (aliasPieces aliasName) ++ rest) := by
  cases aliasName with
  | none => exact h
  | some a =>
      rw [aliasPieces, Option.elim_some, Piece.chars_cons, List.append_assoc]
      exact a.endsBlank _

theorem separated_front (l : Line) {rest : List Char} (h : EndsBlank rest) :
    Piece.Separated l.front rest := by
  have halias := endsBlank_aliasPieces l.aliasName h
  have hstatic := endsBlank_optionalWord l.isStatic staticIdentifier halias
  have husing := endsBlank_optionalWord true usingIdentifier hstatic
  unfold front
  apply Piece.separated_append
  · apply separated_optionalWord
    rw [Piece.chars_append, Piece.chars_append, List.append_assoc, List.append_assoc]
    exact husing
  · apply Piece.separated_append
    · apply separated_optionalWord
      rw [Piece.chars_append, List.append_assoc]
      exact hstatic
    · apply Piece.separated_append
      · exact separated_optionalWord _ _ halias
      · exact separated_aliasPieces _ h

theorem separated_trail (l : Line) (rest : List Char) :
    Piece.Separated l.trail ('\n' :: rest) := by
  have hinline := l.inline
  unfold trail
  cases hcomment : l.comment with
  | none => trivial
  | some body =>
      rw [hcomment] at hinline
      refine ⟨Piece.standsBefore_blank 1 (endsBlank_cons (by decide) _), ?_, trivial⟩
      apply Piece.standsBefore_comment (hinline body rfl)
      intro c hc
      cases hc
      decide

theorem separated_content (l : Line) (rest : List Char) :
    Piece.Separated l.content ('\n' :: rest) := by
  unfold content
  apply Piece.separated_append
  · apply l.separated_front
    rw [Piece.chars_append, List.append_assoc]
    exact l.name.endsBlank _
  · apply Piece.separated_append
    · apply l.name.separated
      exact endsWord_cons (by decide) _
    · exact ⟨Piece.standsBefore_symbol (by decide) _, l.separated_trail rest⟩

theorem inline_optionalWord (present : Bool) (w : Identifier) :
    Piece.Inline (optionalWord present w) := by
  cases present with
  | false => exact Piece.inline_nil
  | true => exact Piece.inline_cons w.inline (by decide)

theorem inline_front (l : Line) : Piece.Inline l.front := by
  have halias : Piece.Inline (aliasPieces l.aliasName) := by
    cases l.aliasName with
    | none => exact Piece.inline_nil
    | some a => exact Piece.inline_cons a.inline (by decide)
  unfold front
  apply Piece.inline_append (inline_optionalWord _ _)
  apply Piece.inline_append (inline_optionalWord _ _)
  exact Piece.inline_append (inline_optionalWord _ _) halias

theorem inline_trail (l : Line) : Piece.Inline l.trail := by
  have hinline := l.inline
  unfold trail
  cases hcomment : l.comment with
  | none => exact Piece.inline_nil
  | some body =>
      rw [hcomment] at hinline
      apply Piece.inline_cons (by decide)
      intro c hc
      rw [Piece.chars_cons, Piece.chars_nil, List.append_nil] at hc
      rcases List.mem_cons.1 hc with rfl | hc
      · decide
      · rcases List.mem_cons.1 hc with rfl | hc
        · decide
        · exact hinline body rfl c hc

theorem inline_content (l : Line) : Piece.Inline l.content := by
  apply Piece.inline_append l.inline_front
  apply Piece.inline_append l.name.inline
  exact Piece.inline_cons (by decide) l.inline_trail

/-- A printed line at the start of a text. -/
theorem tokensFrom_print (l : Line) (number offset : Nat) (fresh : Bool) (rest : List Char) :
    tokensFrom ⟨number, 0, offset⟩ fresh (l.print.toList ++ rest) =
      Piece.tokens ⟨number, 0, offset⟩ l.content ++
        ⟨.newline, "\n", Piece.stop ⟨number, 0, offset⟩ l.content⟩ ::
          tokensFrom ⟨number + 1, 0, offset + l.print.toList.length⟩ true rest := by
  have htext : l.print.toList ++ rest = Piece.chars l.content ++ '\n' :: rest := by
    rw [← chars_content, List.append_assoc]
    rfl
  have hstop : (Piece.stop ⟨number, 0, offset⟩ l.content).advance ['\n'] =
      ⟨number + 1, 0, offset + l.print.toList.length⟩ := by
    rw [Piece.stop_of_inline l.inline_content, ← chars_content, List.length_append]
    rfl
  have hfeed : tokensFrom (Piece.stop ⟨number, 0, offset⟩ l.content)
      (Piece.freshAfter fresh l.content) ('\n' :: rest) =
        ⟨.newline, "\n", Piece.stop ⟨number, 0, offset⟩ l.content⟩ ::
          tokensFrom ((Piece.stop ⟨number, 0, offset⟩ l.content).advance ['\n']) true rest :=
    Piece.tokensFrom_piece (Piece.standsBefore_lineFeed rest) _ _
  rw [htext, Piece.tokensFrom_chars (l.separated_content rest), hfeed, hstop]

end Line

end UsingStyle
