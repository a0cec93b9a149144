import UsingStyle.Proofs.Directive.Printed
import UsingStyle.Proofs.Directive.Terminal

/-! # Written names

A qualified name is written as a row of segments. A segment is a word with lists of type arguments
behind it, whose content is free as long as its brackets match, and blanks may stand anywhere
between these parts. The terminal name of a written name is the word of its last segment: what
stands in the lists does not count, however it is nested, and the blanks are trimmed.
-/

namespace UsingStyle

open Text

/-! ## Parts of names -/

/-- From the left never more lists are closed than opened, and in all as many. -/
structure BracketsMatch (cs : List Char) : Prop where
  count_le : ∀ k, k ≤ cs.length → (cs.take k).count '>' ≤ (cs.take k).count '<'
  count_eq : cs.count '<' = cs.count '>'

instance (cs : List Char) : Decidable (BracketsMatch cs) :=
  decidable_of_iff ((∀ k, k ≤ cs.length → (cs.take k).count '>' ≤ (cs.take k).count '<') ∧
      cs.count '<' = cs.count '>')
    ⟨fun h => ⟨h.1, h.2⟩, fun h => ⟨h.count_le, h.count_eq⟩⟩

/-- A run of blanks, line breaks included. -/
structure Blanks where
  chars : List Char
  blank : ∀ c ∈ chars, isBlank c = true

/-- A word of any word characters, which may be marked as no keyword. -/
structure SegmentWord where
  marked : Bool
  letters : List Char
  ne_nil : letters ≠ []
  word : ∀ c ∈ letters, isWord c = true

def SegmentWord.chars (w : SegmentWord) : List Char :=
  if w.marked then '@' :: w.letters else w.letters

/-- A list of type arguments of any content, with the blanks behind it. -/
structure ArgumentList where
  content : List Char
  brackets : BracketsMatch content
  after : Blanks

def ArgumentList.chars (l : ArgumentList) : List Char :=
  '<' :: (l.content ++ '>' :: l.after.chars)

/-- A segment with blanks around its word and its lists. -/
structure WrittenSegment where
  before : Blanks
  word : SegmentWord
  after : Blanks
  lists : List ArgumentList

def WrittenSegment.chars (s : WrittenSegment) : List Char :=
  s.before.chars ++ (s.word.chars ++ (s.after.chars ++ s.lists.flatMap ArgumentList.chars))

/-- Segments with separators between them. -/
inductive WrittenName where
  | single (segment : WrittenSegment)
  | member (qualifier : WrittenName) (separator : Separator) (segment : WrittenSegment)

namespace WrittenName

def chars : WrittenName → List Char
  | single s => s.chars
  | member qualifier separator s => qualifier.chars ++ (separator.text.toList ++ s.chars)

def text (n : WrittenName) : String :=
  String.ofList n.chars

/-- The last segment. -/
def last : WrittenName → WrittenSegment
  | single s | member _ _ s => s

end WrittenName

/-! ## Inside the lists -/

theorem dropTypeArguments_open (depth : Nat) (cs : List Char) :
    dropTypeArguments depth ('<' :: cs) = dropTypeArguments (depth + 1) cs := rfl

theorem dropTypeArguments_close (depth : Nat) (cs : List Char) :
    dropTypeArguments (depth + 1) ('>' :: cs) = dropTypeArguments depth cs := rfl

/-- Characters inside a list that never close it are dropped, and the lists that they open and close
are counted. -/
theorem dropTypeArguments_inside {depth final : Nat} {cs : List Char}
    (h : ∀ k, k ≤ cs.length → (cs.take k).count '>' ≤ (cs.take k).count '<' + depth)
    (hfinal : depth + cs.count '<' = final + cs.count '>') (more : List Char) :
    dropTypeArguments (depth + 1) (cs ++ more) = dropTypeArguments (final + 1) more := by
  induction cs generalizing depth with
  | nil =>
      have hdepth : depth = final := hfinal
      rw [hdepth, List.nil_append]
  | cons c cs ih =>
      have hstep : ∀ k, k ≤ cs.length → (cs.take k).count '>' + (if c = '>' then 1 else 0) ≤
          (cs.take k).count '<' + (if c = '<' then 1 else 0) + depth := by
        intro k hk
        simpa [List.count_cons] using h (k + 1) (Nat.succ_le_succ hk)
      have hcount : depth + (cs.count '<' + (if c = '<' then 1 else 0)) =
          final + (cs.count '>' + (if c = '>' then 1 else 0)) := by
        simpa [List.count_cons] using hfinal
      rw [List.cons_append]
      by_cases hopen : c = '<'
      · subst hopen
        simp only [if_pos, Char.reduceEq, if_false] at hstep hcount
        rw [dropTypeArguments_open]
        refine ih (fun k hk => ?_) (by omega)
        have hk := hstep k hk
        omega
      · by_cases hclose : c = '>'
        · subst hclose
          simp only [if_pos, Char.reduceEq, if_false] at hstep hcount
          -- some list is open besides the outermost one
          obtain ⟨inner, rfl⟩ : ∃ inner, depth = inner + 1 := by
            have hfirst := hstep 0 (Nat.zero_le _)
            rw [List.take_zero, List.count_nil, List.count_nil] at hfirst
            exact ⟨depth - 1, by omega⟩
          rw [dropTypeArguments_close]
          refine ih (fun k hk => ?_) (by omega)
          have hk := hstep k hk
          omega
        · simp only [if_neg hopen, if_neg hclose] at hstep hcount
          have hc : dropTypeArguments (depth + 1) (c :: (cs ++ more)) =
              dropTypeArguments (depth + 1) (cs ++ more) := by
            simp [dropTypeArguments, hopen, hclose]
          rw [hc]
          exact ih hstep hcount

namespace ArgumentList

theorem dropTypeArguments_chars (l : ArgumentList) (more : List Char) :
    dropTypeArguments 0 (l.chars ++ more) = dropTypeArguments 0 (l.after.chars ++ more) := by
  have hbalance : 0 + l.content.count '<' = 0 + l.content.count '>' := by
    rw [l.brackets.count_eq]
  have hinside := dropTypeArguments_inside l.brackets.count_le hbalance
    ('>' :: (l.after.chars ++ more))
  rw [chars, List.cons_append, dropTypeArguments_open, List.append_assoc, List.cons_append, hinside,
    dropTypeArguments_close]

end ArgumentList

/-! ## Outside the lists -/

theorem Blanks.not_mem (b : Blanks) {c : Char} (h : isBlank c = false) : c ∉ b.chars := by
  intro hmem
  rw [b.blank c hmem] at h
  contradiction

theorem Blanks.dropTypeArguments_chars (b : Blanks) (more : List Char) :
    dropTypeArguments 0 (b.chars ++ more) = b.chars ++ dropTypeArguments 0 more :=
  dropTypeArguments_append (b.not_mem (by decide)) (b.not_mem (by decide)) 0 more

namespace SegmentWord

theorem mem_chars (w : SegmentWord) {c : Char} (h : c ∈ w.chars) : c = '@' ∨ isWord c = true := by
  unfold chars at h
  split at h
  · exact (List.mem_cons.1 h).imp_right (w.word c)
  · exact .inr (w.word c h)

theorem chars_ne_nil (w : SegmentWord) : w.chars ≠ [] := by
  unfold chars
  split
  · exact List.cons_ne_nil _ _
  · exact w.ne_nil

theorem isBlank_eq_false (w : SegmentWord) {c : Char} (h : c ∈ w.chars) : isBlank c = false := by
  rw [Bool.eq_false_iff]
  intro hblank
  rcases w.mem_chars h with rfl | hword
  · exact absurd hblank (by decide)
  · rw [isWord_eq_false_of_isBlank hblank] at hword
    contradiction

theorem dropTypeArguments_chars (w : SegmentWord) (more : List Char) :
    dropTypeArguments 0 (w.chars ++ more) = w.chars ++ dropTypeArguments 0 more := by
  refine dropTypeArguments_append (fun hopen => ?_) (fun hclose => ?_) 0 more
  · exact absurd (w.mem_chars hopen) (by decide +kernel)
  · exact absurd (w.mem_chars hclose) (by decide +kernel)

end SegmentWord

theorem ArgumentList.dropTypeArguments_flatMap (ls : List ArgumentList) (more : List Char) :
    dropTypeArguments 0 (ls.flatMap chars ++ more) =
      (ls.flatMap fun l => l.after.chars) ++ dropTypeArguments 0 more := by
  induction ls with
  | nil => rfl
  | cons l ls ih =>
      rw [List.flatMap_cons, List.append_assoc, l.dropTypeArguments_chars,
        l.after.dropTypeArguments_chars, ih, List.flatMap_cons, List.append_assoc]

namespace WrittenSegment

/-- The segment without its lists. -/
def outside (s : WrittenSegment) : List Char :=
  s.before.chars ++ (s.word.chars ++ (s.after.chars ++ s.lists.flatMap fun l => l.after.chars))

theorem dropTypeArguments_chars (s : WrittenSegment) (more : List Char) :
    dropTypeArguments 0 (s.chars ++ more) = s.outside ++ dropTypeArguments 0 more := by
  simp only [chars, outside, List.append_assoc, s.before.dropTypeArguments_chars,
    s.word.dropTypeArguments_chars, s.after.dropTypeArguments_chars,
    ArgumentList.dropTypeArguments_flatMap]

theorem mem_outside (s : WrittenSegment) {c : Char} (h : c ∈ s.outside) :
    isBlank c = true ∨ c = '@' ∨ isWord c = true := by
  simp only [outside, List.mem_append, List.mem_flatMap] at h
  rcases h with h | h | h | ⟨l, _, h⟩
  · exact .inl (s.before.blank c h)
  · exact .inr (s.word.mem_chars h)
  · exact .inl (s.after.blank c h)
  · exact .inl (l.after.blank c h)

theorem dot_not_mem_outside (s : WrittenSegment) : '.' ∉ s.outside :=
  fun h => absurd (s.mem_outside h) (by decide +kernel)

theorem colon_not_mem_outside (s : WrittenSegment) : ':' ∉ s.outside :=
  fun h => absurd (s.mem_outside h) (by decide +kernel)

theorem outside_ne_nil (s : WrittenSegment) : s.outside ≠ [] := by
  intro hnil
  have hrest := (List.append_eq_nil_iff.1 hnil).2
  exact s.word.chars_ne_nil (List.append_eq_nil_iff.1 hrest).1

theorem trim_outside (s : WrittenSegment) :
    trim (String.ofList s.outside) = String.ofList s.word.chars := by
  refine trim_between_blanks s.word.chars_ne_nil (fun c hc => ?_) (fun c hc => ?_) s.before.blank
    (fun c hc => ?_)
  · exact s.word.isBlank_eq_false (List.mem_of_mem_head? hc)
  · exact s.word.isBlank_eq_false (List.mem_of_getLast? hc)
  · rcases List.mem_append.1 hc with hc | hc
    · exact s.after.blank c hc
    · obtain ⟨l, _, hc⟩ := List.mem_flatMap.1 hc
      exact l.after.blank c hc

end WrittenSegment

namespace WrittenName

/-- The name without its lists. -/
def outside : WrittenName → List Char
  | single s => s.outside
  | member qualifier separator s => qualifier.outside ++ (separator.text.toList ++ s.outside)

theorem dropTypeArguments_chars (n : WrittenName) (more : List Char) :
    dropTypeArguments 0 (n.chars ++ more) = n.outside ++ dropTypeArguments 0 more := by
  induction n generalizing more with
  | single s => exact s.dropTypeArguments_chars more
  | member qualifier separator s ih =>
      have hseparator : dropTypeArguments 0 (separator.text.toList ++ (s.chars ++ more)) =
          separator.text.toList ++ dropTypeArguments 0 (s.chars ++ more) := by
        cases separator <;> rfl
      rw [chars, List.append_assoc, ih, List.append_assoc, hseparator, s.dropTypeArguments_chars,
        outside, List.append_assoc, List.append_assoc]

/-- A name ends with its last segment, so not with a colon. -/
theorem getLast?_outside (n : WrittenName) : n.outside.getLast? = n.last.outside.getLast? := by
  cases n with
  | single s => rfl
  | member qualifier separator s =>
      rw [outside, ← List.append_assoc, List.getLast?_append_of_ne_nil _ s.outside_ne_nil]
      rfl

theorem lastSegment_outside (n : WrittenName) : lastSegment n.outside = n.last.outside := by
  cases n with
  | single s => exact lastSegment_of_plain s.dot_not_mem_outside s.colon_not_mem_outside
  | member qualifier separator s =>
      have hseparator : separator.text.toList = ['.'] ∨ separator.text.toList = [':', ':'] := by
        cases separator
        · exact .inl rfl
        · exact .inr rfl
      have hqualifier : qualifier.outside.getLast? ≠ some ':' := by
        rw [getLast?_outside]
        intro hlast
        exact qualifier.last.colon_not_mem_outside (List.mem_of_getLast? hlast)
      exact lastSegment_append hseparator (fun _ => hqualifier) s.dot_not_mem_outside
        s.colon_not_mem_outside

end WrittenName

/-- The terminal name of a written name is the word of its last segment, whatever stands in the
lists of type arguments and however many blanks stand between the parts. -/
theorem terminalName_writtenName (d : Directive) (n : WrittenName) :
    ({ d with name := n.text } : Directive).terminalName = String.ofList n.last.word.chars := by
  have hdrop : dropTypeArguments 0 n.chars = n.outside := by
    have hchars := n.dropTypeArguments_chars []
    rwa [dropTypeArguments, List.append_nil, List.append_nil] at hchars
  rw [Directive.terminalName, WrittenName.text, String.toList_ofList, hdrop, n.lastSegment_outside,
    n.last.trim_outside]

def noBlanks : Blanks :=
  ⟨[], List.forall_mem_nil _⟩

def oneBlank (c : Char) (h : isBlank c = true) : Blanks :=
  ⟨[c], List.forall_mem_singleton.2 h⟩

def oneLetter (marked : Bool) (c : Char) (h : isWord c = true) : SegmentWord :=
  ⟨marked, [c], List.cons_ne_nil c [], List.forall_mem_singleton.2 h⟩

/-- Three segments, with separators and further lists in their lists and blanks of several kinds. -/
def nestedName : WrittenName :=
  .member
    (.member
      (.single ⟨oneBlank '\t' (by decide), oneLetter false 'A' (by decide +kernel), noBlanks,
        [⟨" B::C<.,> ".toList, by decide +kernel, noBlanks⟩]⟩)
      .colons
      ⟨oneBlank '\u00a0' (by decide), oneLetter true '1' (by decide +kernel),
        oneBlank ' ' (by decide),
        [⟨['x'], by decide +kernel, oneBlank '\n' (by decide)⟩, ⟨[], by decide +kernel, noBlanks⟩]⟩)
    .dot
    ⟨oneBlank ' ' (by decide), oneLetter true 'é' (by decide +kernel), noBlanks,
      [⟨"<y>.z".toList, by decide +kernel, oneBlank ' ' (by decide)⟩]⟩

theorem terminalName_nestedName :
    nestedName.text = "\tA< B::C<.,> >::\u00a0@1 <x>\n<>. @é<<y>.z> " ∧
      (⟨"", "\tA< B::C<.,> >::\u00a0@1 <x>\n<>. @é<<y>.z> ", 0, 0, none, []⟩ :
        Directive).terminalName = "@é" := by
  have htext : nestedName.text = "\tA< B::C<.,> >::\u00a0@1 <x>\n<>. @é<<y>.z> " := by
    decide +kernel
  have hname := terminalName_writtenName ⟨"", "", 0, 0, none, []⟩ nestedName
  rw [htext] at hname
  exact ⟨htext, hname⟩

end UsingStyle
