import Mathlib.Data.List.TakeWhile
import UsingStyle.FileTree.Select
import UsingStyle.Proofs.Path

/-! # Selections of files

A selection is in increasing order, and it holds a path if and only if the path is that of a file
that an include pattern hits and no exclude pattern does, under whatever spelling. So the sets of
patterns settle it, and it grows with the include patterns and shrinks with the exclude patterns.
There is none if and only if a pattern asks to list a directory whose name holds the null character.
-/

namespace UsingStyle

/-! ## Patterns -/

namespace Pattern

/-- No name that the component asks for holds a slash. -/
def Component.IsSpelt : Component → Prop
  | .name part => '/' ∉ part.toList
  | _ => True

theorem Component.isSpelt_ofText {cs : List Char} (h : '/' ∉ cs) : (ofText cs).IsSpelt := by
  unfold ofText
  split
  · trivial
  · split
    · trivial
    · rwa [IsSpelt, String.toList_ofList]

theorem Component.isSpelt_of_mem_listOfText {s : String} {c : Component}
    (h : c ∈ listOfText s) : c.IsSpelt := by
  rcases List.mem_append.1 h with hname | hslash
  · obtain ⟨piece, hpiece, rfl⟩ := List.mem_map.1 hname
    exact isSpelt_ofText (Path.slash_notMem_of_mem_splitSlashes (List.mem_filter.1 hpiece).1)
  · split at hslash
    · rw [List.mem_singleton.1 hslash]
      trivial
    · contradiction

theorem isSpelt_ofText {root : Path} (hroot : root.IsSpelt) (s : String) :
    (ofText root s).1.IsSpelt ∧ ∀ c ∈ (ofText root s).2, c.IsSpelt := by
  have hanchor := Path.anchorOf_mem s.toList
  unfold ofText
  split
  case h_1 =>
    refine ⟨⟨hroot.anchor_mem, by simp⟩, fun c hc => ?_⟩
    rcases List.mem_append.1 hc with hname | hpattern
    · obtain ⟨part, hpart, rfl⟩ := List.mem_map.1 hname
      exact hroot.slash_notMem part hpart
    · exact Component.isSpelt_of_mem_listOfText hpattern
  case h_2 =>
    exact ⟨⟨hanchor, by simp⟩, fun c hc => Component.isSpelt_of_mem_listOfText hc⟩

/-- The pattern lists a directory whose name holds the null character: a name in front of the first
component that lists is one with that character. -/
def ListsNull (root : Path) (s : String) : Prop :=
  ∃ front lister behind, (ofText root s).2 = front ++ lister :: behind ∧ lister.lists ∧
    (∀ c ∈ front, ¬ c.lists) ∧ ∃ part, .name part ∈ front ∧ '\x00' ∈ part.toList

theorem listsNull_iff {root : Path} {s : String} : listsNull root s ↔ ListsNull root s := by
  unfold listsNull ListsNull
  generalize (ofText root s).2 = components
  simp only [Bool.and_eq_true, List.any_eq_true]
  constructor
  · rintro ⟨⟨c, hc, hlists⟩, name, hname, hnull⟩
    have hrest : components.dropWhile (fun c => !c.lists) ≠ [] := by
      intro hnil
      have hnone := List.dropWhile_eq_nil_iff.1 hnil c hc
      simp [hlists] at hnone
    obtain ⟨lister, behind, hcons⟩ := List.exists_cons_of_ne_nil hrest
    refine ⟨components.takeWhile fun c => !c.lists, lister, behind, ?_, ?_, ?_, ?_⟩
    · rw [← hcons, List.takeWhile_append_dropWhile]
    · have hhead := List.head_dropWhile_not (fun c : Component => !c.lists) hrest
      simpa [hcons] using hhead
    · intro d hd
      simpa using List.all_eq_true.1 List.all_takeWhile d hd
    · split at hnull
      case h_1 part => exact ⟨part, hname, by simpa using hnull⟩
      case h_2 => contradiction
  · rintro ⟨front, lister, behind, rfl, hlists, hfront, part, hpart, hnull⟩
    have hnames : (front ++ lister :: behind).takeWhile (fun c => !c.lists) = front := by
      rw [List.takeWhile_append_of_pos (by simpa using hfront),
        List.takeWhile_cons_of_neg (by simpa using hlists), List.append_nil]
    refine ⟨⟨lister, by simp, hlists⟩, .name part, ?_, ?_⟩
    · rwa [hnames]
    · simpa using hnull

end Pattern

namespace FileTree

open Pattern

/-! ## Hits -/

/-- No name in the tree holds a slash. -/
def IsSpelt (t : FileTree) : Prop :=
  ∀ e ∈ t.entries, ∀ part ∈ e.1, '/' ∉ part.toList

instance (t : FileTree) : Decidable t.IsSpelt :=
  inferInstanceAs (Decidable (∀ e ∈ t.entries, ∀ part ∈ e.1, '/' ∉ part.toList))

variable {t : FileTree} {root : Path}

theorem IsSpelt.slash_notMem_of_mem_names (ht : t.IsSpelt) {l : Location} {name : String}
    (h : name ∈ t.names l) : '/' ∉ name.toList := by
  obtain ⟨e, he, hname⟩ := List.mem_filterMap.1 h
  split at hname
  case h_1 last hlast =>
    split at hname
    · rw [← Option.some.inj hname]
      exact ht e he last (List.mem_of_getLast? hlast)
    · contradiction
  case h_2 => contradiction

theorem IsSpelt.slash_notMem_of_mem_descents (ht : t.IsSpelt) {l way : Location}
    (h : way ∈ t.descents l) : ∀ part ∈ way, '/' ∉ part.toList := by
  obtain ⟨e, he, hway⟩ := List.mem_filterMap.1 h
  split at hway
  · rw [← Option.some.inj hway]
    exact fun part hpart => ht e he part (List.mem_of_mem_drop hpart)
  · contradiction

theorem IsSpelt.extend (ht : t.IsSpelt) {c : Component} (hc : c.IsSpelt) {p q : Path}
    (hp : p.IsSpelt) (hq : q ∈ t.extend c p) : q.IsSpelt := by
  unfold FileTree.extend at hq
  split at hq
  · contradiction
  · split at hq
    case h_1 | h_2 => rwa [List.mem_singleton.1 hq]
    case h_3 part _ =>
      split at hq
      · rw [List.mem_singleton.1 hq]
        exact hp.push hc
      · contradiction
    case h_4 =>
      obtain ⟨name, hname, rfl⟩ := List.mem_map.1 hq
      exact hp.push (ht.slash_notMem_of_mem_names (List.mem_filter.1 hname).1)
    case h_5 =>
      rcases List.mem_cons.1 hq with rfl | hbelow
      · exact hp
      · obtain ⟨way, hway, rfl⟩ := List.mem_map.1 hbelow
        exact hp.append (ht.slash_notMem_of_mem_descents (List.mem_filter.1 hway).1)

theorem IsSpelt.foldl_extend (ht : t.IsSpelt) {components : List Component}
    (hcomponents : ∀ c ∈ components, c.IsSpelt) {ps : List Path} (hps : ∀ p ∈ ps, p.IsSpelt) :
    ∀ q ∈ components.foldl (fun ps c => ps.flatMap (t.extend c)) ps, q.IsSpelt := by
  induction components generalizing ps with
  | nil => exact hps
  | cons c components ih =>
      obtain ⟨hc, hrest⟩ := List.forall_mem_cons.1 hcomponents
      refine ih hrest fun q hq => ?_
      obtain ⟨p, hp, hextend⟩ := List.mem_flatMap.1 hq
      exact ht.extend hc (hps p hp) hextend

theorem IsSpelt.hits (ht : t.IsSpelt) (hroot : root.IsSpelt) {pattern : String} {p : Path}
    (hp : p ∈ t.hits root pattern) : p.IsSpelt := by
  obtain ⟨hstart, hcomponents⟩ := isSpelt_ofText hroot pattern
  have hsingle : ∀ q ∈ [(ofText root pattern).1], q.IsSpelt := by
    rintro q (_ | ⟨_, ⟨⟩⟩)
    exact hstart
  exact ht.foldl_extend hcomponents hsingle p hp

/-- The path is that of a file, and one of the patterns hits it. -/
def HitsFile (t : FileTree) (root : Path) (patterns : List String) (p : Path) : Prop :=
  t.isFile (t.locate p) ∧ ∃ pattern ∈ patterns, p ∈ t.hits root pattern

theorem HitsFile.mono {patterns patterns' : List String} (h : patterns ⊆ patterns') {p : Path}
    (hp : t.HitsFile root patterns p) : t.HitsFile root patterns' p := by
  obtain ⟨hfile, pattern, hpattern, hhit⟩ := hp
  exact ⟨hfile, pattern, h hpattern, hhit⟩

theorem mem_files {patterns : List String} {p : Path} :
    p ∈ t.files root patterns ↔ t.HitsFile root patterns p := by
  rw [files, Path.mem_sortUnique, List.mem_filter, List.mem_flatMap, HitsFile, and_comm]

theorem pairwise_files (ht : t.IsSpelt) (hroot : root.IsSpelt) (patterns : List String) :
    (t.files root patterns).Pairwise fun p q => p.key < q.key := by
  refine Path.pairwise_sortUnique fun p hp => ?_
  obtain ⟨pattern, -, hhit⟩ := List.mem_flatMap.1 (List.mem_filter.1 hp).1
  exact ht.hits hroot hhit

theorem files_congr (ht : t.IsSpelt) (hroot : root.IsSpelt) {patterns patterns' : List String}
    (h : ∀ pattern, pattern ∈ patterns ↔ pattern ∈ patterns') :
    t.files root patterns = t.files root patterns' := by
  refine (pairwise_files ht hroot patterns).eq_of_mem_iff (pairwise_files ht hroot patterns') ?_
  intro p
  rw [mem_files, mem_files]
  exact ⟨.mono fun i hi => (h i).1 hi, .mono fun i hi => (h i).2 hi⟩

/-! ## Selections -/

theorem mem_select {includes excludes : List String} {p : Path} :
    p ∈ (t.select root includes excludes).paths ↔
      t.HitsFile root includes p ∧
        ¬ ∃ q, t.HitsFile root excludes q ∧ t.locate q = t.locate p := by
  simp only [select, List.mem_filter, mem_files, Bool.not_eq_true', List.contains_eq_mem,
    decide_eq_false_iff_not, List.mem_map]

theorem pairwise_select (ht : t.IsSpelt) (hroot : root.IsSpelt) (includes excludes : List String) :
    (t.select root includes excludes).paths.Pairwise fun p q => p.key < q.key :=
  (pairwise_files ht hroot includes).filter _

theorem select?_eq_none_iff {includes excludes : List String} :
    t.select? root includes excludes = none ↔
      ∃ pattern ∈ includes ++ excludes, ListsNull root pattern := by
  simp only [select?, ite_eq_left_iff, reduceCtorEq, imp_false, not_not, List.any_eq_true,
    listsNull_iff]

theorem select_of_select? {includes excludes : List String} {s : Selection}
    (h : t.select? root includes excludes = some s) : s = t.select root includes excludes := by
  unfold select? at h
  split at h
  · contradiction
  · exact (Option.some.inj h).symm

theorem select?_congr (ht : t.IsSpelt) (hroot : root.IsSpelt)
    {includes includes' excludes excludes' : List String}
    (hincludes : ∀ i, i ∈ includes ↔ i ∈ includes')
    (hexcludes : ∀ e, e ∈ excludes ↔ e ∈ excludes') :
    t.select? root includes excludes = t.select? root includes' excludes' := by
  have hany : (includes ++ excludes).any (listsNull root) =
      (includes' ++ excludes').any (listsNull root) := by
    rw [Bool.eq_iff_iff]
    simp only [List.any_eq_true, List.mem_append, hincludes, hexcludes]
  have hselect : t.select root includes excludes = t.select root includes' excludes' := by
    rw [select, select, files_congr ht hroot hincludes, files_congr ht hroot hexcludes]
  rw [select?, select?, hany, hselect]

theorem select_mono {includes includes' excludes : List String} (h : includes ⊆ includes') :
    (t.select root includes excludes).paths ⊆ (t.select root includes' excludes).paths := by
  intro p hp
  obtain ⟨hhit, hfree⟩ := mem_select.1 hp
  exact mem_select.2 ⟨hhit.mono h, hfree⟩

theorem select_anti {includes excludes excludes' : List String} (h : excludes ⊆ excludes') :
    (t.select root includes excludes').paths ⊆ (t.select root includes excludes).paths := by
  intro p hp
  obtain ⟨hhit, hfree⟩ := mem_select.1 hp
  refine mem_select.2 ⟨hhit, ?_⟩
  rintro ⟨q, hq, hsame⟩
  exact hfree ⟨q, hq.mono h, hsame⟩

/-- Unless a pattern lists a directory whose name holds the null character, there is a selection. It
is in increasing order and holds the files that an include pattern hits and no exclude pattern does.
It does not depend on the order or repetition of patterns, more include patterns remove nothing from
it, and more exclude patterns add nothing to it. -/
theorem select?_increasing_and_mem_iff (ht : t.IsSpelt) (hroot : root.IsSpelt)
    (includes excludes : List String) :
    (t.select? root includes excludes = none ↔
        ∃ pattern ∈ includes ++ excludes, ListsNull root pattern) ∧
      (∀ s, t.select? root includes excludes = some s →
        (s.paths.Pairwise fun p q => p.key < q.key) ∧
          ∀ p, p ∈ s.paths ↔ t.HitsFile root includes p ∧
            ¬ ∃ q, t.HitsFile root excludes q ∧ t.locate q = t.locate p) ∧
      (∀ includes' excludes', (∀ i, i ∈ includes ↔ i ∈ includes') →
        (∀ e, e ∈ excludes ↔ e ∈ excludes') →
          t.select? root includes excludes = t.select? root includes' excludes') ∧
      (∀ includes' s s', includes ⊆ includes' → t.select? root includes excludes = some s →
        t.select? root includes' excludes = some s' → s.paths ⊆ s'.paths) ∧
      (∀ excludes' s s', excludes ⊆ excludes' → t.select? root includes excludes = some s →
        t.select? root includes excludes' = some s' → s'.paths ⊆ s.paths) := by
  refine ⟨select?_eq_none_iff, ?_, fun _ _ => select?_congr ht hroot, ?_, ?_⟩
  · rintro s hs
    obtain rfl := select_of_select? hs
    exact ⟨pairwise_select ht hroot includes excludes, fun p => mem_select⟩
  · intro includes' s s' hmore hs hs'
    obtain rfl := select_of_select? hs
    obtain rfl := select_of_select? hs'
    exact select_mono hmore
  · intro excludes' s s' hmore hs hs'
    obtain rfl := select_of_select? hs
    obtain rfl := select_of_select? hs'
    exact select_anti hmore

/-- A directory with a file in it, and two files beside it, one with a name that starts alike. -/
def dottedNames : FileTree where
  entries := [(["w"], .directory), (["w", "a"], .directory), (["w", "a", "b.cs"], .file []),
    (["w", "a-b.cs"], .file []), (["w", "c.cs"], .file [])]
  workingDirectory := ["w"]

/-- Files under several spellings, one of them excluded under yet another. -/
theorem select?_dottedNames :
    dottedNames.IsSpelt ∧ (Path.ofString "").IsSpelt ∧
      ∃ s, dottedNames.select? (Path.ofString "") ["**/*.cs", "a/../a*"] ["//w//a/../c?cs"] =
          some s ∧
        (s.paths.Pairwise fun p q => p.key < q.key) ∧
        dottedNames.HitsFile (Path.ofString "") ["**/*.cs", "a/../a*"]
          (Path.ofString "a/../a-b.cs") ∧
        dottedNames.select? (Path.ofString "") ["a/../a*", "**/*.cs", "a/../a*"]
          ["//w//a/../c?cs"] = some s ∧
        ∃ s', dottedNames.select? (Path.ofString "") ["**/*.cs", "a/../a*"]
            ["a/*", "//w//a/../c?cs"] = some s' ∧ s'.paths ⊆ s.paths := by
  have ht : dottedNames.IsSpelt := by decide +kernel
  have hroot := Path.isSpelt_ofString ""
  have hs : dottedNames.select? (Path.ofString "") ["**/*.cs", "a/../a*"] ["//w//a/../c?cs"] =
      some ⟨[Path.ofString "a/../a-b.cs", Path.ofString "a/b.cs", Path.ofString "a-b.cs"], 4⟩ := by
    decide +kernel
  have hs' : dottedNames.select? (Path.ofString "") ["**/*.cs", "a/../a*"]
      ["a/*", "//w//a/../c?cs"] =
        some ⟨[Path.ofString "a/../a-b.cs", Path.ofString "a-b.cs"], 4⟩ := by
    decide +kernel
  obtain ⟨-, hlist, hsame, -, hanti⟩ :=
    select?_increasing_and_mem_iff ht hroot ["**/*.cs", "a/../a*"] ["//w//a/../c?cs"]
  obtain ⟨hincreasing, hmem⟩ := hlist _ hs
  have hhit := ((hmem (Path.ofString "a/../a-b.cs")).1 (by decide +kernel)).1
  have horder := hsame ["a/../a*", "**/*.cs", "a/../a*"] ["//w//a/../c?cs"] (by simp [or_comm])
    (fun _ => Iff.rfl)
  exact ⟨ht, hroot, _, hs, hincreasing, hhit, horder.symm.trans hs, _, hs',
    hanti _ _ _ (by simp) hs hs'⟩

/-- A pattern that asks to list a directory with the null character in its name. -/
theorem not_forall_exists_select? :
    ¬ ∀ (t : FileTree) (root : Path) (includes excludes : List String), t.IsSpelt →
      root.IsSpelt → ∃ s, t.select? root includes excludes = some s := by
  intro h
  obtain ⟨s, hs⟩ := h empty (Path.ofString "/") ["a\x00b/*"] [] (by decide)
    (Path.isSpelt_ofString "/")
  have hnone : empty.select? (Path.ofString "/") ["a\x00b/*"] [] = none := by decide +kernel
  rw [hnone] at hs
  contradiction

end FileTree
end UsingStyle
