import UsingStyle.Proofs.FileTree.Selection

/-! # Files under several spellings

A selection holds paths, and two paths may lead to one file: `a.cs` and `d/../a.cs` do, and so do
`/a.cs` and `//a.cs`. Exclude patterns are compared by the files that they lead to, include patterns
are not, so a file may be selected under each of its spellings. The names that a pattern finds by
itself never go up. So it takes a pattern that goes up, or two patterns that are read from different
places, to hit a file under two spellings.
-/

namespace UsingStyle

/-! ## Ways down -/

namespace Path

/-- The path with more parts. -/
def descend (p : Path) (way : List String) : Path :=
  { p with parts := p.parts ++ way }

@[simp] theorem descend_nil (p : Path) : p.descend [] = p := by
  simp [descend]

@[simp] theorem descend_descend (p : Path) (way more : List String) :
    (p.descend way).descend more = p.descend (way ++ more) := by
  simp [descend]

theorem push_eq_descend (p : Path) (part : String) : p.push part = p.descend [part] := rfl

theorem foldl_resolveStep {way : List String} (h : ".." ∉ way) (l : Location) :
    way.foldl resolveStep l = l ++ way := by
  induction way generalizing l with
  | nil => simp
  | cons part way ih =>
      obtain ⟨hpart, hway⟩ := not_or.1 (mt List.mem_cons.2 h)
      have hstep : resolveStep l part = l ++ [part] := by simp [resolveStep, Ne.symm hpart]
      rw [List.foldl_cons, hstep, ih hway, List.append_assoc, List.singleton_append]

end Path

/-! ## Patterns that go up -/

namespace Pattern

/-- A part of the pattern is the one that goes up. -/
def GoesUp (s : String) : Prop :=
  Component.name ".." ∈ Component.listOfText s

instance (s : String) : Decidable (GoesUp s) :=
  inferInstanceAs (Decidable (Component.name ".." ∈ Component.listOfText s))

/-- The anchor that the pattern itself has, if it is not read from the root path. -/
def anchor (s : String) : String :=
  Path.anchorOf s.toList

/-- The path from which a pattern is read: the root path, or the top for a pattern that starts with
a slash. -/
def origin (root : Path) (s : String) : Path :=
  if anchor s = "" then { root with parts := root.parts.filter (· != ".") } else ⟨anchor s, []⟩

theorem origin_congr {root : Path} {s s' : String} (h : anchor s = anchor s') :
    origin root s = origin root s' := by
  rw [origin, origin, h]

theorem ofText_of_relative {root : Path} {s : String} (h : anchor s = "") :
    ofText root s =
      (⟨root.anchor, []⟩, root.parts.map Component.name ++ Component.listOfText s) := by
  unfold ofText
  split
  case h_1 => rfl
  case h_2 hne => exact absurd h hne

theorem ofText_of_absolute {root : Path} {s : String} (h : anchor s ≠ "") :
    ofText root s = (⟨anchor s, []⟩, Component.listOfText s) := by
  unfold ofText
  split
  case h_1 heq => exact absurd heq h
  case h_2 => rfl

end Pattern

namespace FileTree

open Pattern

/-- No name in the tree is the part that goes up. -/
def NamesGoDown (t : FileTree) : Prop :=
  ∀ e ∈ t.entries, ".." ∉ e.1

instance (t : FileTree) : Decidable t.NamesGoDown :=
  inferInstanceAs (Decidable (∀ e ∈ t.entries, ".." ∉ e.1))

variable {t : FileTree} {root : Path}

/-! ## Where hits lead -/

theorem locate_descend {way : List String} (h : ".." ∉ way) (p : Path) :
    t.locate (p.descend way) = t.locate p ++ way := by
  rw [locate, locate, Path.descend, List.foldl_append, Path.foldl_resolveStep h]
  rfl

theorem NamesGoDown.ne_of_mem_names (ht : t.NamesGoDown) {l : Location} {name : String}
    (h : name ∈ t.names l) : name ≠ ".." := by
  obtain ⟨e, he, hname⟩ := List.mem_filterMap.1 h
  split at hname
  case h_1 last hlast =>
    split at hname
    · cases hname
      rintro rfl
      exact ht e he (List.mem_of_getLast? hlast)
    · contradiction
  case h_2 => contradiction

theorem NamesGoDown.notMem_of_mem_descents (ht : t.NamesGoDown) {l way : Location}
    (h : way ∈ t.descents l) : ".." ∉ way := by
  obtain ⟨e, he, hway⟩ := List.mem_filterMap.1 h
  split at hway
  · cases hway
    exact fun hup => ht e he (List.mem_of_mem_drop hup)
  · contradiction

/-- A component leads down, unless it is written as the part that goes up. -/
theorem NamesGoDown.exists_way_of_mem_extend (ht : t.NamesGoDown) {c : Component} {p q : Path}
    (hq : q ∈ t.extend c p) : ∃ way, q = p.descend way ∧ (".." ∈ way → c = .name "..") := by
  unfold extend at hq
  split at hq
  · contradiction
  · split at hq
    case h_1 | h_2 => exact ⟨[], by simpa using hq, by simp⟩
    case h_3 part _ =>
      split at hq
      · refine ⟨[part], List.mem_singleton.1 hq, fun hup => ?_⟩
        rw [List.mem_singleton.1 hup]
      · contradiction
    case h_4 =>
      obtain ⟨name, hname, rfl⟩ := List.mem_map.1 hq
      have hdown := ht.ne_of_mem_names (List.mem_filter.1 hname).1
      exact ⟨[name], rfl, fun hup => absurd (List.mem_singleton.1 hup).symm hdown⟩
    case h_5 =>
      rcases List.mem_cons.1 hq with rfl | hbelow
      · exact ⟨[], by simp, by simp⟩
      · obtain ⟨way, hway, rfl⟩ := List.mem_map.1 hbelow
        have hdown := ht.notMem_of_mem_descents (List.mem_filter.1 hway).1
        exact ⟨way, rfl, fun hup => absurd hup hdown⟩

theorem NamesGoDown.exists_way_of_mem_foldl (ht : t.NamesGoDown) {components : List Component}
    {ps : List Path} {q : Path}
    (hq : q ∈ components.foldl (fun ps c => ps.flatMap (t.extend c)) ps) :
    ∃ p ∈ ps, ∃ way, q = p.descend way ∧ (".." ∈ way → .name ".." ∈ components) := by
  induction components generalizing ps with
  | nil => exact ⟨q, hq, [], by simp, by simp⟩
  | cons c components ih =>
      obtain ⟨r, hr, more, rfl, hmore⟩ := ih hq
      obtain ⟨p, hp, hextend⟩ := List.mem_flatMap.1 hr
      obtain ⟨way, rfl, hway⟩ := ht.exists_way_of_mem_extend hextend
      refine ⟨p, hp, way ++ more, Path.descend_descend p way more, fun hup => ?_⟩
      rcases List.mem_append.1 hup with hup | hup
      · rw [hway hup]
        exact List.mem_cons_self
      · exact List.mem_cons_of_mem c (hmore hup)

/-- A name leads to itself, except for the part that stays. -/
theorem eq_descend_of_mem_extend_name {name : String} {p q : Path}
    (hq : q ∈ t.extend (.name name) p) : q = p.descend ([name].filter (· != ".")) := by
  unfold extend at hq
  split at hq
  · contradiction
  · split at hq
    case h_2 heq =>
      cases heq
      simpa using hq
    case h_3 part hstay heq =>
      cases heq
      have hne : name ≠ "." := by
        rintro rfl
        exact hstay rfl
      split at hq
      · rw [List.mem_singleton.1 hq, Path.push_eq_descend]
        simp [hne]
      · contradiction
    all_goals contradiction

theorem eq_descend_of_mem_foldl_names {names : List String} {ps : List Path} {q : Path}
    (hq : q ∈ (names.map Component.name).foldl (fun ps c => ps.flatMap (t.extend c)) ps) :
    ∃ p ∈ ps, q = p.descend (names.filter (· != ".")) := by
  induction names generalizing ps with
  | nil => exact ⟨q, hq, by simp⟩
  | cons name names ih =>
      obtain ⟨r, hr, rfl⟩ := ih hq
      obtain ⟨p, hp, hextend⟩ := List.mem_flatMap.1 hr
      refine ⟨p, hp, ?_⟩
      rw [eq_descend_of_mem_extend_name hextend, Path.descend_descend, ← List.filter_append,
        List.singleton_append]

/-- A hit lies below the path from which its pattern is read, and goes up from there only if the
pattern does. -/
theorem NamesGoDown.exists_way_of_mem_hits (ht : t.NamesGoDown) {pattern : String} {p : Path}
    (hp : p ∈ t.hits root pattern) :
    ∃ way, p = (origin root pattern).descend way ∧ (".." ∈ way → GoesUp pattern) := by
  rw [hits] at hp
  by_cases hrelative : anchor pattern = ""
  · rw [ofText_of_relative hrelative] at hp
    dsimp only at hp
    rw [List.foldl_append] at hp
    obtain ⟨q, hq, way, rfl, hway⟩ := ht.exists_way_of_mem_foldl hp
    obtain ⟨start, hstart, rfl⟩ := eq_descend_of_mem_foldl_names hq
    refine ⟨way, ?_, hway⟩
    rw [List.mem_singleton.1 hstart, origin, if_pos hrelative]
    rfl
  · rw [ofText_of_absolute hrelative] at hp
    obtain ⟨q, hq, way, rfl, hway⟩ := ht.exists_way_of_mem_foldl hp
    refine ⟨way, ?_, hway⟩
    rw [List.mem_singleton.1 hq, origin, if_neg hrelative]

/-! ## Respellings -/

/-- Include patterns hit one file under two spellings. One of them goes up, or they are not read
from the same place. -/
structure Respells (t : FileTree) (root : Path) (includes : List String) (p q : Path) : Prop where
  ne : p ≠ q
  same : t.locate p = t.locate q
  file : t.isFile (t.locate p)
  hits : ∃ i ∈ includes, ∃ j ∈ includes, p ∈ t.hits root i ∧ q ∈ t.hits root j ∧
    (GoesUp i ∨ GoesUp j ∨ anchor i ≠ anchor j)

/-- Hits of one file by patterns that are read from the same place and do not go up are spelt
alike. -/
theorem NamesGoDown.eq_of_locate_eq (ht : t.NamesGoDown) {i j : String} {p q : Path}
    (hp : p ∈ t.hits root i) (hq : q ∈ t.hits root j) (hi : ¬ GoesUp i) (hj : ¬ GoesUp j)
    (hanchor : anchor i = anchor j) (h : t.locate p = t.locate q) : p = q := by
  obtain ⟨way, rfl, hway⟩ := ht.exists_way_of_mem_hits hp
  obtain ⟨way', rfl, hway'⟩ := ht.exists_way_of_mem_hits hq
  rw [locate_descend (mt hway hi), locate_descend (mt hway' hj), origin_congr hanchor] at h
  rw [List.append_cancel_left h, origin_congr hanchor]

theorem NamesGoDown.respells (ht : t.NamesGoDown) {includes : List String} {p q : Path}
    (hp : t.HitsFile root includes p) (hq : t.HitsFile root includes q) (hne : p ≠ q)
    (h : t.locate p = t.locate q) : t.Respells root includes p q := by
  obtain ⟨hfile, i, hi, hpi⟩ := hp
  obtain ⟨-, j, hj, hqj⟩ := hq
  refine ⟨hne, h, hfile, i, hi, j, hj, hpi, hqj, ?_⟩
  by_contra hplain
  simp only [not_or, not_not] at hplain
  obtain ⟨hup, hup', hanchor⟩ := hplain
  exact hne (ht.eq_of_locate_eq hpi hqj hup hup' hanchor h)

theorem Respells.hitsFile {includes : List String} {p q : Path}
    (h : t.Respells root includes p q) :
    t.HitsFile root includes p ∧ t.HitsFile root includes q := by
  obtain ⟨i, hi, j, hj, hpi, hqj, -⟩ := h.hits
  exact ⟨⟨h.file, i, hi, hpi⟩, h.same ▸ h.file, j, hj, hqj⟩

/-- No two paths of a selection lead to the same file. -/
def Selection.HoldsOnce (s : Selection) (t : FileTree) : Prop :=
  ∀ p ∈ s.paths, ∀ q ∈ s.paths, t.locate p = t.locate q → p = q

/-- A selection holds every file once if and only if each file that include patterns hit under two
spellings, by going up or from different places, is excluded. In particular it does so where all
include patterns are read from the same place and none of them goes up. A file is excluded under all
its spellings. -/
theorem holdsOnce_iff_respelt_excluded (ht : t.NamesGoDown) {includes excludes : List String}
    {s : Selection} (hs : t.select? root includes excludes = some s) :
    (s.HoldsOnce t ↔ ∀ p q, t.Respells root includes p q →
        ∃ e, t.HitsFile root excludes e ∧ t.locate e = t.locate p) ∧
      ((∀ i ∈ includes, ¬ GoesUp i ∧ ∀ j ∈ includes, anchor i = anchor j) → s.HoldsOnce t) ∧
      ∀ p q, t.HitsFile root includes p → t.HitsFile root includes q →
        t.locate p = t.locate q → (p ∈ s.paths ↔ q ∈ s.paths) := by
  obtain rfl := select_of_select? hs
  have honce : (t.select root includes excludes).HoldsOnce t ↔
      ∀ p q, t.Respells root includes p q →
        ∃ e, t.HitsFile root excludes e ∧ t.locate e = t.locate p := by
    constructor
    · intro h p q hrespells
      by_contra hfree
      obtain ⟨hp, hq⟩ := hrespells.hitsFile
      have hfree' : ¬ ∃ e, t.HitsFile root excludes e ∧ t.locate e = t.locate q := by
        rwa [← hrespells.same]
      exact hrespells.ne (h p (mem_select.2 ⟨hp, hfree⟩) q (mem_select.2 ⟨hq, hfree'⟩)
        hrespells.same)
    · intro h p hp q hq hsame
      by_contra hne
      obtain ⟨hphit, hfree⟩ := mem_select.1 hp
      exact hfree (h p q (ht.respells hphit (mem_select.1 hq).1 hne hsame))
  refine ⟨honce, fun hplain => honce.2 fun p q hrespells => ?_, fun p q hp hq hsame => ?_⟩
  · obtain ⟨i, hi, j, hj, -, -, hup | hup | hanchor⟩ := hrespells.hits
    · exact absurd hup (hplain i hi).1
    · exact absurd hup (hplain j hj).1
    · exact absurd ((hplain i hi).2 j hj) hanchor
  · rw [mem_select, mem_select, hsame]
    simp only [hp, hq]

/-- A directory beside two files. -/
def besideDirectory : FileTree where
  entries := [(["w"], .directory), (["w", "d"], .directory), (["w", "a.cs"], .file []),
    (["w", "b.cs"], .file [])]
  workingDirectory := ["w"]

/-- One file is hit under two spellings and excluded under a third. -/
theorem holdsOnce_of_excluded_respelling :
    besideDirectory.NamesGoDown ∧
      ∃ s, besideDirectory.select? (Path.ofString "/w") ["*.cs", "d/../a.cs"] ["//w/a.cs"] =
          some s ∧
        (s.HoldsOnce besideDirectory ↔
          ∀ p q, besideDirectory.Respells (Path.ofString "/w") ["*.cs", "d/../a.cs"] p q →
            ∃ e, besideDirectory.HitsFile (Path.ofString "/w") ["//w/a.cs"] e ∧
              besideDirectory.locate e = besideDirectory.locate p) ∧
        besideDirectory.Respells (Path.ofString "/w") ["*.cs", "d/../a.cs"]
          (Path.ofString "/w/a.cs") (Path.ofString "/w/d/../a.cs") ∧
        s.HoldsOnce besideDirectory := by
  have ht : besideDirectory.NamesGoDown := by decide +kernel
  have hs : besideDirectory.select? (Path.ofString "/w") ["*.cs", "d/../a.cs"] ["//w/a.cs"] =
      some ⟨[Path.ofString "/w/b.cs"], 3⟩ := by
    decide +kernel
  have hrespells : besideDirectory.Respells (Path.ofString "/w") ["*.cs", "d/../a.cs"]
      (Path.ofString "/w/a.cs") (Path.ofString "/w/d/../a.cs") := by
    refine ⟨by decide +kernel, by decide +kernel, by decide +kernel, "*.cs", by simp, "d/../a.cs",
      by simp, by decide +kernel, by decide +kernel, .inr (.inl (by decide +kernel))⟩
  refine ⟨ht, _, hs, (holdsOnce_iff_respelt_excluded ht hs).1, hrespells, ?_⟩
  rintro p (_ | ⟨_, ⟨⟩⟩) q (_ | ⟨_, ⟨⟩⟩) -
  rfl

/-- A file that is selected under two spellings. -/
theorem not_forall_holdsOnce :
    ¬ ∀ (t : FileTree) (root : Path) (includes excludes : List String) (s : Selection),
      t.NamesGoDown → t.select? root includes excludes = some s → s.HoldsOnce t := by
  intro h
  have hs : besideDirectory.select? (Path.ofString "/w") ["a.cs", "d/../a.cs"] [] =
      some ⟨[Path.ofString "/w/a.cs", Path.ofString "/w/d/../a.cs"], 2⟩ := by
    decide +kernel
  have honce := h besideDirectory _ _ _ _ (by decide +kernel) hs
  have hsame := honce (Path.ofString "/w/a.cs") (by simp) (Path.ofString "/w/d/../a.cs") (by simp)
    (by decide +kernel)
  exact absurd hsame (by decide +kernel)

end FileTree
end UsingStyle
