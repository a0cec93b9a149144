import Mathlib.Data.List.Lex
import Mathlib.Data.List.Sort
import Mathlib.Data.String.Basic
import UsingStyle.Path

/-! # The order of paths

Paths that a text can spell are told apart by their keys. So a list of them in increasing order
holds each once, and its members settle it.
-/

namespace UsingStyle.Path

/-! ## Paths that a text can spell -/

/-- The anchor consists of slashes, and no part holds one. -/
structure IsSpelt (p : Path) : Prop where
  anchor_mem : p.anchor ∈ ["", "/", "//"]
  slash_notMem : ∀ part ∈ p.parts, '/' ∉ part.toList

theorem slash_notMem_of_mem_splitSlashes {cs piece : List Char} (h : piece ∈ splitSlashes cs) :
    '/' ∉ piece := by
  fun_induction splitSlashes cs generalizing piece with
  | case1 => simp_all
  | case2 c cs hc ih =>
      rcases List.mem_cons.1 h with rfl | hrest
      · exact List.not_mem_nil
      · exact ih hrest
  | case3 c cs hc hnil ih =>
      rw [List.mem_singleton.1 h, List.mem_singleton]
      rintro rfl
      exact hc rfl
  | case4 c cs hc first pieces hpieces ih =>
      rw [hpieces] at ih
      rcases List.mem_cons.1 h with rfl | hrest
      · rw [List.mem_cons, not_or]
        refine ⟨?_, ih List.mem_cons_self⟩
        rintro rfl
        exact hc rfl
      · exact ih (List.mem_cons_of_mem _ hrest)

theorem anchorOf_mem (cs : List Char) : anchorOf cs ∈ ["", "/", "//"] := by
  unfold anchorOf
  split <;> decide

theorem isSpelt_ofString (s : String) : (ofString s).IsSpelt where
  anchor_mem := anchorOf_mem s.toList
  slash_notMem := by
    intro part hpart
    obtain ⟨piece, hpiece, rfl⟩ := List.mem_map.1 (List.mem_filter.1 hpart).1
    rw [String.toList_ofList]
    exact slash_notMem_of_mem_splitSlashes hpiece

theorem IsSpelt.append {p : Path} (hp : p.IsSpelt) {way : List String}
    (hway : ∀ part ∈ way, '/' ∉ part.toList) : IsSpelt { p with parts := p.parts ++ way } where
  anchor_mem := hp.anchor_mem
  slash_notMem part hpart :=
    (List.mem_append.1 hpart).elim (hp.slash_notMem part) (hway part)

theorem IsSpelt.push {p : Path} (hp : p.IsSpelt) {part : String} (hpart : '/' ∉ part.toList) :
    (p.push part).IsSpelt :=
  hp.append (by simpa using hpart)

/-! ## Keys -/

theorem key_of_relative {p : Path} (h : p.anchor = "") : p.key = p.parts := by
  simp [key, h]

theorem key_of_absolute {p : Path} (h : p.anchor ≠ "") : p.key = p.anchor :: p.parts := by
  simp [key, h]

theorem IsSpelt.slash_mem_anchor {p : Path} (hp : p.IsSpelt) (h : p.anchor ≠ "") :
    '/' ∈ p.anchor.toList := by
  obtain hnone | hone | htwo : p.anchor = "" ∨ p.anchor = "/" ∨ p.anchor = "//" := by
    simpa using hp.anchor_mem
  · contradiction
  · rw [hone]; decide
  · rw [htwo]; decide

/-- The first part of a relative path is never an anchor. -/
theorem IsSpelt.key_ne {p q : Path} (hp : p.IsSpelt) (hq : q.IsSpelt) (hrelative : p.anchor = "")
    (habsolute : q.anchor ≠ "") : p.key ≠ q.key := by
  rw [key_of_relative hrelative, key_of_absolute habsolute]
  intro h
  exact hp.slash_notMem q.anchor (h ▸ List.mem_cons_self) (hq.slash_mem_anchor habsolute)

theorem IsSpelt.key_injective {p q : Path} (hp : p.IsSpelt) (hq : q.IsSpelt)
    (h : p.key = q.key) : p = q := by
  obtain ⟨panchor, pparts⟩ := p
  obtain ⟨qanchor, qparts⟩ := q
  by_cases hpanchor : panchor = ""
  · by_cases hqanchor : qanchor = ""
    · rw [key_of_relative hpanchor, key_of_relative hqanchor] at h
      rw [Path.mk.injEq]
      exact ⟨hpanchor.trans hqanchor.symm, h⟩
    · exact absurd h (hp.key_ne hq hpanchor hqanchor)
  · by_cases hqanchor : qanchor = ""
    · exact absurd h.symm (hq.key_ne hp hqanchor hpanchor)
    · rw [key_of_absolute hpanchor, key_of_absolute hqanchor] at h
      rw [Path.mk.injEq]
      exact List.cons.inj h

/-! ## Sorted lists -/

theorem mem_insert {p q : Path} {ps : List Path} : q ∈ insert p ps ↔ q = p ∨ q ∈ ps := by
  fun_induction insert p ps with
  | case1 => simp
  | case2 ps => simp
  | case3 r ps hne hlt => simp
  | case4 r ps hne hlt ih => rw [List.mem_cons, ih, List.mem_cons, or_left_comm]

theorem pairwise_insert {p : Path} {ps : List Path} (hp : p.IsSpelt) (hps : ∀ q ∈ ps, q.IsSpelt)
    (h : ps.Pairwise fun q r => q.key < r.key) :
    (insert p ps).Pairwise fun q r => q.key < r.key := by
  fun_induction insert p ps with
  | case1 => exact List.pairwise_singleton _ p
  | case2 ps => exact h
  | case3 r ps hne hlt =>
      have hall : ∀ q ∈ r :: ps, p.key < q.key := by
        intro q hq
        rcases List.mem_cons.1 hq with rfl | hq
        · exact hlt
        · exact hlt.trans (List.rel_of_pairwise_cons h hq)
      exact List.pairwise_cons.2 ⟨hall, h⟩
  | case4 r ps hne hlt ih =>
      obtain ⟨hr, hrest⟩ := List.forall_mem_cons.1 hps
      have hkey : p.key ≠ r.key := fun heq => hne (hp.key_injective hr heq)
      have hgt : r.key < p.key := lt_of_le_of_ne (not_lt.1 hlt) hkey.symm
      refine List.pairwise_cons.2 ⟨?_, ih hrest h.of_cons⟩
      intro q hq
      rcases mem_insert.1 hq with rfl | hq
      · exact hgt
      · exact List.rel_of_pairwise_cons h hq

@[simp]
theorem mem_sortUnique {p : Path} {ps : List Path} : p ∈ sortUnique ps ↔ p ∈ ps := by
  induction ps with
  | nil => rfl
  | cons q ps ih =>
      show p ∈ insert q (sortUnique ps) ↔ p ∈ q :: ps
      rw [mem_insert, ih, List.mem_cons]

theorem pairwise_sortUnique {ps : List Path} (h : ∀ p ∈ ps, p.IsSpelt) :
    (sortUnique ps).Pairwise fun p q => p.key < q.key := by
  induction ps with
  | nil => exact .nil
  | cons p ps ih =>
      obtain ⟨hp, hps⟩ := List.forall_mem_cons.1 h
      exact pairwise_insert hp (fun q hq => hps q (mem_sortUnique.1 hq)) (ih hps)

end UsingStyle.Path
