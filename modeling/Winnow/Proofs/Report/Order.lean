/-
  Reports and the order of findings.

  * Findings are ranges, pairs and rewrites; a report has the ranges and pairs in order and
    of several rewrites of one instruction the last;
  * `sort_eq_of_perm`: sorting forgets the order, so that the coalesced ranges do;
  * `sameMarks_of_perm` and `replacements_eq_of_perm` compare the reports of the same
    findings in two orders.
-/
import Mathlib.Data.List.Sort
import Winnow.Proofs.Findings.Basic

namespace Winnow

/-! ## Sorted ranges -/

namespace Range

variable {r s t : Range} {rs rs' : List Range}

theorem le_total_of_not (h : ¬ r.le s) : s.le r := by
  simp only [le, Bool.or_eq_true, Bool.and_eq_true, decide_eq_true_eq, beq_iff_eq] at h ⊢
  omega

theorem le_trans (h : r.le s) (h' : s.le t) : r.le t := by
  simp only [le, Bool.or_eq_true, Bool.and_eq_true, decide_eq_true_eq, beq_iff_eq] at h h' ⊢
  omega

theorem le_antisymm (h : r.le s) (h' : s.le r) : r = s := by
  obtain ⟨a, b⟩ := r
  obtain ⟨a', b'⟩ := s
  simp only [le, Bool.or_eq_true, Bool.and_eq_true, decide_eq_true_eq, beq_iff_eq] at h h'
  simp only [mk.injEq]
  omega

theorem perm_insertSorted (r : Range) (rs : List Range) : (insertSorted r rs).Perm (r :: rs) := by
  induction rs with
  | nil => exact .refl _
  | cons s rs ih =>
    simp only [insertSorted]
    split
    · exact .refl _
    · exact (ih.cons s).trans (.swap r s rs)

theorem pairwise_insertSorted (h : rs.Pairwise (fun r s => r.le s)) :
    (insertSorted r rs).Pairwise fun r s => r.le s := by
  induction rs with
  | nil => exact List.pairwise_singleton _ _
  | cons s rs ih =>
    obtain ⟨hs, hrs⟩ := List.pairwise_cons.1 h
    simp only [insertSorted]
    split
    · next hle =>
      refine List.pairwise_cons.2 ⟨List.forall_mem_cons.2 ⟨hle, fun t ht => ?_⟩, h⟩
      exact le_trans hle (hs t ht)
    · next hle =>
      refine List.pairwise_cons.2 ⟨fun t ht => ?_, ih hrs⟩
      rcases List.mem_cons.1 ((perm_insertSorted r rs).mem_iff.1 ht) with rfl | ht
      · exact le_total_of_not hle
      · exact hs t ht

/-- Invariant of the insertions: the sorted ranges are those inserted so far. -/
theorem perm_foldl_insertSorted (rs acc : List Range) :
    (rs.foldl (fun acc r => insertSorted r acc) acc).Perm (rs ++ acc) := by
  induction rs generalizing acc with
  | nil => exact .refl _
  | cons r rs ih =>
    have hinsert := (perm_insertSorted r acc).append_left rs
    exact (ih _).trans (hinsert.trans List.perm_middle)

theorem perm_sort (rs : List Range) : (sort rs).Perm rs := by
  have h := perm_foldl_insertSorted rs []
  rwa [List.append_nil] at h

theorem pairwise_sort (rs : List Range) : (sort rs).Pairwise fun r s => r.le s :=
  List.foldlRecOn (motive := fun acc : List Range => acc.Pairwise fun r s => r.le s) rs _
    .nil fun _ h _ _ => pairwise_insertSorted h

/-- Sorting forgets the order. -/
theorem sort_eq_of_perm (h : rs.Perm rs') : sort rs = sort rs' :=
  ((perm_sort rs).trans (h.trans (perm_sort rs').symm)).eq_of_pairwise
    (fun _ _ _ _ => le_antisymm) (pairwise_sort rs) (pairwise_sort rs')

end Range

/-! ## Findings of one sort -/

namespace Finding

def range? : Finding → Option Range
  | ignore first last => some ⟨first, last⟩
  | _ => none

def pair? : Finding → Option MergedPair
  | merge first second => some ⟨first, second⟩
  | _ => none

def rewrite? : Finding → Option (Nat × List Group)
  | replace source groups => some (source, groups)
  | _ => none

theorem rewrite?_eq_some {x : Finding} {source : Nat} {groups : List Group} :
    x.rewrite? = some (source, groups) ↔ x = .replace source groups := by
  cases x <;> simp [rewrite?]

end Finding

namespace Report

variable {xs ys : List Finding}

/-- What a report has of findings: the ranges and pairs in order, and the rewrites put one
    over the other. -/
theorem foldl_add (xs : List Finding) (r : Report) :
    xs.foldl add r =
      { ignored := r.ignored ++ xs.filterMap Finding.range?
        merged := r.merged ++ xs.filterMap Finding.pair?
        replacements := Sorted.putAll (xs.filterMap Finding.rewrite?) r.replacements } := by
  induction xs generalizing r with
  | nil => simp [Sorted.putAll]
  | cons x xs ih =>
    rw [List.foldl_cons, ih]
    cases x <;>
      simp [add, List.filterMap_cons, Finding.range?, Finding.pair?, Finding.rewrite?,
        Sorted.putAll]

/-- The reports agree on what is ignored and on what counts as one. -/
def SameMarks (r r' : Report) : Prop :=
  r.coalesced = r'.coalesced ∧ r.merged.Perm r'.merged

theorem sameMarks_of_perm (h : xs.Perm ys) : SameMarks (xs.foldl add {}) (ys.foldl add {}) := by
  rw [foldl_add, foldl_add]
  have hranges :
      Range.sort (xs.filterMap Finding.range?) = Range.sort (ys.filterMap Finding.range?) :=
    Range.sort_eq_of_perm (h.filterMap _)
  refine ⟨?_, h.filterMap _⟩
  simp only [coalesced, List.nil_append, hranges]

/-- Rewrites that do not contradict each other can be made in any order. -/
theorem replacements_eq_of_perm (h : xs.Perm ys)
    (hunique : ∀ source gs gs', .replace source gs ∈ xs → .replace source gs' ∈ xs → gs = gs') :
    (xs.foldl add {}).replacements = (ys.foldl add {}).replacements := by
  rw [foldl_add, foldl_add]
  refine Sorted.putAll_perm (h.filterMap _) ?_
  rintro ⟨source, gs⟩ hx ⟨source', gs'⟩ hy ⟨⟩
  obtain ⟨x, hx, heq⟩ := List.mem_filterMap.1 hx
  obtain ⟨y, hy, heq'⟩ := List.mem_filterMap.1 hy
  rw [Finding.rewrite?_eq_some] at heq heq'
  exact hunique source gs gs' (heq ▸ hx) (heq' ▸ hy)

/-- Findings that do not rewrite an instruction leave what is recorded for it. -/
theorem lookup_foldl_of_notMem {source : Nat} (h : ∀ gs, .replace source gs ∉ xs) (r : Report) :
    (xs.foldl add r).replacements.lookup source = r.replacements.lookup source := by
  rw [foldl_add]
  refine Sorted.lookup_putAll_of_ne fun row hrow heq => ?_
  obtain ⟨x, hx, hrewrite⟩ := List.mem_filterMap.1 hrow
  obtain rfl := Finding.rewrite?_eq_some.1 hrewrite
  exact h row.2 (heq ▸ hx)

/-- Findings that rewrite an instruction in one way record that way. -/
theorem lookup_foldl_of_mem {source : Nat} {gs : List Group} (h : .replace source gs ∈ xs)
    (hunique : ∀ gs', .replace source gs' ∈ xs → gs' = gs) (r : Report) :
    (xs.foldl add r).replacements.lookup source = some gs := by
  rw [foldl_add]
  have hmem : (source, gs) ∈ xs.filterMap Finding.rewrite? := List.mem_filterMap.2 ⟨_, h, rfl⟩
  obtain ⟨gs', hgs', hlookup⟩ := Sorted.lookup_putAll hmem
  obtain ⟨x, hx, hrewrite⟩ := List.mem_filterMap.1 hgs'
  obtain rfl := Finding.rewrite?_eq_some.1 hrewrite
  exact hunique gs' hx ▸ hlookup

/-- The last findings that rewrite an instruction decide. -/
theorem lookup_replacements {source : Nat} {gs : List Group} (h : .replace source gs ∈ ys) :
    ∃ gs', .replace source gs' ∈ ys ∧
      ((xs ++ ys).foldl add {}).replacements.lookup source = some gs' := by
  rw [foldl_add]
  simp only [List.filterMap_append, Sorted.putAll_append]
  have hmem : (source, gs) ∈ ys.filterMap Finding.rewrite? :=
    List.mem_filterMap.2 ⟨_, h, rfl⟩
  obtain ⟨gs', hgs', hlookup⟩ := Sorted.lookup_putAll hmem
  obtain ⟨y, hy, heq⟩ := List.mem_filterMap.1 hgs'
  rw [Finding.rewrite?_eq_some] at heq
  exact ⟨gs', heq ▸ hy, hlookup⟩

end Report

end Winnow
