/-
  Trimmed texts.

  Letters and numbers are no blanks.  Trimming takes the blanks away from both ends of a text
  (`exists_trim`), leaves a text without such blanks as it is, and does not depend on how many
  there are.
-/
import Mathlib.Data.List.TakeWhile
import Winnow.Text.Alphabetic
import Winnow.Text.Numeric
import Winnow.Proofs.Lists

namespace Winnow.Text

variable {c : Char} {cs before after : List Char}

/-- Classes whose ranges lie apart have no character in common. -/
theorem not_inRanges_of_apart {ranges others : List (Nat × Nat)}
    (h : ∀ r ∈ ranges, ∀ s ∈ others, r.2 < s.1 ∨ s.2 < r.1) (hc : inRanges ranges c) :
    ¬ inRanges others c := by
  simp only [inRanges, List.any_eq_true, Bool.and_eq_true, decide_eq_true_iff, Prod.exists,
    not_exists, not_and] at hc ⊢
  obtain ⟨first, last, hr, hfirst, hlast⟩ := hc
  intro first' last' hs hfirst'
  have := h _ hr _ hs
  omega

theorem not_isBlank_of_isAlphabetic (h : isAlphabetic c) : ¬ isBlank c :=
  not_inRanges_of_apart (by decide +kernel) h

theorem not_isBlank_of_isNumeric (h : isNumeric c) : ¬ isBlank c :=
  not_inRanges_of_apart (by decide +kernel) h

/-- A text without blanks at its ends. -/
def Trimmed (cs : List Char) : Prop :=
  (∀ c ∈ cs.head?, ¬ isBlank c) ∧ ∀ c ∈ cs.getLast?, ¬ isBlank c

/-- Blanks around a text make no difference. -/
theorem trim_blanks (hbefore : ∀ c ∈ before, isBlank c) (hafter : ∀ c ∈ after, isBlank c) :
    trim (before ++ cs ++ after) = trim cs := by
  have hafter' : ∀ c ∈ after.reverse, isBlank c := fun c hc => hafter c (List.mem_reverse.1 hc)
  rw [trim, trim, List.append_assoc, List.dropWhile_append_of_pos hbefore, List.dropWhile_append]
  split
  · next hempty =>
    rw [List.isEmpty_iff] at hempty
    have hnil : (after ++ []).dropWhile isBlank = [] := List.dropWhile_append_of_pos hafter
    rw [List.append_nil] at hnil
    rw [hempty, hnil]
  · rw [List.reverse_append, List.dropWhile_append_of_pos hafter']

theorem trim_of_trimmed (h : Trimmed cs) : trim cs = cs := by
  have hfirst : cs.dropWhile isBlank = cs :=
    List.dropWhile_eq_self_iff.2 fun _ => h.1 _ (by simp [List.head?_eq_getElem?])
  have hlast : cs.reverse.dropWhile isBlank = cs.reverse :=
    List.dropWhile_eq_self_iff.2 fun hl => h.2 _ (by
      rw [← List.head?_reverse, List.head?_eq_getElem?]
      exact List.getElem?_eq_getElem hl)
  rw [trim, hfirst, hlast, List.reverse_reverse]

/-- What trimming takes away are blanks at the ends. -/
theorem exists_trim (cs : List Char) :
    ∃ before after, cs = before ++ trim cs ++ after ∧ (∀ c ∈ before, isBlank c) ∧
      (∀ c ∈ after, isBlank c) ∧ Trimmed (trim cs) := by
  have hmid : cs.dropWhile isBlank = trim cs ++
      ((cs.dropWhile isBlank).reverse.takeWhile isBlank).reverse := by
    rw [trim, ← List.reverse_append, List.takeWhile_append_dropWhile, List.reverse_reverse]
  refine ⟨cs.takeWhile isBlank, ((cs.dropWhile isBlank).reverse.takeWhile isBlank).reverse, ?_, ?_,
    ?_, ?_, ?_⟩
  · rw [List.append_assoc, ← hmid, List.takeWhile_append_dropWhile]
  · exact List.all_eq_true.1 List.all_takeWhile
  · intro c hc
    exact List.all_eq_true.1 List.all_takeWhile c (List.mem_reverse.1 hc)
  · -- the first character of what is left, if there is one, is that after the blanks in front
    intro c hc
    refine List.not_of_mem_head?_dropWhile (l := cs) ?_
    rw [hmid, Option.mem_def, List.head?_append, Option.mem_def.1 hc]
    rfl
  · intro c hc
    rw [trim, List.getLast?_reverse] at hc
    exact List.not_of_mem_head?_dropWhile hc

end Winnow.Text
