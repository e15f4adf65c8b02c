/-
  Findings about exception handlers: synchronized blocks, record patterns,
  try-with-resources statements and finally blocks.

  A handler starts at a label and its last instruction is matched from there on.  The
  other path of a try-with-resources statement is looked for backwards, but matched
  forwards from where it is found.
-/
import Winnow.Idiom.Synchronized
import Winnow.Idiom.Record
import Winnow.Idiom.TryWithResources
import Winnow.Proofs.Findings.Basic
import Winnow.Proofs.Findings.Copies

namespace Winnow.Idiom

open Finding (marks_ignore_self marks_ignore_matched)

variable {m : Method} {x : Finding} {xs : List Finding}

theorem Synchronized.marks_findings : ∀ x ∈ findings m, x.Marks m := by
  intro x hx
  obtain ⟨t, -, ht⟩ := List.mem_filterMap.1 hx
  simp only [handlerRange?, Option.bind_eq_bind, Option.bind_eq_some_iff] at ht
  obtain ⟨-, -, handler, -, last, hlast, hx⟩ := ht
  obtain rfl := Option.some.inj hx
  rw [Option.orElse_eq_orElse, Option.orElse_eq_or, Option.or_eq_some_iff] at hlast
  rcases hlast with h | ⟨-, h⟩
  · exact marks_ignore_matched
      (Method.reached_matchFrom handler (List.cons_ne_nil _ _)) (Nat.le_refl _) h
  · exact marks_ignore_matched
      (Method.reached_matchFrom handler (List.cons_ne_nil _ _)) (Nat.le_refl _) h

theorem Record.marks_patternFindings : ∀ x ∈ patternFindings m, x.Marks m := by
  intro x hx
  obtain ⟨handler, -, h⟩ := List.mem_filterMap.1 hx
  obtain ⟨last, hlast, rfl⟩ := Option.map_eq_some_iff.1 h
  exact marks_ignore_matched
    (Method.reached_matchFrom handler (List.cons_ne_nil _ _)) (Nat.le_refl _) hlast

/-! ## Try-with-resources -/

namespace TryWithResources

variable {c found : Cursor} {pattern : List Step} {handler last start lo : Nat}

/-- What is found backwards is a match at a position before. -/
theorem searchBack_eq_some (h : searchBack m c pattern last = some (start, found)) :
    start ≤ last ∧ found = (c.moveTo start).run m pattern := by
  induction last with
  | zero =>
    simp only [searchBack] at h
    split at h
    · cases h
      exact ⟨Nat.le_refl _, rfl⟩
    · cases h
  | succ last ih =>
    simp only [searchBack] at h
    split at h
    · cases h
      exact ⟨Nat.le_refl _, rfl⟩
    · obtain ⟨hle, hfound⟩ := ih h
      exact ⟨Nat.le_succ_of_le hle, hfound⟩

theorem reached_searchBack (h : searchBack m c pattern last = some (start, found))
    (hp : pattern ≠ []) : found.Reached m start := by
  obtain ⟨-, rfl⟩ := searchBack_eq_some h
  exact (Cursor.from_moveTo c start).run hp

/-- Either there is no jump right behind the position, or it is taken. -/
theorem withGoto_cases (m : Method) (pos : Nat) :
    withGoto m pos = pos ∨ ∃ goto, withGoto m pos = goto ∧ m.realAfter? pos = some goto ∧
      m.hasOpcode .goto goto := by
  unfold withGoto
  cases hg : (m.realAfter? pos).filter (m.hasOpcode .goto) with
  | none => exact Or.inl rfl
  | some goto => exact Or.inr ⟨goto, rfl, Option.filter_eq_some_iff.1 hg⟩

/-- The jump behind an instruction extends a range. -/
theorem marks_ignore_withGoto (h : (Finding.ignore start last).Marks m) :
    (Finding.ignore start (withGoto m last)).Marks m := by
  rcases withGoto_cases m last with heq | ⟨goto, heq, hafter, -⟩
  · rwa [heq]
  · obtain ⟨hlt, hr, -⟩ := Method.realAfter?_eq_some_iff.1 hafter
    rw [heq]
    exact ⟨Nat.le_trans h.1 (Nat.le_of_lt hlt), Method.lt_size_of_isReal hr⟩

theorem marks_pair? {inHandler onPath : List Step} (hh : inHandler ≠ []) (hp : onPath ≠ [])
    (h : pair? m handler inHandler onPath = some xs) : ∀ x ∈ xs, x.Marks m := by
  simp only [pair?, Option.bind_eq_bind, Option.bind_eq_some_iff] at h
  obtain ⟨last, hlast, ⟨start, found⟩, hback, closed, hclosed, hxs⟩ := h
  obtain rfl := Option.some.inj hxs
  refine List.forall_mem_cons.2 ⟨?_, List.forall_mem_singleton.2 ?_⟩
  · exact marks_ignore_withGoto
      (marks_ignore_matched (reached_searchBack hback hp) (Nat.le_refl _) hclosed)
  · exact marks_ignore_matched (Method.reached_matchFrom handler hh) (Nat.le_refl _) hlast

theorem closing_ne_nil (shape : CloseShape) (second : String) : closing shape second ≠ [] := by
  obtain ⟨nullCheck, helper⟩ := shape
  cases nullCheck <;> cases helper <;> exact List.cons_ne_nil _ _

theorem marks_javacFindings : ∀ x ∈ javacFindings m, x.Marks m := by
  intro x hx
  obtain ⟨handler, -, hx⟩ := List.mem_flatMap.1 hx
  cases hf : closeShapes.findSome? fun shape =>
      pair? m handler (closingHandler shape) (closing shape "nt") with
  | none => simp [hf] at hx
  | some xs =>
    rw [hf] at hx
    obtain ⟨shape, -, hpair⟩ := List.exists_of_findSome?_eq_some hf
    exact marks_pair? (List.cons_ne_nil _ _) (closing_ne_nil shape "nt") hpair x hx

theorem marks_javac11Findings : ∀ x ∈ javac11Findings m, x.Marks m := by
  intro x hx
  obtain ⟨handler, -, hx⟩ := List.mem_flatMap.1 hx
  obtain ⟨nullCheck, -, hx⟩ := List.mem_flatMap.1 hx
  cases hpair : pair? m handler (directHandler nullCheck) (directClosing nullCheck) with
  | none => simp [hpair] at hx
  | some xs =>
    rw [hpair] at hx
    refine marks_pair? (List.cons_ne_nil _ _) ?_ hpair x hx
    cases nullCheck <;> exact List.cons_ne_nil _ _

/-! ### Chains of resources -/

theorem reached_closeAndThrow (r : String) (h : c.From lo) :
    (closeAndThrow m r c).Reached m lo :=
  ((h.run (List.cons_ne_nil _ _)).passLabel r).run _

theorem reached_suppress (r : String) (h : c.From lo) : (suppress m r c).Reached m lo :=
  (((h.run (List.cons_ne_nil _ _)).passLabel _).run _).passLabel _

theorem reached_moreResources {n : Nat} {c' : Cursor} (h : c.Reached m lo)
    (hc : moreResources m c n = some c') : c'.Reached m lo := by
  fun_induction moreResources m c n with
  | case1 c n closed hclosed following hf ih =>
    refine ih (reached_closeAndThrow _ (reached_suppress _ ?_).from) hc
    exact ((h.run _).run _).from
  | case2 => cases hc
  | case3 c n closed hclosed => cases hc; exact h

theorem reached_allResources {n : Nat} (h : c.Reached m lo) :
    (allResources m c n).1.Reached m lo := by
  fun_induction allResources m c n with
  | case1 c n following hf ih =>
    exact ih (reached_suppress _ (reached_closeAndThrow _ h.from).from)
  | case2 c n following hf => exact h

theorem marks_chainPair? (h : chainPair? m handler = some xs)
    (hl : ¬ m.isReal handler) : ∀ x ∈ xs, x.Marks m := by
  simp only [chainPair?, Option.bind_eq_bind, Option.bind_eq_some_iff] at h
  obtain ⟨-, -, c, hc, last, hlast, ⟨start, found⟩, hback, goto, hgoto, hxs⟩ := h
  obtain rfl := Option.some.inj hxs
  refine List.forall_mem_cons.2 ⟨?_, List.forall_mem_singleton.2 ?_⟩
  · exact marks_ignore_matched ((reached_searchBack hback (List.cons_ne_nil _ _)).run _)
      (Nat.le_refl _) hgoto
  · have hfirst : (m.matchFrom handler [.var .astore "primaryExc"]).Reached m handler :=
      Method.reached_matchFrom handler (List.cons_ne_nil _ _)
    have hc' := reached_moreResources (reached_closeAndThrow _ hfirst.from) hc
    obtain ⟨hle, hr⟩ := ((reached_suppress "last" hc'.from).run _).of_matched? hlast
    -- the range starts behind the label, and what is matched is no label
    have hne : handler ≠ last := by rintro rfl; exact hl hr
    exact ⟨by omega, Method.lt_size_of_isReal hr⟩

theorem marks_endingPair? (h : endingPair? m handler = some xs) :
    ∀ x ∈ xs, x.Marks m := by
  simp only [endingPair?, Option.bind_eq_bind, Option.bind_eq_some_iff] at h
  obtain ⟨-, -, last, hlast, ⟨start, found⟩, hback, closed, hclosed, hxs⟩ := h
  obtain rfl := Option.some.inj hxs
  refine List.forall_mem_cons.2 ⟨?_, List.forall_mem_singleton.2 ?_⟩
  · exact marks_ignore_matched ((reached_searchBack hback (List.cons_ne_nil _ _)).run _)
      (Nat.le_refl _) hclosed
  · have hfirst : (m.matchFrom handler [.var .astore "primaryExc"]).Reached m handler :=
      Method.reached_matchFrom handler (List.cons_ne_nil _ _)
    exact marks_ignore_matched ((reached_allResources hfirst).run _) (Nat.le_refl _) hlast

theorem marks_ecjFindings : ∀ x ∈ ecjFindings m, x.Marks m := by
  intro x hx
  obtain ⟨handler, hh, hx⟩ := List.mem_flatMap.1 hx
  obtain ⟨t, -, ht⟩ := List.mem_filterMap.1 hh
  have hl : ¬ m.isReal handler := by
    split at ht
    · exact Method.not_isReal_of_label (Method.entry_of_resolve? ht)
    · cases ht
  cases hpair : chainPair? m handler <|> endingPair? m handler with
  | none => simp [hpair] at hx
  | some xs =>
    rw [hpair] at hx
    rw [Option.orElse_eq_orElse, Option.orElse_eq_or, Option.or_eq_some_iff] at hpair
    rcases hpair with h | ⟨-, h⟩
    · exact marks_chainPair? h hl x hx
    · exact marks_endingPair? h x hx

end TryWithResources

/-! ## Finally blocks -/

namespace Finally

variable {h : Handler} {l : Label}

theorem marks_copyAt (hh : handlerAt? m l = some h) (start : Nat) :
    ∀ x ∈ copyAt m h start, x.Marks m := by
  obtain ⟨slot, hat⟩ := handlerAt?_eq_some_iff.1 hh
  have hstore : m.isReal h.store := Method.isReal_of_opcode hat.stores rfl
  have hbody : ∀ pos ∈ h.body, m.isReal pos := fun pos hpos => ((hat.mem_body pos).1 hpos).2.2
  have hrest : ∀ pos ∈ realsBetween m start m.size, m.isReal pos :=
    fun pos hpos => (mem_realsBetween.1 hpos).2.2
  obtain ⟨hlt, hrethrow, -⟩ := Method.realAfter?_eq_some_iff.1 hat.next
  intro x hx
  simp only [copyAt] at hx
  split at hx
  · simp only [List.mem_append, List.mem_singleton, List.mem_map, Option.mem_toList,
      Option.map_eq_some_iff] at hx
    rcases hx with ((rfl | ⟨⟨first, second⟩, hmem, rfl⟩) | rfl) | ⟨pos, hpos, rfl⟩
    · exact marks_ignore_self (Method.lt_size_of_isReal hstore)
    · obtain ⟨hfirst, hsecond⟩ := List.of_mem_zip hmem
      exact ⟨hbody first hfirst, hrest second (List.mem_of_mem_take hsecond)⟩
    · exact ⟨Nat.le_of_lt hlt, Method.lt_size_of_isReal hrethrow⟩
    · have hgoto := (Option.filter_eq_some_iff.1 hpos).2
      exact marks_ignore_self (Method.lt_size_of_isReal (Method.isReal_of_hasOpcode hgoto))
  · cases hx

theorem marks_findings : ∀ x ∈ findings m, x.Marks m := by
  intro x hx
  obtain ⟨⟨t, index⟩, -, hx⟩ := List.mem_flatMap.1 hx
  by_cases ht : t.caught.isNone
  · simp only [ht, ↓reduceIte, ofRow] at hx
    cases hh : handlerAt? m t.handler with
    | none => simp [hh] at hx
    | some h =>
      simp only [hh] at hx
      obtain ⟨row, -, hx⟩ := List.mem_flatMap.1 hx
      obtain ⟨start, -, hx⟩ := List.mem_flatMap.1 hx
      exact marks_copyAt hh start x hx
  · simp [ht] at hx

end Finally

end Winnow.Idiom
