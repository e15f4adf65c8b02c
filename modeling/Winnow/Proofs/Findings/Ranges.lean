/-
  Findings about ranges of code: assertions, null checks, counting loops, coroutines,
  default arguments, inlined code, serialization, composable functions and woven aspects.
-/
import Winnow.Idiom.Aspect
import Winnow.Idiom.Assertion
import Winnow.Idiom.Compose
import Winnow.Idiom.Coroutine
import Winnow.Idiom.CountingLoop
import Winnow.Idiom.DefaultArguments
import Winnow.Idiom.NullCheck
import Winnow.Idiom.Serialization
import Winnow.Proofs.Findings.Basic
import Winnow.Proofs.GeneratedLines

namespace Winnow.Idiom

open Finding (marks_ignore_self marks_ignore_matched marks_ignoreAll)

variable {m : Method} {x : Finding} {c : ClassInfo} {pos : Nat}

/-! ## Patterns from a position on -/

theorem Assertion.marks_findings : ∀ x ∈ findings m c, x.Marks m := by
  intro x hx
  obtain ⟨pos, -, hx⟩ := List.mem_flatMap.1 hx
  obtain ⟨pattern, hpattern, hx⟩ := List.mem_filterMap.1 hx
  obtain ⟨last, hlast, rfl⟩ := Option.map_eq_some_iff.1 hx
  have hne : pattern ≠ [] := by
    rcases List.mem_append.1 hpattern with h | h
    · split at h
      · obtain rfl := List.mem_singleton.1 h
        exact List.cons_ne_nil _ _
      · cases h
    · obtain rfl := List.mem_singleton.1 h
      exact List.cons_ne_nil _ _
  exact marks_ignore_matched (Method.reached_matchFrom pos hne) (Nat.le_refl _) hlast

theorem NullCheck.marks_skipped {patterns : List (List Step)} (h : [] ∉ patterns) :
    ∀ x ∈ skipped m c patterns, x.Marks m := by
  intro x hx
  unfold skipped at hx
  split at hx
  · obtain ⟨pos, -, hx⟩ := List.mem_filterMap.1 hx
    obtain ⟨last, hlast, rfl⟩ := Option.map_eq_some_iff.1 hx
    obtain ⟨pattern, hpattern, hlast⟩ := List.exists_of_findSome?_eq_some hlast
    have hne : pattern ≠ [] := by rintro rfl; exact h hpattern
    exact marks_ignore_matched (Method.reached_matchPast pos hne) (Nat.le_succ pos) hlast
  · cases hx

theorem CountingLoop.marks_findings : ∀ x ∈ findings m c, x.Marks m := by
  intro x hx
  unfold findings at hx
  split at hx
  · obtain ⟨xs, hxs, hx⟩ := List.mem_flatten.1 hx
    obtain ⟨entry, hentry, hloop⟩ := List.mem_filterMap.1 hxs
    simp only [loopAt?, Option.bind_eq_bind, Option.bind_eq_some_iff] at hloop
    obtain ⟨e, -, hloop⟩ := hloop
    split at hloop
    · simp only [Option.bind_eq_some_iff] at hloop
      obtain ⟨-, -, e', -, hloop⟩ := hloop
      split at hloop
      · simp only [Option.bind_eq_some_iff] at hloop
        obtain ⟨back, ⟨exit, -, hback⟩, -, -, e'', -, hloop⟩ := hloop
        have hback := (Method.realBefore?_eq_some_iff.1 hback).2.1
        split at hloop
        · simp only [Option.bind_eq_some_iff] at hloop
          obtain ⟨-, -, -, -, hloop⟩ := hloop
          obtain rfl := Option.some.inj hloop
          rcases List.mem_cons.1 hx with rfl | hx
          · exact marks_ignore_self (Method.mem_positions.1 hentry)
          · obtain rfl := List.mem_singleton.1 hx
            exact marks_ignore_self (Method.lt_size_of_isReal hback)
        · cases hloop
      · cases hloop
    · cases hloop
  · cases hx

/-! ## Coroutines -/

namespace Coroutine

theorem marks_resumptions {cur : Cursor} : ∀ x ∈ resumptions m cur, x.Marks m := by
  intro x hx
  obtain ⟨pos, -, hx⟩ := List.mem_filterMap.1 hx
  obtain ⟨last, hlast, rfl⟩ := Option.map_eq_some_iff.1 hx
  exact marks_ignore_matched ((Cursor.from_movePast cur pos).run (List.cons_ne_nil _ _))
    (Nat.le_succ pos) hlast

theorem marks_findings : ∀ x ∈ findings m c, x.Marks m := by
  intro x hx
  unfold findings at hx
  split at hx
  · cases hs : stateMachine? m with
    | none => simp [hs] at hx
    | some xs =>
      rw [hs] at hx
      simp only [stateMachine?, Option.bind_eq_bind, Option.bind_eq_some_iff] at hs
      obtain ⟨switch, hswitch, e, -, hs⟩ := hs
      split at hs
      · simp only [Option.bind_eq_some_iff] at hs
        obtain ⟨last, hlast, -, -, start, -, thrown, hthrown, hs⟩ := hs
        obtain rfl := Option.some.inj hs
        -- the failure is thrown behind the switch, where the dispatch has ended
        have hfrom : (m.matchFrom 0 dispatch).From (switch + 1) :=
          (Method.reached_matchFrom 0 (List.cons_ne_nil _ _)).from_matched? hswitch
        rcases List.mem_cons.1 hx with rfl | hx
        · exact marks_ignore_matched (Method.reached_matchFrom start (List.cons_ne_nil _ _))
            (Nat.le_refl _) hthrown
        · rcases List.mem_cons.1 hx with rfl | hx
          · exact marks_ignore_matched (hfrom.run (List.cons_ne_nil _ _)) (Nat.le_succ switch)
              hlast
          · exact marks_resumptions x hx
      · cases hs
  · cases hx

end Coroutine

/-! ## Default arguments -/

namespace DefaultArguments

variable {mask rounds : Nat} {jumps : List Nat}

theorem isReal_of_maskJumps? (h : maskJumps? m mask rounds pos = some jumps) :
    ∀ jump ∈ jumps, m.isReal jump := by
  induction rounds generalizing pos jumps with
  | zero => cases h
  | succ rounds ih =>
    simp only [maskJumps?] at h
    split at h
    · cases h; simp
    · next load hload =>
      split at h
      · split at h
        · cases h
        · next jump next htest =>
          obtain ⟨rest, hrest, rfl⟩ := Option.map_eq_some_iff.1 h
          simp only [maskTest?, Option.bind_eq_bind, Option.bind_eq_some_iff] at htest
          obtain ⟨jump', hjump, next', -, htest⟩ := htest
          cases htest
          have hr := (Method.reached_matchPast load (List.cons_ne_nil _ _)).of_matched? hjump
          exact List.forall_mem_cons.2 ⟨hr.2, ih hrest⟩
      · cases h; simp

theorem marks_findings : ∀ x ∈ findings m c, x.Marks m := by
  intro x hx
  unfold findings at hx
  split at hx
  · split at hx
    · cases hx
    · next mask hmask =>
      simp only at hx
      split at hx
      · cases hx
      · next jumps hjumps =>
        rcases List.mem_append.1 hx with hx | hx
        · obtain ⟨last, hlast, rfl⟩ := Option.map_eq_some_iff.1 (Option.mem_toList.1 hx)
          exact marks_ignore_matched (Method.reached_matchFrom 0 (List.cons_ne_nil _ _))
            (Nat.le_refl _) hlast
        · obtain ⟨jump, hjump, rfl⟩ := List.mem_map.1 hx
          exact marks_ignore_self
            (Method.lt_size_of_isReal (isReal_of_maskJumps? hjumps jump hjump))
  · cases hx

end DefaultArguments

/-! ## Inlined code -/

namespace InlinedCode

theorem marks_generatedRanges (first : Nat) :
    ∀ x ∈ generatedRanges m first, x.Marks m := by
  intro x hx
  obtain ⟨rs, hrs, hcanonical, hcovered⟩ := generatedRanges_eq m first
  rw [hrs] at hx
  obtain ⟨r, hr, rfl⟩ := List.mem_map.1 hx
  have hle := hcanonical.le r hr
  exact ⟨hle, ((hcovered r.last).1 ⟨r, hr, hle, Nat.le_refl _⟩).1⟩

theorem marks_run (scratch : ClassScratch) : ∀ x ∈ (run m c scratch).findings, x.Marks m := by
  unfold run
  split
  · simp
  · split
    · dsimp only
      split
      · simp
      · simp
      · exact marks_generatedRanges _
    · simp

end InlinedCode

/-! ## Serialization -/

theorem Serialization.marks_run (scratch : ClassScratch) :
    ∀ x ∈ (run m c scratch).findings, x.Marks m := by
  unfold run
  dsimp only
  split
  · simp
  · split
    · exact marks_ignoreAll
    · split
      · simp
      · split
        · simp
        · split
          · split
            · exact marks_ignoreAll
            · simp
          · simp

/-! ## Composable functions -/

namespace Compose

variable {start : Nat} {p : Progress}

theorem extent_bounds (h : start < m.size) :
    start ≤ (extent m start).last ∧ (extent m start).last < m.size := by
  simp only [extent]
  cases hf : firstWhere (isLabel m) (start + 1) (m.size - (start + 1)) with
  | none =>
    show start ≤ m.size - 1 ∧ m.size - 1 < m.size
    omega
  | some pos =>
    obtain ⟨h₁, h₂, -, -⟩ := firstWhere_eq_some_iff.1 hf
    show start ≤ pos - 1 ∧ pos - 1 < m.size
    omega

/-- The jump that enters a group stands before its label. -/
theorem isReal_of_entryJump? {label jump : Nat} (h : entryJump? m label = some jump) :
    jump < label ∧ m.isReal jump := by
  obtain ⟨l, -, hl⟩ := Option.bind_eq_some_iff.1 h
  obtain ⟨hbefore, hjump, -⟩ := lastWhere_eq_some_iff.1 hl
  obtain ⟨e, he, hjump⟩ := Option.bind_eq_some_iff.1 (beq_iff_eq.1 hjump)
  obtain ⟨op, rfl⟩ := Method.jump?_eq_some_iff.1 hjump
  exact ⟨hbefore, Method.isReal_of_jump he⟩

/-- The entries of a group, with its label or from the start on. -/
theorem marks_ignore_extent {first : Nat} (hstart : start < m.size) (hfirst : first ≤ start) :
    (Finding.ignore first (extent m start).last).Marks m := by
  obtain ⟨hle, hlt⟩ := extent_bounds hstart
  exact ⟨Nat.le_trans hfirst hle, hlt⟩

/-- Examination adds findings that mark code of the method only; the induction follows the chain of
    entering jumps. -/
theorem marks_examine (hstart : start < m.size) (hp : ∀ x ∈ p.findings, x.Marks m) :
    ∀ x ∈ (examine m start p).findings, x.Marks m := by
  fun_induction examine m start p with
  | case1 => exact hp
  | case2 => exact hp
  | case3 =>
    refine List.forall_mem_append.2 ⟨hp, List.forall_mem_singleton.2 ?_⟩
    exact marks_ignore_extent hstart (Nat.zero_le _)
  | case4 start p x _ _ _ _ label hlabel =>
    have hbefore : label < start := (lastWhere_eq_some_iff.1 hlabel).1
    refine List.forall_mem_append.2 ⟨hp, List.forall_mem_singleton.2 ?_⟩
    exact marks_ignore_extent hstart (Nat.le_of_lt hbefore)
  | case5 start p x _ _ _ _ label hlabel _ jump hjump ih =>
    have hbefore : label < start := (lastWhere_eq_some_iff.1 hlabel).1
    refine ih (Method.lt_size_of_isReal (isReal_of_entryJump? hjump).2) ?_
    refine List.forall_mem_append.2 ⟨hp, List.forall_mem_singleton.2 ?_⟩
    exact marks_ignore_extent hstart (Nat.le_of_lt hbefore)

theorem marks_followJump (hp : ∀ x ∈ p.findings, x.Marks m) (pos : Nat) :
    ∀ x ∈ (followJump m p pos).findings, x.Marks m := by
  unfold followJump
  split
  · exact hp
  · next label hlabel =>
    split
    · exact hp
    · next h =>
      have hsize : ¬ m.size ≤ label + 1 := by simp at h; omega
      exact marks_examine (by omega) hp

theorem marks_fromCall (hp : ∀ x ∈ p.findings, x.Marks m) {call : Nat}
    (hcall : call < m.size) : ∀ x ∈ (fromCall m p call).findings, x.Marks m := by
  refine List.foldlRecOn (motive := fun p : Progress => ∀ x ∈ p.findings, x.Marks m)
    (List.range m.size) _ (marks_examine hcall hp) ?_
  intro p hp i _
  split
  · exact hp
  · exact marks_followJump hp _

theorem marks_findings : ∀ x ∈ findings m c, x.Marks m := by
  unfold findings
  split
  · refine List.foldlRecOn (motive := fun p : Progress => ∀ x ∈ p.findings, x.Marks m)
      (runtimeCalls m) _ (by simp) ?_
    intro p hp call hcall
    exact marks_fromCall hp (Method.mem_positions.1 (List.mem_filter.1 hcall).1)
  · simp

end Compose

/-! ## Aspects -/

namespace Aspect

theorem marks_memberFindings : ∀ x ∈ memberFindings m, x.Marks m := by
  unfold memberFindings
  split
  · exact marks_ignoreAll
  · split
    · simp
    · split
      · exact marks_ignoreAll
      · intro x hx
        obtain ⟨pos, hpos, hx⟩ := List.mem_filterMap.1 hx
        have hlt := Method.mem_positions.1 hpos
        unfold initialiserRange? at hx
        split at hx
        · cases hx; exact ⟨Nat.zero_le _, hlt⟩
        · split at hx
          · cases hx; exact ⟨by omega, by omega⟩
          · cases hx

theorem marks_prologue : ∀ x ∈ prologue m, x.Marks m := by
  unfold prologue
  split
  · simp
  · split
    · exact marks_ignoreAll
    · next declared hline pos hpos =>
      obtain ⟨hlt, -, -⟩ := Array.findIdx?_eq_some_iff_getElem.1 hpos
      intro x hx
      split at hx
      · obtain rfl := List.mem_singleton.1 hx
        exact ⟨Nat.zero_le _, by show pos - 1 < m.code.size; omega⟩
      · cases hx

theorem callAfter?_bounds {q : Nat} (h : callAfter? m pos = some q) : pos < q ∧ q < m.size := by
  obtain ⟨h₁, h₂, -, -⟩ := firstWhere_eq_some_iff.1 h
  omega

theorem marks_plumbing? {e : Entry} (he : m.code[pos]? = some e)
    (h : plumbing? m pos e = some x) : x.Marks m := by
  have hlt := Method.lt_size_of_entry he
  unfold plumbing? at h
  split at h
  · split at h
    · cases h
      cases hmade : (callAfter? m pos).filter fun q => m.code[q]?.any isJoinPoint with
      | none => exact marks_ignore_self hlt
      | some q =>
        have hq := callAfter?_bounds (Option.filter_eq_some_iff.1 hmade).1
        exact ⟨Nat.le_of_lt hq.1, hq.2⟩
    · cases h
  · split at h
    · cases h; exact marks_ignore_self hlt
    · cases h
  · cases h

theorem marks_adviceHandler? {handler : Nat} (h : adviceHandler? m handler = some x) :
    x.Marks m := by
  simp only [adviceHandler?, Option.bind_eq_bind, Option.bind_eq_some_iff] at h
  obtain ⟨aspectOf, haspect, e, -, h⟩ := h
  split at h
  · simp only [Option.bind_eq_some_iff] at h
    obtain ⟨-, -, advice, hadvice, e', -, h⟩ := h
    split at h
    · simp only [Option.bind_eq_some_iff] at h
      obtain ⟨-, -, thrown, hthrown, h⟩ := h
      cases h
      have h₁ := callAfter?_bounds haspect
      have h₂ := callAfter?_bounds hadvice
      obtain ⟨h₃, h₄, -, -⟩ := firstWhere_eq_some_iff.1 hthrown
      exact ⟨by omega, by omega⟩
    · cases h
  · cases h

theorem marks_advisedFindings : ∀ x ∈ advisedFindings m c, x.Marks m := by
  unfold advisedFindings
  split
  · intro x hx
    rcases List.mem_append.1 hx with hx | hx
    · rcases List.mem_append.1 hx with hx | hx
      · exact marks_prologue x hx
      · obtain ⟨⟨e, pos⟩, hmem, hx⟩ := List.mem_filterMap.1 hx
        exact marks_plumbing? (Method.entry_of_mem_zipIdx hmem) hx
    · obtain ⟨t, -, hx⟩ := List.mem_filterMap.1 hx
      split at hx
      · obtain ⟨handler, -, hx⟩ := Option.bind_eq_some_iff.1 hx
        exact marks_adviceHandler? hx
      · cases hx
  · simp

end Aspect

end Winnow.Idiom
