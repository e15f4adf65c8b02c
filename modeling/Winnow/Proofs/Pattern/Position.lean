/-
  Where a cursor gets to.

  A pattern moves a cursor forward only, and the instruction matched last is a real one
  behind the place where matching started.  `Reached` says so; it holds after the first
  step of a pattern and is kept by all that follows.  `exists_matches` explains a match by an
  assignment and the instructions matched.
-/
import Winnow.Proofs.Pattern.Meaning

namespace Winnow

namespace Cursor

variable {m : Method} {c : Cursor} {s : Step} {lo pos q : Nat}

/-- An active cursor stands at `lo` or behind it. -/
def From (lo : Nat) (c : Cursor) : Prop :=
  ∀ p, c.place = some p → lo ≤ p.next

/-- An active cursor stands in the method, behind a real instruction at `lo` or behind
    it, the one matched last. -/
def Reached (m : Method) (lo : Nat) (c : Cursor) : Prop :=
  ∀ p, c.place = some p →
    ∃ q, p.matched = some q ∧ lo ≤ q ∧ q < p.next ∧ p.next ≤ m.size ∧ m.isReal q

theorem from_moveTo (c : Cursor) (pos : Nat) : From pos (c.moveTo pos) := by
  rintro p ⟨⟩; exact Nat.le_refl _

theorem from_movePast (c : Cursor) (pos : Nat) : From (pos + 1) (c.movePast pos) := by
  rintro p ⟨⟩; exact Nat.le_refl _

theorem Reached.from (h : Reached m lo c) : From lo c := by
  intro p hp
  obtain ⟨q, -, hlo, hq, -, -⟩ := h p hp
  omega

theorem Reached.exists_place (h : Reached m lo c) (hq : c.matched? = some q) :
    ∃ p, c.place = some p ∧ lo ≤ q ∧ q < p.next ∧ p.next ≤ m.size ∧ m.isReal q := by
  obtain ⟨p, hp, hpq⟩ := Option.bind_eq_some_iff.1 hq
  obtain ⟨q', hq', hlo, hlt, hsize, hr⟩ := h p hp
  obtain rfl := Option.some.inj (hpq.symm.trans hq')
  exact ⟨p, hp, hlo, hlt, hsize, hr⟩

theorem Reached.of_matched? (h : Reached m lo c) (hq : c.matched? = some q) :
    lo ≤ q ∧ m.isReal q := by
  obtain ⟨-, -, hlo, -, -, hr⟩ := h.exists_place hq
  exact ⟨hlo, hr⟩

/-- Matching goes on behind the instruction matched last. -/
theorem Reached.from_matched? (h : Reached m lo c) (hq : c.matched? = some q) :
    From (q + 1) c := by
  obtain ⟨p, hp, -, hlt, -⟩ := h.exists_place hq
  intro p' hp'
  obtain rfl := Option.some.inj (hp.symm.trans hp')
  exact hlt

theorem isActive_of_matched? (hq : c.matched? = some q) : c.isActive := by
  obtain ⟨p, hp, -⟩ := Option.bind_eq_some_iff.1 hq
  simp [isActive, hp]

/-! ## Steps -/

theorem From.step (h : From lo c) : Reached m lo (c.step m s) := by
  obtain ⟨_ | p, b⟩ := c
  · intro p hp; cases hp
  rcases step_cases m p b s with ⟨pos, e, b', hpos, -, -, hstep⟩ | ⟨hstep, -⟩
  · rw [hstep]
    rintro p' ⟨⟩
    obtain ⟨hle, hr, -⟩ := Method.realFrom?_eq_some_iff.1 hpos
    exact ⟨pos, rfl, Nat.le_trans (h p rfl) hle, Nat.lt_succ_self _,
      Method.lt_size_of_isReal hr, hr⟩
  · rw [hstep]; intro p' hp'; cases hp'

theorem Reached.run (h : Reached m lo c) (steps : List Step) : Reached m lo (c.run m steps) := by
  induction steps generalizing c with
  | nil => exact h
  | cons s steps ih => exact ih h.from.step

/-- A pattern with a step matches a real instruction. -/
theorem From.run (h : From lo c) {steps : List Step} (hs : steps ≠ []) :
    Reached m lo (c.run m steps) := by
  cases steps with
  | nil => exact absurd rfl hs
  | cons s steps => exact h.step.run steps

theorem Reached.passLabel (h : Reached m lo c) (name : String) :
    Reached m lo (c.passLabel m name) := by
  obtain ⟨_ | p, b⟩ := c
  · intro p hp; cases hp
  · obtain ⟨q, hq, hlo, hlt, -, hr⟩ := h p rfl
    intro p' hp'
    simp only [Cursor.passLabel] at hp'
    split at hp'
    · cases hp'
    · split at hp'
      · next hlabel =>
        obtain ⟨e, he, -⟩ := Option.bind_eq_some_iff.1 hlabel
        cases hp'
        exact ⟨q, hq, hlo, Nat.lt_succ_of_lt hlt, Method.lt_size_of_entry he, hr⟩
      · cases hp'

/-! ## What is matched -/

variable {steps : List Step}

/-- A match explained by an assignment and the instructions that follow each other, the last
    of them right before the cursor. -/
theorem exists_matches (hs : steps ≠ []) (h : (c.run m steps).matched? = some q) :
    ∃ p σ places, c.place = some p ∧ m.Successive (m.realFrom? p.next) places ∧
      m.Matches σ steps places ∧ places.getLast? = some q ∧
      (c.run m steps).place = some ⟨q + 1, some q⟩ := by
  obtain ⟨_ | p, b⟩ := c
  · rw [run_failed] at h; cases h
  rcases run_cases m p b steps with ⟨places, hm⟩ | ⟨hfail, -⟩
  · obtain ⟨-, hmatches⟩ := (hm.extends_iff _).1 (Bindings.extends_assignment _)
    have hplace := hm.place
    cases hlast : places.getLast? with
    | none =>
      rw [List.getLast?_eq_none_iff.1 hlast] at hmatches
      exact absurd (List.forall₂_nil_right_iff.1 hmatches) hs
    | some q' =>
      rw [hlast, Option.elim_some] at hplace
      obtain rfl : q' = q := by simpa [matched?, hplace] using h
      exact ⟨p, _, places, rfl, hm.successive, hmatches, hlast, hplace⟩
  · simp [matched?, hfail] at h

end Cursor

namespace Method

variable {m : Method} {steps : List Step}

theorem reached_matchFrom (pos : Nat) (hs : steps ≠ []) :
    Cursor.Reached m pos (m.matchFrom pos steps) :=
  Cursor.From.run (by rintro p ⟨⟩; exact Nat.le_refl _) hs

theorem reached_matchPast (pos : Nat) (hs : steps ≠ []) :
    Cursor.Reached m (pos + 1) (m.matchPast pos steps) :=
  Cursor.From.run (by rintro p ⟨⟩; exact Nat.le_refl _) hs

/-- A match from the start, explained by an assignment and the instructions that follow each
    other. -/
theorem exists_matches {pos q : Nat} (h : (m.matchFrom pos steps).matched? = some q) :
    ∃ σ places, m.Successive (m.realFrom? pos) places ∧ m.Matches σ steps places ∧
      places.getLast? = some q ∧ (m.matchFrom pos steps).place = some ⟨q + 1, some q⟩ := by
  have hs : steps ≠ [] := by rintro rfl; cases h
  obtain ⟨p, σ, places, hp, hexplained⟩ := Cursor.exists_matches hs h
  cases hp
  exact ⟨σ, places, hexplained⟩

end Method

end Winnow
