/-
  Moving through a method: from a position to the real instructions around it,
  from a label to its place, from a position to its source line.

  Both searches, `firstWhere` upwards and `lastWhere` downwards, are characterised
  by an `_eq_some_iff` lemma; the steps between real instructions are instances.
-/
import Winnow.Method.Basic

namespace Winnow

/-- The first of the `count` positions from `start` on that satisfies `p`. -/
def firstWhere (p : Nat → Bool) : (start count : Nat) → Option Nat
  | _, 0 => none
  | start, count + 1 => if p start then some start else firstWhere p (start + 1) count

/-- The last position below `bound` that satisfies `p`. -/
def lastWhere (p : Nat → Bool) : (bound : Nat) → Option Nat
  | 0 => none
  | bound + 1 => if p bound then some bound else lastWhere p bound

theorem firstWhere_eq_some_iff {p : Nat → Bool} {start count pos : Nat} :
    firstWhere p start count = some pos ↔
      start ≤ pos ∧ pos < start + count ∧ p pos ∧ ∀ q, start ≤ q → q < pos → ¬ p q := by
  induction count generalizing start with
  | zero => simp [firstWhere]; omega
  | succ count ih =>
    by_cases hp : p start
    · simp only [firstWhere, hp, ↓reduceIte, Option.some.injEq]
      constructor
      · rintro rfl
        exact ⟨Nat.le_refl _, by omega, hp, fun q h₁ h₂ => by omega⟩
      · rintro ⟨h₁, _, _, h₄⟩
        rcases Nat.eq_or_lt_of_le h₁ with h | h
        · exact h
        · exact absurd hp (h₄ start (Nat.le_refl _) h)
    · simp only [firstWhere, hp, Bool.false_eq_true, ↓reduceIte, ih]
      constructor
      · rintro ⟨h₁, h₂, h₃, h₄⟩
        refine ⟨by omega, by omega, h₃, fun q hq₁ hq₂ => ?_⟩
        rcases Nat.eq_or_lt_of_le hq₁ with rfl | h
        · exact hp
        · exact h₄ q h hq₂
      · rintro ⟨h₁, h₂, h₃, h₄⟩
        have : start ≠ pos := by rintro rfl; exact hp h₃
        exact ⟨by omega, by omega, h₃, fun q hq₁ hq₂ => h₄ q (by omega) hq₂⟩

theorem lastWhere_eq_some_iff {p : Nat → Bool} {bound pos : Nat} :
    lastWhere p bound = some pos ↔ pos < bound ∧ p pos ∧ ∀ q, pos < q → q < bound → ¬ p q := by
  induction bound with
  | zero => simp [lastWhere]
  | succ bound ih =>
    by_cases hp : p bound
    · simp only [lastWhere, hp, ↓reduceIte, Option.some.injEq]
      constructor
      · rintro rfl
        exact ⟨by omega, hp, fun q h₁ h₂ => by omega⟩
      · rintro ⟨h₁, _, h₃⟩
        rcases Nat.eq_or_lt_of_le (Nat.le_of_lt_succ h₁) with h | h
        · exact h.symm
        · exact absurd hp (h₃ bound h (by omega))
    · simp only [lastWhere, hp, Bool.false_eq_true, ↓reduceIte, ih]
      constructor
      · rintro ⟨h₁, h₂, h₃⟩
        refine ⟨by omega, h₂, fun q hq₁ hq₂ => ?_⟩
        rcases Nat.eq_or_lt_of_le (Nat.le_of_lt_succ hq₂) with rfl | h
        · exact hp
        · exact h₃ q hq₁ h
      · rintro ⟨h₁, h₂, h₃⟩
        have : bound ≠ pos := by rintro rfl; exact hp h₂
        exact ⟨by omega, h₂, fun q hq₁ hq₂ => h₃ q hq₁ (by omega)⟩

namespace Method

/-! ## Real instructions -/

/-- The first real instruction at or after `pos`. -/
def realFrom? (m : Method) (pos : Nat) : Option Nat :=
  firstWhere m.isReal pos (m.size - pos)

/-- The first real instruction strictly after `pos`. -/
def realAfter? (m : Method) (pos : Nat) : Option Nat :=
  m.realFrom? (pos + 1)

/-- The last real instruction strictly before `pos`. -/
def realBefore? (m : Method) (pos : Nat) : Option Nat :=
  lastWhere m.isReal (min pos m.size)

def firstReal? (m : Method) : Option Nat :=
  m.realFrom? 0

def lastReal? (m : Method) : Option Nat :=
  m.realBefore? m.size

/-- All positions of the method. -/
def positions (m : Method) : List Nat :=
  List.range m.size

/-- The positions of the real instructions, in order. -/
def reals (m : Method) : List Nat :=
  m.positions.filter m.isReal

/-! ## Labels and lines -/

/-- The position of the entry that places the label. -/
def resolve? (m : Method) (l : Label) : Option Nat :=
  m.code.findIdx? (fun e => e.placed? == some l)

/-- The first real instruction executed after a jump to the label. -/
def target? (m : Method) (l : Label) : Option Nat :=
  (m.resolve? l).bind m.realFrom?

/-- The source line in effect at `pos`: that of the closest line entry at or
    before it. -/
def lineAt? (m : Method) (pos : Nat) : Option Nat :=
  (lastWhere (fun q => (m.code[q]?.bind Entry.line?).isSome) (min (pos + 1) m.size)).bind
    fun q => m.code[q]?.bind Entry.line?

end Method

end Winnow
