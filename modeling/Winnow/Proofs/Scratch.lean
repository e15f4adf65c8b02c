/-
  Scratch cells.

  * Writing one cell leaves the others as they are;
  * `getOrInit_fst`: a cell that holds nothing but the computed value is a transparent
    cache, also after computations that failed.
-/
import Winnow.Scratch
import Winnow.Proofs.Sorted

namespace Winnow.Scratch

variable {τ : Type} [DecidableEq τ] {El : τ → Type} {s : Scratch El} {t u : τ}
  {key key' : String}

theorem get?_set_self {v : El t} : (s.set t key v).get? t key = some v := by
  simp [get?, set, Sorted.lookup_put_self, read?]

theorem get?_set_of_ne (h : key' ≠ key) {v : El t} :
    (s.set t key v).get? u key' = s.get? u key' := by
  simp [get?, set, Sorted.lookup_put_of_ne h]

section
variable {ε : Type} {init : Unit → Except ε (El t)}

theorem getOrInit_of_some {v : El t} (h : s.get? t key = some v) :
    s.getOrInit t key init = (.ok v, s) := by
  rw [getOrInit, getOrInitM, h]; rfl

theorem getOrInit_of_ok {v : El t} (h : s.get? t key = none) (hok : init () = .ok v) :
    s.getOrInit t key init = (.ok v, s.set t key v) := by
  rw [getOrInit, getOrInitM, h, hok]; rfl

theorem getOrInit_of_error {e : ε} (h : s.get? t key = none) (herror : init () = .error e) :
    s.getOrInit t key init = (.error e, s) := by
  rw [getOrInit, getOrInitM, h, herror]; rfl

/-- The cell is empty or holds the value that is computed. -/
def Caches (s : Scratch El) (t : τ) (key : String) (init : Unit → Except ε (El t)) : Prop :=
  ∀ v, s.get? t key = some v → init () = .ok v

theorem getOrInit_fst (h : s.Caches t key init) : (s.getOrInit t key init).1 = init () := by
  cases hv : s.get? t key with
  | some v => rw [getOrInit_of_some hv, h v hv]
  | none =>
    cases hi : init () with
    | ok w => rw [getOrInit_of_ok hv hi]
    | error e => rw [getOrInit_of_error hv hi]

theorem caches_getOrInit (h : s.Caches t key init) :
    (s.getOrInit t key init).2.Caches t key init := by
  cases hv : s.get? t key with
  | some v => rwa [getOrInit_of_some hv]
  | none =>
    cases hi : init () with
    | error e => rwa [getOrInit_of_error hv hi]
    | ok w =>
      rw [getOrInit_of_ok hv hi]
      intro v hv'
      rw [get?_set_self] at hv'
      rw [hi, Option.some.inj hv']

theorem get?_getOrInit_of_ne (h : key' ≠ key) :
    (s.getOrInit t key init).2.get? u key' = s.get? u key' := by
  cases hv : s.get? t key with
  | some v => rw [getOrInit_of_some hv]
  | none =>
    cases hi : init () with
    | error e => rw [getOrInit_of_error hv hi]
    | ok w => rw [getOrInit_of_ok hv hi, get?_set_of_ne h]

end

end Winnow.Scratch
