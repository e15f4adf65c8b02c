/-
  Scratch cells: what the filters of a class remember from method to method.

  A scratch map binds keys to values of different types.  A cell knows the type of
  its value: reading it at another type finds nothing, and writing it at another
  type replaces it.  Types are the elements of an index type `τ`, and `El t` is the
  type of values that `t` stands for.
-/
import Winnow.Sorted
import Winnow.Text.Quoted

namespace Winnow

/-- Typed cells by key, in the order of the keys. -/
structure Scratch {τ : Type} (El : τ → Type) where
  cells : List (String × (t : τ) × El t) := []

namespace Scratch

variable {τ : Type} [DecidableEq τ] {El : τ → Type}

/-- The value of a cell at type `t`. -/
def read? (t : τ) : ((u : τ) × El u) → Option (El t)
  | ⟨u, v⟩ => if h : u = t then some (h ▸ v) else none

/-- The value under `key`, if there is one and it has type `t`. -/
def get? (s : Scratch El) (t : τ) (key : String) : Option (El t) :=
  (s.cells.lookup key).bind (read? t)

/-- Stores a value under `key`, whatever was there. -/
def set (s : Scratch El) (t : τ) (key : String) (v : El t) : Scratch El :=
  ⟨Sorted.put key ⟨t, v⟩ s.cells⟩

/-- The value under `key` at type `t`, or else the value that `init` computes, which
    is then stored.  If `init` fails nothing changes.  Computing may have effects. -/
def getOrInitM {μ : Type → Type} [Monad μ] {ε : Type} (s : Scratch El) (t : τ) (key : String)
    (init : Unit → μ (Except ε (El t))) : μ (Except ε (El t) × Scratch El) :=
  match s.get? t key with
  | some v => pure (.ok v, s)
  | none => do
    match ← init () with
    | .ok v => pure (.ok v, s.set t key v)
    | .error e => pure (.error e, s)

/-- The same for a computation without effects. -/
def getOrInit {ε : Type} (s : Scratch El) (t : τ) (key : String) (init : Unit → Except ε (El t)) :
    Except ε (El t) × Scratch El :=
  Id.run (s.getOrInitM t key fun _ => pure (init ()))

/-- Runs `f` on the value under `key`, taken as `zero` when absent or of another type,
    and stores the value that it leaves. -/
def update {ρ : Type} (s : Scratch El) (t : τ) (key : String) (zero : El t)
    (f : El t → ρ × El t) : ρ × Scratch El :=
  let (result, v) := f ((s.get? t key).getD zero)
  (result, s.set t key v)

/-- The keys in use, in order. -/
def keys (s : Scratch El) : List String :=
  s.cells.map (·.1)

/-- A text that tells the keys in use. -/
def describe (s : Scratch El) : String :=
  "Scratch \x7b keys: \x7b" ++ ", ".intercalate (s.keys.map Text.quoted) ++ "\x7d \x7d"

end Scratch

/-- The types of values that filters keep. -/
inductive CellType where
  | number
  | text
  /-- A source line that may be unknown. -/
  | line
deriving DecidableEq

/-- The values of a cell type. -/
def CellType.Value : CellType → Type
  | number => Nat
  | text => String
  | line => Option Nat

/-- The scratch cells of one class. -/
abbrev ClassScratch := Scratch CellType.Value

end Winnow
