/-
  Number literals.

  A literal has an optional minus, an integer part without leading zeros, and an
  optional fraction and exponent.  It is refused when it is too large for a double:
  the digits that fit in 64 bits, rounded to a double, times the power of ten for the
  rest, rounded to a double too, overflow.
-/
import Winnow.Json.Basic

namespace Winnow.Json

/-! ## Range -/

/-- The natural number rounded to 53 significant bits, a tie to the even neighbour. -/
def round53 (n : Nat) : Nat :=
  if n < Nat.pow 2 53 then n
  else
    let unit := Nat.pow 2 (n.log2 - 52)
    let quotient := n / unit
    let rest := n % unit
    if 2 * rest > unit ∨ (2 * rest = unit ∧ quotient % 2 = 1) then (quotient + 1) * unit
    else quotient * unit

/-- Appends digits to a number as long as it fits in 64 bits, and counts them. -/
def appendDigits (n : Nat) : List Nat → Nat × Nat
  | [] => (n, 0)
  | d :: ds =>
    if 10 * n + d < Nat.pow 2 64 then
      let (n', count) := appendDigits (10 * n + d) ds
      (n', count + 1)
    else (n, 0)

/-- Whether a literal with this integer part, fraction and exponent is a double. -/
def isDouble (integer fraction : List Nat) (exponent : Int) : Bool :=
  let (n, kept) := appendDigits 0 integer
  let (n, behind) := appendDigits n fraction
  let e : Int := (integer.length - kept : Nat) - (behind : Int) + exponent
  n = 0 || e < 0 ||
    (e ≤ 308 && round53 n * round53 (Nat.pow 10 e.toNat) < Nat.pow 2 1024 - Nat.pow 2 970)

/-! ## Literals -/

def digitValue (c : Char) : Nat :=
  c.toNat - '0'.toNat

def digitsValue (ds : List Nat) : Nat :=
  ds.foldl (fun n d => 10 * n + d) 0

/-- The digits at the front, and the rest. -/
def splitDigits (cs : List Char) : List Nat × List Char :=
  ((cs.takeWhile Char.isDigit).map digitValue, cs.dropWhile Char.isDigit)

/-- A fraction, which may be missing. -/
def fraction? (cs : List Char) : Option (List Nat × List Char) :=
  match cs with
  | '.' :: cs =>
    let (ds, rest) := splitDigits cs
    if ds.isEmpty then none else some (ds, rest)
  | cs => some ([], cs)

/-- The digits of an exponent, up to the end. -/
def exponentDigits? (cs : List Char) : Option Nat :=
  let (ds, rest) := splitDigits cs
  if ds.isEmpty || !rest.isEmpty then none else some (digitsValue ds)

/-- An exponent up to the end, which may be missing. -/
def exponent? (cs : List Char) : Option Int :=
  match cs with
  | [] => some 0
  | c :: cs =>
    if c = 'e' ∨ c = 'E' then
      match cs with
      | '+' :: cs => (exponentDigits? cs).map Int.ofNat
      | '-' :: cs => (exponentDigits? cs).map fun n => -Int.ofNat n
      | cs => (exponentDigits? cs).map Int.ofNat
    else none

/-- A literal without its sign. -/
def magnitude? (cs : List Char) : Option Decimal := do
  let (integer, rest) := splitDigits cs
  guard (!integer.isEmpty && (integer.head? != some 0 || integer.length == 1))
  let (fraction, rest) ← fraction? rest
  let exponent ← exponent? rest
  guard (isDouble integer fraction exponent)
  return ⟨digitsValue (integer ++ fraction), exponent - fraction.length⟩

/-- Reads a number literal. -/
def number? (cs : List Char) : Option Decimal :=
  match cs with
  | '-' :: cs => (magnitude? cs).map fun d => { d with mantissa := -d.mantissa }
  | cs => magnitude? cs

end Winnow.Json
