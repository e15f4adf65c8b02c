/-
  Counting loops.

  A Kotlin loop over a range is compiled into a test before the body, which skips an
  empty range, and a test behind it, which goes back.  Both tests are ignored.
-/
import Winnow.Method.Navigation
import Winnow.Filter

namespace Winnow.Idiom.CountingLoop

def isIncrement : Entry → Bool
  | .increment .. => true
  | _ => false

/-- The loop whose first test is at `entry`: the test jumps behind the loop, and the
    last instruction before that goes back to the label right behind the first test. -/
def loopAt? (m : Method) (entry : Nat) : Option (List Finding) := do
  let .jump op exit ← m.code[entry]? | none
  guard (op = .ifIcmpGe ∨ op = .ifIcmpGt)
  let .label body ← m.code[entry + 1]? | none
  let back ← (m.resolve? exit).bind m.realBefore?
  guard (entry < back)
  let .jump op l ← m.code[back]? | none
  guard ((op = .ifIcmpLt ∨ op = .ifIcmpLe ∨ op = .ifIcmpNe) ∧ l = body)
  guard ((m.code.toList.take back).drop (entry + 1) |>.any isIncrement)
  return [.ignore entry entry, .ignore back back]

def findings (m : Method) (c : ClassInfo) : List Finding :=
  if c.isKotlin then (m.positions.filterMap (loopAt? m)).flatten else []

end Winnow.Idiom.CountingLoop
