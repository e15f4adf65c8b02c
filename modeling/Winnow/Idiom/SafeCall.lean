/-
  Chains of safe calls.

  A chain `a?.b?.c` tests every link for null and jumps to one place that yields
  null.  Every test of the chain gets the same two branches: the chain reached its
  end, or some link was null.
-/
import Winnow.Idiom.NullCheck
import Winnow.Report.Grouping

namespace Winnow.Idiom.SafeCall

/-- Adds the test at `pos` to those that jump to its label.  There is a row for each
    label, by increasing number. -/
def addTest (m : Method) (rows : List (Nat × List Nat)) (pos : Nat) : List (Nat × List Nat) :=
  match m.code[pos]?.bind Entry.jump? with
  | some l => Sorted.put l.id ((rows.lookup l.id).getD [] ++ [pos]) rows
  | none => rows

/-- The tests for null by the number of the label that they jump to. -/
def testsByLabel (m : Method) : List (Nat × List Nat) :=
  (NullCheck.jumps m .ifNull).foldl (addTest m) []

/-- The opcode of the real instruction before `pos`. -/
def opcodeBefore? (m : Method) (pos : Nat) : Option Opcode :=
  (m.realBefore? pos).bind m.opcode?

/-- Whether the tests jump forward to a place that yields null and that control only
    jumps around.  The tested value is copied before every test and dropped there, or
    is loaded from a variable. -/
def isChain (m : Method) (l : Label) (tests : List Nat) : Bool :=
  match m.resolve? l with
  | none => false
  | some pos =>
    tests.all (· ≤ pos) && opcodeBefore? m pos == some .goto &&
      if (m.matchFrom pos [.opcode .pop, .opcode .aconstNull]).isActive then
        tests.all fun test => opcodeBefore? m test == some .dup
      else
        (m.matchFrom pos [.opcode .aconstNull]).isActive &&
          tests.all fun test => opcodeBefore? m test == some .aload

/-- The tests of each chain, which has at least two. -/
def chains (m : Method) : List (List Nat) :=
  ((testsByLabel m).filter fun (l, tests) => 1 < tests.length && isChain m ⟨l⟩ tests).map (·.2)

/-- Gives every test of a chain the branches of the last one: its way on, and the place
    where all tests lead. -/
def ofChain (m : Method) (tests : List Nat) : List Finding :=
  match tests.getLast? with
  | none => []
  | some last =>
    match (m.code[last]?.bind Entry.jump?).bind m.target? with
    | none => []
    | some target =>
      let groups := (Grouping.ofList [(last, ⟨last, 0⟩), (target, ⟨target, 0⟩)]).groups
      tests.map fun test => .replace test groups

def findings (m : Method) (c : ClassInfo) : List Finding :=
  if c.isKotlin then (chains m).flatMap (ofChain m) else []

end Winnow.Idiom.SafeCall
