/-
  Default arms that only throw.

  A switch that covers every constant of an enumeration or every case of a sealed
  type still needs a default, and so does an exhaustive `when`.  The compiler adds
  an arm that throws.  The arm is ignored, and the default is left out of the
  branches of the switch.
-/
import Winnow.Pattern.Cursor
import Winnow.Report.Grouping
import Winnow.Filter

namespace Winnow.Idiom.DefaultArm

/-- Throw a new exception built without arguments. -/
def throwNew (exception : String) : List Step :=
  [.type .new exception, .opcode .dup, .call .invokeSpecial exception "<init>" "()V",
    .opcode .athrow]

/-! ## Exhaustive switches -/

/-- Throw a new match failure without message and cause. -/
def throwMatchFailure : List Step :=
  [.type .new "java/lang/MatchException", .opcode .dup, .opcode .aconstNull,
    .opcode .aconstNull, .call .invokeSpecial "java/lang/MatchException" "<init>" anyText,
    .opcode .athrow]

/-- The last instruction of an arm at `start` that only throws. -/
def armEnd? (m : Method) (start : Nat) : Option Nat :=
  (m.matchFrom start (throwNew "java/lang/IncompatibleClassChangeError")).matched? <|>
    (m.matchFrom start throwMatchFailure).matched?

/-- The line set between `start` and the first real instruction from there on. -/
def ownLine? (m : Method) (start : Nat) : Option Nat :=
  ((m.code.toList.drop start).takeWhile Entry.isPseudo).findSome? Entry.line?

/-- Whether only the switch leads to the label: no other instruction names it as a
    target, and control does not fall into it. -/
def reachedOnlyFrom (m : Method) (switch : Nat) (l : Label) : Bool :=
  (m.code.toList.zipIdx.all fun (e, pos) => pos == switch || !e.targets.contains l) &&
    ((m.resolve? l).any fun pos => ((m.realBefore? pos).bind m.opcode?).any Opcode.endsFlow)

/-- The findings for the switch at `pos`. -/
def ofSwitch? (m : Method) (pos : Nat) (e : Entry) : Option (List Finding) := do
  let (default, cases) ← e.switch?
  guard (!cases.contains default && reachedOnlyFrom m pos default)
  let start ← m.resolve? default
  let last ← armEnd? m start
  guard ((ownLine? m start).all fun line => m.lineAt? pos == some line)
  return [.ignore start last, .replace pos (m.withoutDefault pos)]

def switchFindings (m : Method) : List Finding :=
  (m.code.toList.zipIdx.filterMap fun (e, pos) => ofSwitch? m pos e).flatten

/-! ## Exhaustive `when` expressions -/

/-- A test that jumps to the label when it fails. -/
def testsFor (l : Label) (e : Entry) : Bool :=
  e.hasOpcode .ifEq && e.jump? == some l

/-- A switch with the label as its default. -/
def defaultsTo (l : Label) (e : Entry) : Bool :=
  e.switch?.any fun (default, _) => default == l

/-- The findings for a throwing arm at the label placed at `pos`: the closest test or
    switch before it that leads there is the end of the `when`. -/
def ofArm? (m : Method) (pos : Nat) (e : Entry) : Option (List Finding) := do
  let l ← e.placed?
  let last ← (m.matchFrom pos (throwNew "kotlin/NoWhenBranchMatchedException")).matched?
  let source ← lastWhere (fun q => m.code[q]?.any fun e => testsFor l e || defaultsTo l e) pos
  if m.code[source]?.any (testsFor l) then return [.ignore source source, .ignore pos last]
  else return [.replace source (m.withoutDefault source), .ignore pos last]

def whenFindings (m : Method) : List Finding :=
  (m.code.toList.zipIdx.filterMap fun (e, pos) => ofArm? m pos e).flatten

end Winnow.Idiom.DefaultArm
