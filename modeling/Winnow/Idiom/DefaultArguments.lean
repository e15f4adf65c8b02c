/-
  Default arguments.

  A function with default arguments has a synthetic variant with two more
  parameters: a mask of the arguments that were left out and a marker.  The variant
  first may reject calls through `super`, then tests the mask once per argument.
  The rejection and the tests are ignored; the default values are not.
-/
import Winnow.Pattern.Cursor
import Winnow.Descriptor
import Winnow.Text.Basic
import Winnow.Filter

namespace Winnow.Idiom.DefaultArguments

def isVariantMethod (m : Method) : Bool :=
  Text.endsWith "$default" m.name

def isVariantConstructor (m : Method) : Bool :=
  m.name == "<init>" && (Descriptor.argumentTypes? m.desc).any fun args =>
    2 ≤ args.length && args.getLast? == some "Lkotlin/jvm/internal/DefaultConstructorMarker;"

/-- The local variable of the mask: it follows the receiver of a constructor and the
    arguments, of which the last two are mask and marker. -/
def maskSlot? (m : Method) : Option Nat := do
  guard (isVariantMethod m || isVariantConstructor m)
  let args ← Descriptor.argumentTypes? m.desc
  guard (2 ≤ args.length)
  let receiver := if isVariantMethod m then 0 else 1
  return receiver + Descriptor.totalSlots (args.take (args.length - 2))

/-- Throw if the marker is not null. -/
def rejection : List Step :=
  let exception := "java/lang/UnsupportedOperationException"
  [.opcode .aload, .opcode .ifNull, .type .new exception, .opcode .dup,
    .satisfying fun e => e.text?.any <| Text.startsWith
      "Super calls with default arguments not supported in this target",
    .call .invokeSpecial exception "<init>" "(Ljava/lang/String;)V", .opcode .athrow]

/-- The test that starts with a load of the mask at `load`: its jump and where the
    jump leads. -/
def maskTest? (m : Method) (load : Nat) : Option (Nat × Nat) := do
  let jump ← (m.matchPast load [.any, .opcode .iand, .opcode .ifEq]).matched?
  let next ← (m.code[jump]?.bind Entry.jump?).bind m.resolve?
  return (jump, next)

/-- The jumps of the tests from `pos` on, each test being followed to where its jump
    leads; nothing if one is malformed.  A walk with more rounds than the method has
    positions comes back to the same test for ever. -/
def maskJumps? (m : Method) (mask : Nat) : (rounds : Nat) → (pos : Nat) → Option (List Nat)
  | 0, _ => none
  | rounds + 1, pos =>
    match m.realFrom? pos with
    | none => some []
    | some load =>
      if m.code[load]? = some (.var .iload mask) then
        match maskTest? m load with
        | none => none
        | some (jump, next) => (maskJumps? m mask rounds next).map (jump :: ·)
      else some []

def findings (m : Method) (c : ClassInfo) : List Finding :=
  if m.isSynthetic && c.isKotlin then
    match maskSlot? m with
    | none => []
    | some mask =>
      let rejected := (m.matchFrom 0 rejection).matched?
      let start := (rejected.map (· + 1)).getD 0
      match maskJumps? m mask (m.size + 1) start with
      | none => []
      | some jumps =>
        (rejected.map (Finding.ignore 0 ·)).toList ++ jumps.map fun pos => .ignore pos pos
  else []

end Winnow.Idiom.DefaultArguments
