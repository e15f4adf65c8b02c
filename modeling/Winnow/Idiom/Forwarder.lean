/-
  Methods that only forward to another one: load arguments, call, return.
-/
import Winnow.Method.Navigation
import Winnow.Text.Basic
import Winnow.Filter

namespace Winnow.Idiom.Forwarder

def isArgument (m : Method) (pos : Nat) : Bool :=
  (m.opcode? pos).any fun op => op.isLoad || op.isConstant

/-- The call of a method whose other instructions are loads and constants before it
    and one return behind it. -/
def call? (m : Method) : Option (Nat × Entry) :=
  match m.reals.dropWhile (isArgument m) with
  | [call, ret] =>
    match m.code[call]? with
    | some (.call op owner name desc interface) =>
      if (m.opcode? ret).any Opcode.isReturn then
        some (call, .call op owner name desc interface)
      else none
    | _ => none
  | _ => none

/-- A method of a class that forwards to the default method of an interface. -/
def isDefaultMethod (m : Method) (c : ClassInfo) : Bool :=
  c.isKotlin &&
    (match call? m with
    | some (_, .call op owner _ _ _) => op == .invokeStatic && Text.endsWith "$DefaultImpls" owner
    | _ => false) &&
    (m.firstReal?.bind (m.code[·]?)) == some (.var .aload 0)

/-- An overload that calls the variant with default arguments. -/
def isOverload (m : Method) (c : ClassInfo) : Bool :=
  c.isKotlin && m.hasAnnotation "Lkotlin/jvm/JvmOverloads;" &&
    match call? m with
    | some (pos, .call op _ name desc _) =>
      !(m.code.toList.take pos).any (·.line?.isSome) &&
        ((op == .invokeSpecial && name == "<init>" &&
            Text.endsWith "Lkotlin/jvm/internal/DefaultConstructorMarker;)V" desc) ||
          (op == .invokeStatic && name == m.name ++ "$default"))
    | _ => false

end Winnow.Idiom.Forwarder
