/-
  Records: the methods that the compiler adds to them, and the handlers around record
  patterns, which turn an exception of an accessor into a match failure.
-/
import Winnow.Pattern.Cursor
import Winnow.Filter

namespace Winnow.Idiom.Record

/-! ## Members -/

/-- A dynamic call that is bootstrapped by the object methods of records. -/
def objectMethod : Step :=
  .satisfying fun e => match e with
    | .dynamicCall _ _ bootstrap _ =>
      bootstrap.owner == "java/lang/runtime/ObjectMethods" && bootstrap.name == "bootstrap"
    | _ => false

def isObjectMethod (m : Method) : Bool :=
  (m.name == "toString" && m.desc == "()Ljava/lang/String;" &&
    (m.matchFrom 0 [.slot .aload 0, objectMethod, .opcode .areturn]).isActive) ||
  (m.name == "hashCode" && m.desc == "()I" &&
    (m.matchFrom 0 [.slot .aload 0, objectMethod, .opcode .ireturn]).isActive) ||
  (m.name == "equals" && m.desc == "(Ljava/lang/Object;)Z" &&
    (m.matchFrom 0 [.slot .aload 0, .slot .aload 1, objectMethod, .opcode .ireturn]).isActive)

/-- A method that only returns the field of its name and type. -/
def isAccessor (m : Method) (c : ClassInfo) : Bool :=
  !m.isStatic &&
    (c.fields.find? fun f => f.name == m.name && m.desc == "()" ++ f.desc).any fun f =>
      (m.matchFrom 0 [.slot .aload 0, .field .getField c.name f.name f.desc,
        .satisfying fun e => e.opcode?.any Opcode.isReturn]).matched?.any fun last =>
          (m.realAfter? last).isNone

def isMember (m : Method) (c : ClassInfo) : Bool :=
  c.superName == some "java/lang/Record" && (isObjectMethod m || isAccessor m c)

/-! ## Patterns -/

/-- Throw a match failure with the message and the cause of the exception. -/
def matchFailure : List Step :=
  let failure := "java/lang/MatchException"
  [.var .astore "cause", .type .new failure, .opcode .dup, .var .aload "cause",
    .call .invokeVirtual "java/lang/Throwable" "toString" "()Ljava/lang/String;",
    .var .aload "cause", .call .invokeSpecial failure "<init>" anyText, .opcode .athrow]

/-- The positions of the handlers of all throwables, in order. -/
def handlers (m : Method) : List Nat :=
  Sorted.ofList (m.tries.filterMap fun t =>
    if t.caught = some "java/lang/Throwable" then m.resolve? t.handler else none)

def patternFindings (m : Method) : List Finding :=
  (handlers m).filterMap fun handler =>
    (m.matchFrom handler matchFailure).matched?.map (.ignore handler ·)

end Winnow.Idiom.Record
