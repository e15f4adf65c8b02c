/-
  Null checks of Kotlin operators: reads of late-initialised properties, the
  not-null assertion and casts to a type without null.  Each is a jump over code
  that throws, which is ignored with the jump.
-/
import Winnow.Pattern.Cursor
import Winnow.Text.Basic
import Winnow.Filter

namespace Winnow.Idiom.NullCheck

def intrinsics : String := "kotlin/jvm/internal/Intrinsics"

/-- The jump entries with opcode `op`. -/
def jumps (m : Method) (op : Opcode) : List Nat :=
  m.positions.filter fun pos =>
    match m.code[pos]? with
    | some (.jump op' _) => op' == op
    | _ => false

/-- Ignores every jump on a value that is not null together with the pattern behind
    it, the first of the given ones that matches. -/
def skipped (m : Method) (c : ClassInfo) (patterns : List (List Step)) : List Finding :=
  if c.isKotlin then
    (jumps m .ifNonNull).filterMap fun pos =>
      (patterns.findSome? fun pattern => (m.matchPast pos pattern).matched?).map (.ignore pos ·)
  else []

def lateinitFindings (m : Method) (c : ClassInfo) : List Finding :=
  skipped m c [[.opcode .ldc,
    .call .invokeStatic intrinsics "throwUninitializedPropertyAccessException"
      "(Ljava/lang/String;)V"]]

/-- The name of the throwing function depends on the version of the compiler. -/
def assertionFindings (m : Method) (c : ClassInfo) : List Finding :=
  skipped m c (["throwNpe", "throwJavaNpe"].map fun name =>
    [.call .invokeStatic intrinsics name "()V"])

/-- Throw an exception that tells of a failed cast. -/
def throwCastFailure (exception : String) : List Step :=
  [.type .new exception, .opcode .dup,
    .satisfying fun e => e.text?.any (Text.startsWith "null cannot be cast to non-null type"),
    .call .invokeSpecial exception "<init>" "(Ljava/lang/String;)V", .opcode .athrow]

/-- The exception depends on the version of the compiler. -/
def castFindings (m : Method) (c : ClassInfo) : List Finding :=
  skipped m c
    (["kotlin/TypeCastException", "java/lang/NullPointerException"].map throwCastFailure)

end Winnow.Idiom.NullCheck
