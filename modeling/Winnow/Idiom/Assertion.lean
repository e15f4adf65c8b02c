/-
  Assert statements.

  A class with assertions has a field that tells whether they are disabled.  Its
  initialisation and the tests of it are ignored; the asserted conditions are not.
-/
import Winnow.Pattern.Cursor
import Winnow.Filter

namespace Winnow.Idiom.Assertion

def flag : String := "$assertionsDisabled"

/-- Set the flag from the assertion status of the class. -/
def initialisation (className : String) : List Step :=
  [.satisfying fun e => match e with
      | .constant (.type desc) => desc == className
      | _ => false,
    .call .invokeVirtual "java/lang/Class" "desiredAssertionStatus" "()Z", .opcode .ifNe,
    .opcode .iconst1, .opcode .goto, .opcode .iconst0, .field .putStatic className flag "Z"]

/-- Jump over an assertion when the flag is set. -/
def test (className : String) : List Step :=
  [.field .getStatic className flag "Z", .opcode .ifNe]

def findings (m : Method) (c : ClassInfo) : List Finding :=
  m.reals.flatMap fun pos =>
    ((if m.name == "<clinit>" then [initialisation c.name] else []) ++ [test c.name]).filterMap
      fun pattern => (m.matchFrom pos pattern).matched?.map (.ignore pos ·)

end Winnow.Idiom.Assertion
