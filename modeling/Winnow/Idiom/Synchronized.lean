/-
  Synchronized blocks.

  A synchronized block is compiled with a handler that releases the monitor and
  throws the exception again.  Its catch-any handler does not protect itself.
-/
import Winnow.Pattern.Cursor
import Winnow.Filter

namespace Winnow.Idiom.Synchronized

/-- The handler keeps the exception on the stack. -/
def stackHandler : List Step :=
  [.opcode .aload, .opcode .monitorExit, .opcode .athrow]

/-- The handler keeps the exception in a local variable. -/
def storeHandler : List Step :=
  [.var .astore "t", .opcode .aload, .opcode .monitorExit, .var .aload "t", .opcode .athrow]

/-- The range of a handler that releases a monitor. -/
def handlerRange? (m : Method) (t : TryBlock) : Option Finding := do
  guard (t.caught.isNone && t.start != t.handler)
  let handler ← m.resolve? t.handler
  let last ← (m.matchFrom handler stackHandler).matched? <|>
    (m.matchFrom handler storeHandler).matched?
  return .ignore handler last

def findings (m : Method) : List Finding :=
  m.tries.filterMap (handlerRange? m)

end Winnow.Idiom.Synchronized
