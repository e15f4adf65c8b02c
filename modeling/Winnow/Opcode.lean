/-
  JVM opcodes.

  An instruction is identified by its opcode byte.  This module names the
  opcodes that the recognisers mention and the classes of opcodes that matter
  for control flow: returns, exits, conditional jumps, switches, and the opcodes
  after which control never falls through.
-/

namespace Winnow

/-- The opcode byte of a JVM instruction. -/
abbrev Opcode := UInt8

namespace Opcode

/-! ## Constants, locals and the operand stack -/

def aconstNull : Opcode := 0x01
def iconstM1 : Opcode := 0x02
def iconst0 : Opcode := 0x03
def iconst1 : Opcode := 0x04
def ldc : Opcode := 0x12
def iload : Opcode := 0x15
def aload : Opcode := 0x19
def istore : Opcode := 0x36
def astore : Opcode := 0x3a
def pop : Opcode := 0x57
def dup : Opcode := 0x59
def iand : Opcode := 0x7e
def iinc : Opcode := 0x84

/-! ## Control transfer -/

def ifEq : Opcode := 0x99
def ifNe : Opcode := 0x9a
def ifIcmpNe : Opcode := 0xa0
def ifIcmpLt : Opcode := 0xa1
def ifIcmpGe : Opcode := 0xa2
def ifIcmpGt : Opcode := 0xa3
def ifIcmpLe : Opcode := 0xa4
def ifAcmpEq : Opcode := 0xa5
def ifAcmpNe : Opcode := 0xa6
def goto : Opcode := 0xa7
def ret : Opcode := 0xa9
def tableSwitch : Opcode := 0xaa
def lookupSwitch : Opcode := 0xab
def ireturn : Opcode := 0xac
def areturn : Opcode := 0xb0
def vreturn : Opcode := 0xb1
def athrow : Opcode := 0xbf
def ifNull : Opcode := 0xc6
def ifNonNull : Opcode := 0xc7
def gotoWide : Opcode := 0xc8

/-! ## Objects, fields and calls -/

def getStatic : Opcode := 0xb2
def putStatic : Opcode := 0xb3
def getField : Opcode := 0xb4
def invokeVirtual : Opcode := 0xb6
def invokeSpecial : Opcode := 0xb7
def invokeStatic : Opcode := 0xb8
def invokeInterface : Opcode := 0xb9
def invokeDynamic : Opcode := 0xba
def new : Opcode := 0xbb
def checkCast : Opcode := 0xc0
def instanceOf : Opcode := 0xc1
def monitorExit : Opcode := 0xc3
def newMultiArray : Opcode := 0xc5

/-! ## Classes of opcodes -/

/-- The opcodes that leave the method normally. -/
def isReturn (op : Opcode) : Bool :=
  ireturn ≤ op && op ≤ vreturn

/-- The opcodes that leave the method, normally or by throwing. -/
def isExit (op : Opcode) : Bool :=
  op.isReturn || op == athrow

/-- The jumps that may also fall through. -/
def isConditional (op : Opcode) : Bool :=
  (ifEq ≤ op && op ≤ ifAcmpNe) || op == ifNull || op == ifNonNull

def isSwitch (op : Opcode) : Bool :=
  op == tableSwitch || op == lookupSwitch

/-- The opcodes after which control never falls through to the next entry. -/
def endsFlow (op : Opcode) : Bool :=
  op.isExit || op.isSwitch || op == goto || op == gotoWide || op == ret

/-- The opcodes that load a local variable. -/
def isLoad (op : Opcode) : Bool :=
  iload ≤ op && op ≤ aload

/-- The opcodes that push a constant. -/
def isConstant (op : Opcode) : Bool :=
  aconstNull ≤ op && op ≤ ldc

end Opcode

end Winnow
