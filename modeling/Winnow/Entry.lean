/-
  The entries of a method's instruction list.

  A decoded method is a list of entries.  Most are real instructions and carry
  an opcode; labels, line numbers and stack frames are pseudo entries that
  carry none.  The shape of an instruction and its opcode are independent: a
  `plain` entry may hold any opcode, and only `jump` and the two switch shapes
  have labels to transfer control to.
-/
import Winnow.Opcode

namespace Winnow

/-- A branch target, named by a number and placed in the code by a label entry. -/
structure Label where
  id : Nat
deriving DecidableEq

/-- A constant pushed by a load-constant instruction or passed to a bootstrap
    method.  Floating point constants are kept as their bits. -/
inductive Constant where
  | int (value : Int)
  | long (value : Int)
  | float (bits : UInt32)
  | double (bits : UInt64)
  | string (value : String)
  /-- A class literal: an internal name or an array descriptor. -/
  | type (desc : String)
deriving DecidableEq

/-- The method handle that bootstraps a dynamic call. -/
structure Handle where
  tag : Nat
  owner : String
  name : String
  desc : String
  interface : Bool
deriving DecidableEq

/-- One entry of a method's instruction list. -/
inductive Entry where
  /-- Places a label. -/
  | label (l : Label)
  /-- The source line of the code that follows, which starts at label `start`. -/
  | line (number : Nat) (start : Label)
  /-- A stack map frame. -/
  | frame
  /-- An instruction without operands. -/
  | plain (op : Opcode)
  /-- A push of a small integer, or a new array of a primitive type. -/
  | push (op : Opcode) (operand : Int)
  /-- A load or store of a local variable. -/
  | var (op : Opcode) (slot : Nat)
  /-- An instruction on a class: allocation, cast or instance test. -/
  | type (op : Opcode) (desc : String)
  | field (op : Opcode) (owner name desc : String)
  | call (op : Opcode) (owner name desc : String) (interface : Bool)
  | dynamicCall (name desc : String) (bootstrap : Handle) (arguments : List Constant)
  | jump (op : Opcode) (target : Label)
  | constant (value : Constant)
  | increment (slot : Nat) (amount : Int)
  | tableSwitch (low high : Int) (default : Label) (cases : List Label)
  | lookupSwitch (default : Label) (keys : List Int) (cases : List Label)
  | newMultiArray (desc : String) (dimensions : Nat)
deriving DecidableEq

namespace Entry

/-- The opcode of a real instruction. -/
def opcode? : Entry → Option Opcode
  | label _ | line _ _ | frame => none
  | plain op | push op _ | var op _ | type op _ | field op _ _ _ | call op _ _ _ _
  | jump op _ => some op
  | dynamicCall .. => some .invokeDynamic
  | constant _ => some .ldc
  | increment .. => some .iinc
  | tableSwitch .. => some .tableSwitch
  | lookupSwitch .. => some .lookupSwitch
  | newMultiArray .. => some .newMultiArray

/-- Real instructions are the entries with an opcode. -/
def isReal (e : Entry) : Bool :=
  e.opcode?.isSome

/-- Labels, line numbers and frames. -/
def isPseudo (e : Entry) : Bool :=
  !e.isReal

def hasOpcode (op : Opcode) (e : Entry) : Bool :=
  e.opcode? == some op

/-- The label that the entry places. -/
def placed? : Entry → Option Label
  | label l => some l
  | _ => none

/-- The line number that the entry sets. -/
def line? : Entry → Option Nat
  | line number _ => some number
  | _ => none

/-- The local variable that the entry reads or writes. -/
def slot? : Entry → Option Nat
  | var _ slot | increment slot _ => some slot
  | _ => none

/-- The label that a jump goes to. -/
def jump? : Entry → Option Label
  | jump _ target => some target
  | _ => none

/-- The default label of a switch and its case labels, in the order of the cases. -/
def switch? : Entry → Option (Label × List Label)
  | tableSwitch _ _ default cases | lookupSwitch default _ cases => some (default, cases)
  | _ => none

/-- The text that a load-constant instruction pushes. -/
def text? : Entry → Option String
  | constant (.string value) => some value
  | _ => none

/-- A call of exactly this method, with any call opcode. -/
def isCallOf (owner name desc : String) : Entry → Bool
  | call _ o n d _ => o == owner && n == name && d == desc
  | _ => false

/-- Every label that the entry mentions without placing it, in order. -/
def mentioned : Entry → List Label
  | line _ start => [start]
  | jump _ target => [target]
  | tableSwitch _ _ default cases | lookupSwitch default _ cases => default :: cases
  | _ => []

/-- The distinct labels that the entry may transfer control to; a switch lists
    its default first. -/
def targets : Entry → List Label
  | jump _ target => [target]
  | tableSwitch _ _ default cases | lookupSwitch default _ cases =>
    (default :: cases).eraseDups
  | _ => []

end Entry

end Winnow
