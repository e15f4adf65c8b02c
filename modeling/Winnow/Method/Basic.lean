/-
  Methods: decoded bodies whose labels are placed consistently.

  * `Body` is what a decoder delivers: name, descriptor, flags, the entries and
    the tables beside them;
  * `Body.placed` lists the labels that the code places, `Body.mentioned` the
    labels that code, handler table and local variable table refer to;
  * `Method` is a body in which no label is placed twice and every mentioned
    label is placed.  Methods come from `Draft.build`.
-/
import Winnow.Entry

namespace Winnow

/-- The access flags of a method. -/
structure Access where
  bits : UInt16
deriving DecidableEq

namespace Access

/-- Keeps the flags that are defined for methods and drops all other bits. -/
def ofBits (bits : UInt16) : Access :=
  ⟨bits &&& 0x1dff⟩

def isPublic (a : Access) : Bool := a.bits &&& 0x0001 != 0
def isPrivate (a : Access) : Bool := a.bits &&& 0x0002 != 0
def isStatic (a : Access) : Bool := a.bits &&& 0x0008 != 0
def isBridge (a : Access) : Bool := a.bits &&& 0x0040 != 0
def isSynthetic (a : Access) : Bool := a.bits &&& 0x1000 != 0

end Access

/-- A row of the handler table: exceptions of type `caught` (any, when absent)
    thrown between `start` and `stop` are handled at `handler`. -/
structure TryBlock where
  start : Label
  stop : Label
  handler : Label
  caught : Option String
deriving DecidableEq

/-- A row of the local variable table. -/
structure LocalVariable where
  name : String
  desc : String
  start : Label
  stop : Label
  slot : Nat
deriving DecidableEq

/-- A non-standard attribute, kept as raw bytes. -/
structure Attribute where
  name : String
  content : List UInt8
deriving DecidableEq

/-- A decoded method body.  Positions are indices into `code`. -/
structure Body where
  name : String
  desc : String
  access : Access := ⟨0⟩
  code : Array Entry := #[]
  tries : List TryBlock := []
  locals : List LocalVariable := []
  visible : List String := []
  invisible : List String := []
  attributes : List Attribute := []

namespace Body

/-- The labels that the code places, in order. -/
def placed (b : Body) : List Label :=
  b.code.toList.filterMap Entry.placed?

/-- The labels that are referred to: by the entries, then by the handler table,
    then by the local variable table, each in order. -/
def mentioned (b : Body) : List Label :=
  b.code.toList.flatMap Entry.mentioned ++
    b.tries.flatMap (fun t => [t.start, t.stop, t.handler]) ++
    b.locals.flatMap (fun v => [v.start, v.stop])

end Body

/-- A body with consistent labels. -/
structure Method extends Body where
  placed_nodup : toBody.placed.Nodup
  mentioned_placed : ∀ l ∈ toBody.mentioned, l ∈ toBody.placed

namespace Method

/-- The number of entries, pseudo entries included. -/
def size (m : Method) : Nat :=
  m.code.size

def opcode? (m : Method) (pos : Nat) : Option Opcode :=
  m.code[pos]?.bind Entry.opcode?

/-- Whether a real instruction stands at `pos`. -/
def isReal (m : Method) (pos : Nat) : Bool :=
  (m.opcode? pos).isSome

/-- Whether a real instruction with opcode `op` stands at `pos`. -/
def hasOpcode (m : Method) (op : Opcode) (pos : Nat) : Bool :=
  m.opcode? pos == some op

def isStatic (m : Method) : Bool := m.access.isStatic

def isSynthetic (m : Method) : Bool := m.access.isSynthetic

def hasAnnotation (m : Method) (desc : String) : Bool :=
  m.visible.contains desc || m.invisible.contains desc

def hasInvisibleAnnotation (m : Method) (desc : String) : Bool :=
  m.invisible.contains desc

/-- The first attribute of that name. -/
def attribute? (m : Method) (name : String) : Option Attribute :=
  m.attributes.find? (·.name == name)

def hasLines (m : Method) : Bool :=
  m.code.any (·.line?.isSome)

end Method

end Winnow
