/-
  Patterns of instructions.

  A pattern is a list of steps, each of which accepts one real instruction.  A
  step may bind a name to the local variable, the label or the owner that it
  finds; a name that is already bound must be met again with the same value.
  Texts in a step are compared literally, except that `*` accepts any text.
-/
import Winnow.Entry

namespace Winnow

/-- The names bound so far, apart for local variables, labels and owners. -/
structure Bindings where
  slots : List (String × Nat) := []
  labels : List (String × Label) := []
  owners : List (String × String) := []
deriving DecidableEq

namespace Bindings

def slot? (b : Bindings) (name : String) : Option Nat :=
  b.slots.lookup name

def label? (b : Bindings) (name : String) : Option Label :=
  b.labels.lookup name

def owner? (b : Bindings) (name : String) : Option String :=
  b.owners.lookup name

/-- Adds a binding for a new name; for a bound name, requires the same value. -/
def agree? {α : Type} [DecidableEq α] (env : List (String × α)) (name : String) (value : α) :
    Option (List (String × α)) :=
  match env.lookup name with
  | none => some ((name, value) :: env)
  | some bound => if bound = value then some env else none

def bindSlot? (b : Bindings) (name : String) (slot : Nat) : Option Bindings :=
  (agree? b.slots name slot).map ({ b with slots := · })

def bindLabel? (b : Bindings) (name : String) (l : Label) : Option Bindings :=
  (agree? b.labels name l).map ({ b with labels := · })

def bindOwner? (b : Bindings) (name : String) (owner : String) : Option Bindings :=
  (agree? b.owners name owner).map ({ b with owners := · })

end Bindings

/-- The text pattern that accepts every text. -/
def anyText : String := "*"

/-- Whether the text pattern `expected` accepts `actual`. -/
def accepts (expected actual : String) : Bool :=
  expected == anyText || expected == actual

/-- What is asked of one real instruction. -/
inductive Step where
  /-- Any instruction. -/
  | any
  /-- An instruction with this opcode, whatever its shape. -/
  | opcode (op : Opcode)
  /-- An instruction with one of the two switch opcodes. -/
  | switch
  /-- A local variable instruction; binds `name` to the slot. -/
  | var (op : Opcode) (name : String)
  /-- A local variable instruction on this slot. -/
  | slot (op : Opcode) (slot : Nat)
  | field (op : Opcode) (owner name desc : String)
  | call (op : Opcode) (owner name desc : String)
  /-- A call with one of the opcodes; binds `binding` to the owner. -/
  | callOn (ops : List Opcode) (binding name desc : String)
  | type (op : Opcode) (desc : String)
  /-- A push of a constant text. -/
  | text (value : String)
  /-- A jump; binds `name` to its target. -/
  | jump (op : Opcode) (name : String)
  /-- An instruction with this property. -/
  | satisfying (p : Entry → Bool)

namespace Step

/-- The bindings after the step accepts the instruction `e`. -/
def accept? (b : Bindings) (e : Entry) : Step → Option Bindings
  | any => some b
  | opcode op => if e.hasOpcode op then some b else none
  | switch => if e.opcode?.any Opcode.isSwitch then some b else none
  | var op name =>
    match e with
    | .var op' s => if op' = op then b.bindSlot? name s else none
    | _ => none
  | slot op s =>
    match e with
    | .var op' s' => if op' = op ∧ s' = s then some b else none
    | _ => none
  | field op owner name desc =>
    match e with
    | .field op' o n d =>
      if op' = op ∧ accepts owner o ∧ accepts name n ∧ accepts desc d then some b else none
    | _ => none
  | call op owner name desc =>
    match e with
    | .call op' o n d _ =>
      if op' = op ∧ accepts owner o ∧ accepts name n ∧ accepts desc d then some b else none
    | _ => none
  | callOn ops binding name desc =>
    match e with
    | .call op' o n d _ =>
      if op' ∈ ops ∧ accepts name n ∧ accepts desc d then b.bindOwner? binding o else none
    | _ => none
  | type op desc =>
    match e with
    | .type op' d => if op' = op ∧ accepts desc d then some b else none
    | _ => none
  | text value =>
    match e with
    | .constant (.string v) => if accepts value v then some b else none
    | _ => none
  | jump op name =>
    match e with
    | .jump op' l => if op' = op then b.bindLabel? name l else none
    | _ => none
  | satisfying p => if p e then some b else none

end Step

end Winnow
