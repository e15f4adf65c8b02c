/-
  The outgoing branches of an instruction, and the boundaries of straight-line
  blocks.

  * `Method.branches` numbers the edges out of an instruction: 0 is the
    fall-through edge of a plain instruction or conditional jump and the default
    of a switch, 1 is the taken edge of a jump, and the further distinct targets
    of a switch count upwards in the order of the cases;
  * `Method.labelFlows` walks over the handler table and the code once and notes how
    control arrives at every label;
  * `Method.boundaries` are the ends of straight-line runs: before a jump, before
    an exit, and at a label where fall-through control meets another edge.
-/
import Winnow.Method.Navigation

namespace Winnow

/-- An edge out of an instruction. -/
structure Branch where
  number : Nat
  target : Nat
deriving DecidableEq

/-- Why a straight-line run ends. -/
inductive BoundaryKind where
  | beforeJump
  | beforeExit
  /-- A label reached by fall-through and by at least one other edge. -/
  | atJoin
deriving DecidableEq

structure Boundary where
  position : Nat
  kind : BoundaryKind
deriving DecidableEq

/-- How control arrives at a label. -/
inductive Arrival where
  /-- From the entry before the label. -/
  | fallThrough
  /-- From elsewhere: a jump, a switch, the handler table, the method's entry. -/
  | transfer
deriving DecidableEq

/-- The arrivals at a label that have been noted. -/
structure LabelFlow where
  /-- Control falls into the label. -/
  fallThrough : Bool := false
  /-- The first arrival was from elsewhere. -/
  transfer : Bool := false
  /-- Control arrives in more than one way. -/
  several : Bool := false
deriving DecidableEq

namespace LabelFlow

/-- Notes one more arrival. -/
def note (f : LabelFlow) : Arrival → LabelFlow
  | .fallThrough => { f with fallThrough := true, several := f.several || f.transfer }
  | .transfer =>
    if f.transfer || f.fallThrough then { f with several := true } else { f with transfer := true }

/-- Control falls into the label and also arrives some other way. -/
def isJoin (f : LabelFlow) : Bool :=
  f.fallThrough && f.several

end LabelFlow

/-- The arrivals at every label that control has been seen to arrive at. -/
structure Flows where
  rows : List (Label × LabelFlow) := []

namespace Flows

/-- Changes the row of the label, which starts without arrivals. -/
def noteIn (a : Arrival) (l : Label) : List (Label × LabelFlow) → List (Label × LabelFlow)
  | [] => [(l, LabelFlow.note {} a)]
  | (key, flow) :: rest =>
    if key = l then (key, flow.note a) :: rest else (key, flow) :: noteIn a l rest

def note (fs : Flows) (a : Arrival) (l : Label) : Flows :=
  ⟨noteIn a l fs.rows⟩

/-- Notes an arrival at each of the labels, in order. -/
def noteAll (fs : Flows) (a : Arrival) (ls : List Label) : Flows :=
  ls.foldl (fun fs l => fs.note a l) fs

/-- The arrivals at the label. -/
def arrivals (fs : Flows) (l : Label) : LabelFlow :=
  (fs.rows.lookup l).getD {}

/-- The boundary at an entry. -/
def boundaryKind? (fs : Flows) (e : Entry) : Option BoundaryKind :=
  match e.placed? with
  | some l => if (fs.arrivals l).isJoin then some .atJoin else none
  | none =>
    match e.opcode? with
    | none => none
    | some op =>
      if e.jump?.isSome || op.isSwitch then some .beforeJump
      else if op.isExit then some .beforeExit
      else none

end Flows

/-- Where a walk over the entries of a method stands. -/
structure FlowScan where
  flows : Flows
  /-- Control falls into the next entry. -/
  falls : Bool := true
  /-- No real instruction has been passed. -/
  start : Bool := true

namespace FlowScan

/-- Passes one entry. -/
def step (s : FlowScan) (e : Entry) : FlowScan :=
  match e.placed? with
  | some l =>
    let flows := if s.start then s.flows.note .transfer l else s.flows
    { s with flows := if s.falls then flows.note .fallThrough l else flows }
  | none =>
    match e.opcode? with
    | none => s
    | some op =>
      { flows := s.flows.noteAll .transfer e.targets, falls := !op.endsFlow, start := false }

end FlowScan

namespace Method

/-! ## Branches -/

/-- The edge to the next entry, if there is one. -/
def fallThrough (m : Method) (pos : Nat) : List Branch :=
  if pos + 1 < m.size then [⟨0, pos + 1⟩] else []

/-- The outgoing branches of the instruction at `pos`. -/
def branches (m : Method) (pos : Nat) : List Branch :=
  match m.code[pos]? with
  | none => []
  | some e =>
    match e.opcode? with
    | none => []
    | some op =>
      match e.switch? with
      | some _ => (e.targets.filterMap m.resolve?).zipIdx.map fun (target, n) => ⟨n, target⟩
      | none =>
        match e.jump? with
        | some l =>
          (if op.isConditional then m.fallThrough pos else []) ++
            (m.resolve? l).toList.map (⟨1, ·⟩)
        | none => if op.endsFlow then [] else m.fallThrough pos

/-! ## Block boundaries -/

/-- The arrivals at all labels: those by the handler table, then those in the order of
    the code. -/
def labelFlows (m : Method) : Flows :=
  let handled := ({} : Flows).noteAll .transfer (m.tries.flatMap fun t => [t.start, t.handler])
  (m.code.toList.foldl FlowScan.step { flows := handled }).flows

/-- The ends of the straight-line runs of a method, in order. -/
def boundaries (m : Method) : List Boundary :=
  let flows := m.labelFlows
  m.code.toList.zipIdx.filterMap fun (e, pos) => (flows.boundaryKind? e).map (⟨pos, ·⟩)

end Method

end Winnow
