/-
  Grouping branches by where they lead.

  A `Grouping` collects branches per target, targets in the order in which they
  were first seen and branches in the order in which they were added.
-/
import Winnow.Report.Basic
import Winnow.Method.Branches

namespace Winnow

/-- Branches by target. -/
structure Grouping where
  rows : List (Nat × Group) := []
deriving DecidableEq

namespace Grouping

/-- Adds the branch at the end of the row of `target`, or as a new last row. -/
def addTo (target : Nat) (b : BranchRef) : List (Nat × Group) → List (Nat × Group)
  | [] => [(target, [b])]
  | (key, group) :: rest =>
    if key = target then (key, group ++ [b]) :: rest else (key, group) :: addTo target b rest

def add (g : Grouping) (target : Nat) (b : BranchRef) : Grouping :=
  ⟨addTo target b g.rows⟩

def isEmpty (g : Grouping) : Bool :=
  g.rows.isEmpty

def groups (g : Grouping) : List Group :=
  g.rows.map (·.2)

/-- Adds pairs of target and branch, in order. -/
def ofList (bs : List (Nat × BranchRef)) : Grouping :=
  bs.foldl (fun g (target, b) => g.add target b) {}

end Grouping

namespace Method

/-- The first real instruction from `pos` on, or `pos` itself when none is left. -/
def settle (m : Method) (pos : Nat) : Nat :=
  (m.realFrom? pos).getD pos

/-- The groups of a switch whose default is dropped: one for each instruction that
    some other branch leads to. -/
def withoutDefault (m : Method) (switch : Nat) : List Group :=
  (Grouping.ofList <| ((m.branches switch).filter (·.number != 0)).map fun b =>
    (m.settle b.target, ⟨switch, b.number⟩)).groups

end Method

end Winnow
