/-
  Findings and reports.

  A recogniser states findings about a method: ranges to ignore, pairs of
  instructions that count as one, and branches of an instruction to replace by
  groups.  A `Report` collects them.  `Report.record` refuses a finding that makes
  no sense: a range that ends before it starts, an empty group, or a branch that
  stands in more than one place of the groups.

  `Report.coalesced` joins ranges that overlap or touch; `Report.positions` is the
  set of ignored positions.
-/
import Winnow.Sorted

namespace Winnow

/-- A closed range of positions. -/
structure Range where
  first : Nat
  last : Nat
deriving DecidableEq

structure MergedPair where
  first : Nat
  second : Nat
deriving DecidableEq

/-- One outgoing branch of one instruction. -/
structure BranchRef where
  instruction : Nat
  branch : Nat
deriving DecidableEq

/-- Branches that count as one. -/
abbrev Group := List BranchRef

/-- What a recogniser states about a method. -/
inductive Finding where
  /-- The entries from `first` to `last` do not count. -/
  | ignore (first last : Nat)
  /-- Executions of the two instructions count as one. -/
  | merge (first second : Nat)
  /-- The branches of `source` are those of the groups. -/
  | replace (source : Nat) (groups : List Group)
deriving DecidableEq

/-- Why a finding, or a summary of findings, is refused. -/
inductive Violation where
  | reversedRange (first last : Nat)
  | emptyGroup (source : Nat)
  | sharedBranch (source : Nat)
  /-- A range ends at the last position there is, so that none follows it. -/
  | endOfPositions
deriving DecidableEq

namespace Violation

def message : Violation → String
  | reversedRange first last =>
    "ignored range starts after it ends: " ++ first.repr ++ " > " ++ last.repr
  | emptyGroup source => "empty replacement group for instruction " ++ source.repr
  | sharedBranch source =>
    "branch assigned to more than one replacement group for instruction " ++ source.repr
  | endOfPositions => "attempt to add with overflow"

end Violation

/-- Everything found about one method: ranges and pairs in the order in which they
    were found, replacements by increasing source. -/
structure Report where
  ignored : List Range := []
  merged : List MergedPair := []
  replacements : List (Nat × List Group) := []
deriving DecidableEq

namespace Range

/-- Order by first position, then by last. -/
def le (r s : Range) : Bool :=
  r.first < s.first || (r.first == s.first && r.last ≤ s.last)

/-- The positions of the range, in order. -/
def positions (r : Range) : List Nat :=
  List.range' r.first (r.last + 1 - r.first)

def insertSorted (r : Range) : List Range → List Range
  | [] => [r]
  | s :: rest => if r.le s then r :: s :: rest else s :: insertSorted r rest

def sort (rs : List Range) : List Range :=
  rs.foldl (fun acc r => insertSorted r acc) []

/-- Joins the range `r` with those of a sorted list that overlap or touch it, and
    so on for the rest. -/
def absorb (r : Range) : List Range → List Range
  | [] => [r]
  | s :: rest =>
    if s.first ≤ r.last + 1 then absorb ⟨r.first, max r.last s.last⟩ rest
    else r :: absorb s rest

/-- Joins the overlapping and touching ranges of a sorted list. -/
def joinSorted : List Range → List Range
  | [] => []
  | r :: rest => absorb r rest

/-- The last position that can be told: positions are 64-bit words. -/
def lastPosition : Nat := Nat.pow 2 64 - 1

end Range

namespace Report

/-- Whether the groups may replace the branches of `source`. -/
def checkGroups (source : Nat) (groups : List Group) : Except Violation Unit :=
  if groups.any List.isEmpty then .error (.emptyGroup source)
  else if groups.flatten.Nodup then .ok ()
  else .error (.sharedBranch source)

/-- Adds one finding, or refuses it. -/
def record (r : Report) : Finding → Except Violation Report
  | .ignore first last =>
    if first ≤ last then .ok { r with ignored := r.ignored ++ [⟨first, last⟩] }
    else .error (.reversedRange first last)
  | .merge first second => .ok { r with merged := r.merged ++ [⟨first, second⟩] }
  | .replace source groups =>
    match checkGroups source groups with
    | .error v => .error v
    | .ok () => .ok { r with replacements := Sorted.put source groups r.replacements }

/-- Adds findings in order, up to the first that is refused. -/
def recordAll (r : Report) : List Finding → Except Violation Report
  | [] => .ok r
  | f :: fs =>
    match r.record f with
    | .error v => .error v
    | .ok r' => r'.recordAll fs

def isEmpty (r : Report) : Bool :=
  r.ignored.isEmpty && r.merged.isEmpty && r.replacements.isEmpty

/-- Every ignored position, in increasing order. -/
def positions (r : Report) : List Nat :=
  Sorted.ofList (r.ignored.flatMap Range.positions)

/-- The ignored ranges, sorted, with overlapping and touching ones joined.  Only a
    range that comes last may end at the last position: whether a range touches the
    next is decided at the position behind it. -/
def coalesced (r : Report) : Except Violation (List Range) :=
  let sorted := Range.sort r.ignored
  if sorted.dropLast.any (·.last == Range.lastPosition) then .error .endOfPositions
  else .ok (Range.joinSorted sorted)

end Report

end Winnow
