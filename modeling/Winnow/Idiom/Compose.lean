/-
  Composable functions.

  The Compose compiler weaves calls of its runtime into composable functions.  A
  group is the run of entries between two labels.  A group around a runtime call is
  ignored when it calls nothing but the runtime and the intrinsics; a group that
  updates the restart scope is ignored whatever else it calls.  From an ignored
  group the examination goes on to the group with the jump that enters it, and from
  every examined group to the groups that its jumps lead to.
-/
import Winnow.Method.Navigation
import Winnow.Text.Basic
import Winnow.Filter

namespace Winnow.Idiom.Compose

/-- The owner of the method that an entry calls. -/
def owner? : Entry → Option String
  | .call _ owner _ _ _ => some owner
  | _ => none

def isRuntime (owner : String) : Bool :=
  Text.startsWith "androidx/compose/runtime/" owner

def isScopeUpdate (owner : String) : Bool :=
  owner == "androidx/compose/runtime/ScopeUpdateScope"

def isIntrinsics (owner : String) : Bool :=
  owner == "kotlin/jvm/internal/Intrinsics"

/-- Whether a label is placed at `pos`. -/
def isLabel (m : Method) (pos : Nat) : Bool :=
  (m.code[pos]?.bind Entry.placed?).isSome

/-! ## Groups -/

/-- The entries around a position: the label before them, if any, and their last
    position. -/
structure Extent where
  label : Option Nat
  last : Nat
deriving DecidableEq

def extent (m : Method) (start : Nat) : Extent where
  label := lastWhere (isLabel m) start
  last := (firstWhere (isLabel m) (start + 1) (m.size - (start + 1))).getD m.size - 1

/-- The positions of the group: those before `start` from the nearest to the
    farthest, then those behind it, then `start` itself. -/
def members (x : Extent) (start : Nat) : List Nat :=
  let first := (x.label.map (· + 1)).getD 0
  (List.range' first (start - first)).reverse ++ List.range' (start + 1) (x.last - start) ++
    [start]

/-- Whether the entries call code of the user. -/
def callsUserCode (m : Method) (positions : List Nat) : Bool :=
  let owners := positions.filterMap fun pos => m.code[pos]?.bind owner?
  !owners.any isScopeUpdate && owners.any fun o => !isRuntime o && !isIntrinsics o

/-- The closest jump before the label at `pos` that leads to it. -/
def entryJump? (m : Method) (pos : Nat) : Option Nat :=
  ((m.code[pos]?).bind Entry.placed?).bind fun l =>
    lastWhere (fun q => m.code[q]?.bind Entry.jump? == some l) pos

/-! ## Examination -/

/-- How far the examination has come. -/
structure Progress where
  /-- The positions of the labels that open ignored groups. -/
  ignored : List Nat := []
  /-- The jumps found since the last runtime call, in order and each once. -/
  jumps : List Nat := []
  findings : List Finding := []
deriving DecidableEq

/-- Adds the jumps among the positions that are not known yet. -/
def noteJumps (m : Method) (jumps positions : List Nat) : List Nat :=
  positions.foldl (fun js pos =>
    if (m.code[pos]?.bind Entry.jump?).isSome && !js.contains pos then js ++ [pos] else js) jumps

/-- Examines the group around `start`, and from there the groups that enter it.  The
    jump that enters a group stands before the group's label, so the positions
    decrease. -/
def examine (m : Method) (start : Nat) (p : Progress) : Progress :=
  let x := extent m start
  if x.label.any p.ignored.contains then p
  else
    let positions := members x start
    let p := { p with jumps := noteJumps m p.jumps positions }
    if callsUserCode m positions then p
    else
      match _hl : x.label with
      | none => { p with findings := p.findings ++ [.ignore 0 x.last] }
      | some label =>
        let p := { p with
          ignored := label :: p.ignored
          findings := p.findings ++ [.ignore label x.last] }
        match _hj : entryJump? m label with
        | none => p
        | some jump => examine m jump p
termination_by start
decreasing_by
  have h₁ : label < start := (lastWhere_eq_some_iff.1 _hl).1
  obtain ⟨l, _, hl'⟩ := Option.bind_eq_some_iff.1 _hj
  exact Nat.lt_trans (lastWhere_eq_some_iff.1 hl').1 h₁

/-- Examines the group that the jump at `pos` leads to. -/
def followJump (m : Method) (p : Progress) (pos : Nat) : Progress :=
  match (m.code[pos]?.bind Entry.jump?).bind m.resolve? with
  | none => p
  | some label =>
    if p.ignored.contains label || m.size ≤ label + 1 then p else examine m (label + 1) p

/-- Examines the group around a runtime call and all groups that the jumps found on
    the way lead to.  Round `i` follows the `i`-th jump; no jump is found twice, so
    there are at most as many rounds as positions. -/
def fromCall (m : Method) (p : Progress) (call : Nat) : Progress :=
  (List.range m.size).foldl
    (fun p i => match p.jumps[i]? with
      | none => p
      | some jump => followJump m p jump)
    (examine m call { p with jumps := [] })

/-- The calls of the runtime through an interface. -/
def runtimeCalls (m : Method) : List Nat :=
  m.positions.filter fun pos =>
    m.hasOpcode .invokeInterface pos && (m.code[pos]?.bind owner?).any isRuntime

def findings (m : Method) (c : ClassInfo) : List Finding :=
  if c.isKotlin && m.hasInvisibleAnnotation "Landroidx/compose/runtime/Composable;" then
    ((runtimeCalls m).foldl (fromCall m) {}).findings
  else []

end Winnow.Idiom.Compose
