/-
  Switches on strings.

  A switch on a string is compiled into a switch on its hash code, whose cases
  compare the string with every constant of that hash code.  Compilers differ in
  what a comparison looks like and in what follows it:

  * one dialect computes an ordinal and switches again on it.  The dispatch is
    ignored, and the second switch has the branches;
  * two dialects jump from the comparisons into the case bodies.  The comparisons
    are ignored, and the branches of the dispatch are replaced by the jumps that
    reach each body.

  The comparisons of one hash code form a group.  There is one group for each
  distinct label of the dispatch besides its default.
-/
import Winnow.Pattern.Cursor
import Winnow.Report.Grouping
import Winnow.Filter

namespace Winnow.Idiom.StringSwitch

def stringClass : String := "java/lang/String"

def hashCode : Step :=
  .call .invokeVirtual stringClass "hashCode" "()I"

/-- Load the string and compare it with a constant. -/
def equalsConstant : List Step :=
  [.var .aload "s", .opcode .ldc,
    .call .invokeVirtual stringClass "equals" "(Ljava/lang/Object;)Z"]

/-- The default label of the switch at `pos` and the number of its other distinct
    labels, if there are any. -/
def buckets? (m : Method) (pos : Nat) : Option (Label × Nat) := do
  let e ← m.code[pos]?
  let (default, _) ← e.switch?
  let count := e.targets.length - 1
  guard (count ≠ 0)
  return (default, count)

/-! ## Groups of comparisons -/

/-- A comparison that was read: where reading goes on, the branches that it
    contributes with the instructions they lead to, and whether it is the last of
    its group. -/
structure Comparison where
  cursor : Cursor
  branches : List (Nat × BranchRef)
  isLast : Bool

/-- How one comparison is read, which always moves on. -/
structure Dialect (m : Method) where
  read : Cursor → Option Comparison
  progress : ∀ c r, read c = some r → r.cursor.remaining m < c.remaining m

/-- Reads comparisons up to the last of a group. -/
def group {m : Method} (d : Dialect m) (c : Cursor) : Option (Cursor × List (Nat × BranchRef)) :=
  match _h : d.read c with
  | none => none
  | some r =>
    if r.isLast then some (r.cursor, r.branches)
    else (group d r.cursor).map fun (c', bs) => (c', r.branches ++ bs)
termination_by c.remaining m
decreasing_by exact d.progress c r _h

/-- Reads a number of groups. -/
def groups {m : Method} (d : Dialect m) : (count : Nat) → Cursor →
    Option (Cursor × List (Nat × BranchRef))
  | 0, c => some (c, [])
  | count + 1, c => do
    let (c, bs) ← group d c
    let (c, bs') ← groups d count c
    return (c, bs ++ bs')

/-- What stands right behind a comparison. -/
inductive Following where
  /-- A jump away. -/
  | leaves
  /-- The default label of the dispatch. -/
  | default
  /-- Anything else. -/
  | other
deriving DecidableEq

def following (m : Method) (default : Label) (pos : Nat) : Following :=
  match m.code[pos]? with
  | some (.jump op _) => if op = .goto then .leaves else .other
  | some (.label l) => if l = default then .default else .other
  | _ => .other

/-- Moving behind a match of at least one step is progress, however the match is
    continued. -/
theorem remaining_lt_of_matched {m : Method} {c : Cursor} {s : Step} {pattern more : List Step}
    {pos : Nat} (h : (c.run m (s :: pattern)).matched? = some pos) :
    ((c.run m (s :: pattern)).run m more).remaining m < c.remaining m := by
  have active : (c.run m (s :: pattern)).isActive := by
    cases hp : (c.run m (s :: pattern)).place with
    | none => simp [Cursor.matched?, hp] at h
    | some p => simp [Cursor.isActive, hp]
  exact Nat.lt_of_le_of_lt Cursor.remaining_run_le (Cursor.remaining_run_lt active)

/-! ## An ordinal per constant -/

/-- On equality store the ordinal, else go on to the next comparison. -/
def ordinalComparison : List Step :=
  equalsConstant ++ [.opcode .ifEq, .any, .var .istore "c"]

def readOrdinal (m : Method) (default : Label) (c : Cursor) : Option Comparison :=
  let found := c.run m ordinalComparison
  match found.matched? with
  | none => none
  | some store =>
    match following m default (store + 1) with
    | .leaves => some ⟨found.run m [.opcode .goto], [], true⟩
    | .default => some ⟨found.run m [], [], true⟩
    | .other => some ⟨found.run m [], [], false⟩

def ordinalDialect (m : Method) (default : Label) : Dialect m where
  read := readOrdinal m default
  progress := by
    intro c r h
    simp only [readOrdinal] at h
    split at h
    · simp at h
    · next store hs =>
      split at h <;> (injection h with h; subst h; exact remaining_lt_of_matched hs)

/-- The dispatch that starts at `pos`. -/
def ordinalDispatch? (m : Method) (pos : Nat) : Option Finding := do
  guard (m.hasOpcode .iconstM1 pos)
  let c := m.matchFrom pos
    [.opcode .iconstM1, .var .istore "c", .var .aload "s", hashCode, .switch]
  let switch ← c.matched?
  let (default, count) ← buckets? m switch
  let (c, _) ← groups (ordinalDialect m default) count c
  let last ← c.matched?
  return .ignore switch last

def javacFindings (m : Method) : List Finding :=
  m.positions.filterMap (ordinalDispatch? m)

/-! ## Jumps into the bodies -/

/-- The first real instruction behind the jump at `pos`. -/
def jumpTarget? (m : Method) (pos : Nat) : Option Nat :=
  (m.code[pos]?.bind Entry.jump?).bind m.target?

/-- A dispatch whose comparisons, read in a dialect from `c` on, jump into the
    bodies: they are ignored, and their jumps replace the branches of the switch. -/
def replaced? (m : Method) (c : Cursor) (dialect : Label → Nat → Dialect m) :
    Option (List Finding) := do
  let switch ← c.matched?
  let (default, count) ← buckets? m switch
  let target ← m.target? default
  let (c, bs) ← groups (dialect default target) count c
  let last ← c.matched?
  return [.ignore (switch + 1) last,
    .replace switch (Grouping.ofList ((target, ⟨switch, 0⟩) :: bs)).groups]

/-- Jump into the body on equality. -/
def jumpComparison : List Step :=
  equalsConstant ++ [.opcode .ifNe]

def readJump (m : Method) (default : Label) (target : Nat) (c : Cursor) : Option Comparison :=
  let found := c.run m jumpComparison
  match found.matched? with
  | none => none
  | some jump =>
    match jumpTarget? m jump with
    | none => none
    | some body =>
      match following m default (jump + 1) with
      | .leaves =>
        let left := found.run m [.opcode .goto]
        left.matched?.map fun goto => ⟨left, [(body, ⟨jump, 1⟩), (target, ⟨goto, 1⟩)], true⟩
      | .default => some ⟨found.run m [], [(body, ⟨jump, 1⟩), (target, ⟨jump, 0⟩)], true⟩
      | .other => some ⟨found.run m [], [(body, ⟨jump, 1⟩)], false⟩

def jumpDialect (m : Method) (default : Label) (target : Nat) : Dialect m where
  read := readJump m default target
  progress := by
    intro c r h
    simp only [readJump] at h
    split at h
    · simp at h
    · next jump hj =>
      split at h
      · simp at h
      · split at h
        · obtain ⟨goto, _, rfl⟩ := Option.map_eq_some_iff.1 h
          exact remaining_lt_of_matched hj
        · injection h with h; subst h; exact remaining_lt_of_matched hj
        · injection h with h; subst h; exact remaining_lt_of_matched hj

/-- The dispatch whose string is stored at `pos`. -/
def jumpDispatch? (m : Method) (pos : Nat) : Option (List Finding) := do
  guard (m.hasOpcode .astore pos)
  replaced? m (m.matchFrom pos [.var .astore "s", hashCode, .switch]) (jumpDialect m)

def ecjFindings (m : Method) : List Finding :=
  (m.positions.filterMap (jumpDispatch? m)).flatten

/-! ## Jumps around the jumps into the bodies -/

/-- Go on to the next comparison, or to the default body, unless equal. -/
def skipComparison : List Step :=
  equalsConstant ++ [.opcode .ifEq]

def readSkip (m : Method) (default : Label) (target : Nat) (c : Cursor) : Option Comparison :=
  let found := c.run m skipComparison
  match found.matched? with
  | none => none
  | some jump =>
    let left := found.run m [.opcode .goto]
    match m.code[jump]?.bind Entry.jump?, left.matched? with
    | some next, some goto =>
      match jumpTarget? m goto with
      | none => none
      | some body =>
        if next = default then some ⟨left, [(body, ⟨goto, 1⟩), (target, ⟨jump, 1⟩)], true⟩
        else some ⟨left, [(body, ⟨goto, 1⟩)], false⟩
    | _, _ => none

def skipDialect (m : Method) (default : Label) (target : Nat) : Dialect m where
  read := readSkip m default target
  progress := by
    intro c r h
    simp only [readSkip] at h
    split at h
    · simp at h
    · next jump hj =>
      split at h
      · split at h
        · simp at h
        · split at h <;> (injection h with h; subst h; exact remaining_lt_of_matched hj)
      · simp at h

/-- The dispatch whose string is loaded at `pos`. -/
def skipDispatch? (m : Method) (pos : Nat) : Option (List Finding) := do
  guard (m.hasOpcode .aload pos)
  replaced? m (m.matchFrom pos [.var .aload "s", hashCode, .switch]) (skipDialect m)

def kotlinFindings (m : Method) : List Finding :=
  (m.positions.filterMap (skipDispatch? m)).flatten

end Winnow.Idiom.StringSwitch
