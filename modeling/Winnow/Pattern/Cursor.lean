/-
  Cursors: matching a pattern against a method.

  A cursor stands before the next entry to examine and remembers the instruction
  matched last and the names bound so far.  A step passes over pseudo entries,
  tests the next real instruction and moves behind it; when the test fails, or no
  real instruction is left, the cursor fails and stays failed until it is moved
  explicitly.  Failing forgets the place and keeps the names.
-/
import Winnow.Pattern.Basic
import Winnow.Method.Navigation

namespace Winnow

/-- Where an active cursor stands. -/
structure Place where
  /-- The position of the next entry to examine. -/
  next : Nat
  /-- The position of the instruction matched last. -/
  matched : Option Nat
deriving DecidableEq

/-- A place in a method, absent once matching has failed, and the bound names. -/
structure Cursor where
  place : Option Place
  bindings : Bindings := {}
deriving DecidableEq

namespace Cursor

/-- A cursor before `pos`, with nothing matched and no names. -/
def start (pos : Nat) : Cursor :=
  { place := some ⟨pos, none⟩ }

/-- A cursor behind `pos`, as if the entry there had just been matched. -/
def past (pos : Nat) : Cursor :=
  { place := some ⟨pos + 1, some pos⟩ }

/-- The position of the next entry to examine. -/
def next? (c : Cursor) : Option Nat :=
  c.place.map (·.next)

/-- The position of the instruction matched last. -/
def matched? (c : Cursor) : Option Nat :=
  c.place.bind (·.matched)

def isActive (c : Cursor) : Bool :=
  c.place.isSome

def fail (c : Cursor) : Cursor :=
  { c with place := none }

/-- Restarts before `pos`, keeping the names. -/
def moveTo (c : Cursor) (pos : Nat) : Cursor :=
  { c with place := some ⟨pos, none⟩ }

/-- Restarts behind `pos`, keeping the names. -/
def movePast (c : Cursor) (pos : Nat) : Cursor :=
  { c with place := some ⟨pos + 1, some pos⟩ }

def clear (c : Cursor) : Cursor :=
  { c with bindings := {} }

def slot? (c : Cursor) (name : String) : Option Nat :=
  c.bindings.slot? name

def label? (c : Cursor) (name : String) : Option Label :=
  c.bindings.label? name

/-- Moves to the next real instruction, or to the end when none is left. -/
def skipPseudo (m : Method) (c : Cursor) : Cursor :=
  { c with place := c.place.map fun p => { p with next := (m.realFrom? p.next).getD m.size } }

/-- The opcode of the next real instruction, with the cursor moved to it. -/
def peek (m : Method) (c : Cursor) : Option Opcode × Cursor :=
  let c := c.skipPseudo m
  (c.next?.bind m.opcode?, c)

/-- Matches one step. -/
def step (m : Method) (c : Cursor) (s : Step) : Cursor :=
  match c.next? with
  | none => c
  | some next =>
    match m.realFrom? next with
    | none => c.fail
    | some pos =>
      match m.code[pos]?.bind fun e => s.accept? c.bindings e with
      | none => c.fail
      | some b => ⟨some ⟨pos + 1, some pos⟩, b⟩

/-- Matches the steps one after the other. -/
def run (m : Method) (c : Cursor) (pattern : List Step) : Cursor :=
  pattern.foldl (step m) c

/-- Requires the very next entry, pseudo or real, to place the label that `name`
    is bound to, and moves behind it. -/
def passLabel (m : Method) (c : Cursor) (name : String) : Cursor :=
  match c.place with
  | none => c
  | some p =>
    match c.label? name with
    | none => c.fail
    | some l =>
      if (m.code[p.next]?.bind Entry.placed?) = some l then
        { c with place := some { p with next := p.next + 1 } }
      else c.fail

/-- Restarts at the method's entry and matches one step there. -/
def first (m : Method) (c : Cursor) (s : Step) : Cursor :=
  (c.moveTo 0).step m s

/-! ## Progress

`remaining` counts the entries before an active cursor and is the measure of every
loop that matches a pattern again and again. -/

/-- The number of entries from the cursor to the end; none for a failed cursor. -/
def remaining (m : Method) (c : Cursor) : Nat :=
  match c.place with
  | none => 0
  | some p => m.size - p.next

theorem step_of_failed {m : Method} {c : Cursor} {s : Step} (h : c.isActive = false) :
    (c.step m s).isActive = false := by
  obtain ⟨_ | p, b⟩ := c
  · rfl
  · simp [isActive] at h

theorem run_of_failed {m : Method} {c : Cursor} {pattern : List Step} (h : c.isActive = false) :
    (c.run m pattern).isActive = false := by
  induction pattern generalizing c with
  | nil => exact h
  | cons s pattern ih => exact ih (step_of_failed h)

theorem passLabel_of_failed {m : Method} {c : Cursor} {name : String} (h : c.isActive = false) :
    (c.passLabel m name).isActive = false := by
  obtain ⟨_ | p, b⟩ := c
  · rfl
  · simp [isActive] at h

theorem isActive_of_run {m : Method} {c : Cursor} {pattern : List Step}
    (h : (c.run m pattern).isActive) : c.isActive := by
  cases hc : c.isActive with
  | true => rfl
  | false => rw [run_of_failed hc] at h; exact h

theorem isActive_of_passLabel {m : Method} {c : Cursor} {name : String}
    (h : (c.passLabel m name).isActive) : c.isActive := by
  cases hc : c.isActive with
  | true => rfl
  | false => rw [passLabel_of_failed hc] at h; exact h

theorem remaining_step_lt {m : Method} {c : Cursor} {s : Step} (h : (c.step m s).isActive) :
    (c.step m s).remaining m < c.remaining m := by
  obtain ⟨_ | p, b⟩ := c
  · simp [step, next?, isActive] at h
  · simp only [step, next?, Option.map_some] at h ⊢
    split at h
    · simp [fail, isActive] at h
    · next pos hpos =>
      have hp := firstWhere_eq_some_iff.1 hpos
      split at h
      · simp [fail, isActive] at h
      · simp only [remaining]; omega

theorem remaining_step_le {m : Method} {c : Cursor} {s : Step} :
    (c.step m s).remaining m ≤ c.remaining m := by
  cases h : (c.step m s).isActive with
  | true => exact Nat.le_of_lt (remaining_step_lt h)
  | false =>
    have : (c.step m s).place = none := by simpa [isActive] using h
    simp [remaining, this]

theorem remaining_run_le {m : Method} {c : Cursor} {pattern : List Step} :
    (c.run m pattern).remaining m ≤ c.remaining m := by
  induction pattern generalizing c with
  | nil => exact Nat.le_refl _
  | cons s pattern ih => exact Nat.le_trans ih remaining_step_le

/-- A match of at least one step moves the cursor on. -/
theorem remaining_run_lt {m : Method} {c : Cursor} {s : Step} {pattern : List Step}
    (h : (c.run m (s :: pattern)).isActive) :
    (c.run m (s :: pattern)).remaining m < c.remaining m := by
  have hs : (c.step m s).isActive := @isActive_of_run m (c.step m s) pattern h
  have hle := @remaining_run_le m (c.step m s) pattern
  exact Nat.lt_of_le_of_lt hle (remaining_step_lt hs)

theorem remaining_passLabel_le {m : Method} {c : Cursor} {name : String} :
    (c.passLabel m name).remaining m ≤ c.remaining m := by
  obtain ⟨_ | p, b⟩ := c
  · exact Nat.le_refl _
  · simp only [passLabel]
    split
    · simp [fail, remaining]
    · split
      · simp only [remaining]; omega
      · simp [fail, remaining]

end Cursor

namespace Method

/-- Matches a pattern from `pos` on, with no names bound. -/
def matchFrom (m : Method) (pos : Nat) (pattern : List Step) : Cursor :=
  (Cursor.start pos).run m pattern

/-- Matches a pattern behind the instruction at `pos`, with no names bound. -/
def matchPast (m : Method) (pos : Nat) (pattern : List Step) : Cursor :=
  (Cursor.past pos).run m pattern

end Method

end Winnow
