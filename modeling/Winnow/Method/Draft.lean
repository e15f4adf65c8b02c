/-
  Drafts: methods under assembly.

  A decoder adds entries and table rows to a draft and then calls `build`, which
  either explains what is wrong with the labels or delivers a `Method`.  A label
  placed twice is reported before a label that is never placed; of several, the
  first in the order of the code (and then of the tables) is named.
-/
import Winnow.Method.Basic

namespace Winnow

/-- A method under assembly.  `fresh` is the next label number that `newLabel`
    hands out; it takes no notice of labels chosen by other means. -/
structure Draft extends Body where
  fresh : Nat := 0

/-- What can be wrong with the labels of a draft. -/
inductive BuildError where
  | placedTwice (l : Label) (name desc : String)
  | neverPlaced (l : Label) (name desc : String)
deriving DecidableEq

namespace BuildError

def message : BuildError → String
  | placedTwice l name desc => "label " ++ l.id.repr ++ " placed twice in " ++ name ++ desc
  | neverPlaced l name desc =>
    "label " ++ l.id.repr ++ " referenced but never placed in " ++ name ++ desc

end BuildError

namespace Draft

/-! ## Assembly -/

/-- The position that the next entry will get. -/
def position (d : Draft) : Nat :=
  d.code.size

def newLabel (d : Draft) : Label × Draft :=
  (⟨d.fresh⟩, { d with fresh := d.fresh + 1 })

def push (d : Draft) (e : Entry) : Draft :=
  { d with code := d.code.push e }

def setAccess (d : Draft) (access : Access) : Draft :=
  { d with access := access }

def addAnnotation (d : Draft) (desc : String) (visible : Bool) : Draft :=
  if visible then { d with visible := d.visible ++ [desc] }
  else { d with invisible := d.invisible ++ [desc] }

def addAttribute (d : Draft) (a : Attribute) : Draft :=
  { d with attributes := d.attributes ++ [a] }

def addTry (d : Draft) (t : TryBlock) : Draft :=
  { d with tries := d.tries ++ [t] }

def addLocal (d : Draft) (v : LocalVariable) : Draft :=
  { d with locals := d.locals ++ [v] }

/-! ## Building -/

/-- The first label of the list that already stands before it. -/
def firstRepeated? : (seen : List Label) → List Label → Option Label
  | _, [] => none
  | seen, l :: ls => if l ∈ seen then some l else firstRepeated? (l :: seen) ls

/-- The first label of `ls` that is not in `placed`. -/
def firstMissing? (placed ls : List Label) : Option Label :=
  ls.find? (fun l => l ∉ placed)

theorem nodup_of_firstRepeated? {seen ls : List Label} (h : firstRepeated? seen ls = none) :
    ls.Nodup ∧ ∀ l ∈ ls, l ∉ seen := by
  induction ls generalizing seen with
  | nil => simp
  | cons l ls ih =>
    by_cases hl : l ∈ seen
    · simp [firstRepeated?, hl] at h
    · simp only [firstRepeated?, hl, ↓reduceIte] at h
      obtain ⟨hn, hd⟩ := ih h
      refine ⟨List.nodup_cons.2 ⟨fun hm => hd l hm (List.mem_cons_self ..), hn⟩, ?_⟩
      intro x hx
      rcases List.mem_cons.1 hx with rfl | hx
      · exact hl
      · exact fun hs => hd x hx (List.mem_cons_of_mem _ hs)

theorem mem_of_firstMissing? {placed ls : List Label} (h : firstMissing? placed ls = none) :
    ∀ l ∈ ls, l ∈ placed := by
  intro l hl
  have := List.find?_eq_none.1 h l hl
  simpa using this

/-- Finishes the assembly: every label is placed at most once, and every label
    that is referred to is placed. -/
def build (d : Draft) : Except BuildError Method :=
  match hr : firstRepeated? [] d.toBody.placed with
  | some l => .error (.placedTwice l d.name d.desc)
  | none =>
    match hm : firstMissing? d.toBody.placed d.toBody.mentioned with
    | some l => .error (.neverPlaced l d.name d.desc)
    | none => .ok ⟨d.toBody, (nodup_of_firstRepeated? hr).1, mem_of_firstMissing? hm⟩

end Draft

end Winnow
