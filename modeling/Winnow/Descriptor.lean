/-
  Method descriptors such as `(ILjava/lang/String;)V`.

  The argument part is a sequence of field types: any number of `[`, then a letter
  for a primitive type or `L`, a class name and `;`.  The bytes of the text tell how far a
  type goes, and the text is cut there.
-/
import Winnow.Text.Cut

namespace Winnow.Descriptor

open Text (utf8 cutAt offset? BadCut)

/-- The letters of the primitive types. -/
def primitives : List Char :=
  ['B', 'C', 'D', 'F', 'I', 'J', 'S', 'Z']

/-- The number of bytes of the field type that a text starts with. -/
def fieldTypeSize (cs : List Char) : Except BadCut (Option Nat) :=
  let depth := ((utf8 cs).takeWhile (· == '['.toUInt8)).length
  match (utf8 cs)[depth]? with
  | none => .ok none
  | some b =>
    if b = 'L'.toUInt8 then
      (cutAt depth cs).map fun (_, rest) => (offset? ';' rest).map (depth + · + 1)
    else if b ∈ primitives.map Char.toUInt8 then .ok (some (depth + 1))
    else .ok none

theorem fieldTypeSize_pos {cs : List Char} {size : Nat}
    (h : fieldTypeSize cs = .ok (some size)) : 0 < size := by
  simp only [fieldTypeSize] at h
  split at h
  · cases h
  · split at h
    · cases hcut : cutAt ((utf8 cs).takeWhile (· == '['.toUInt8)).length cs with
      | error e => rw [hcut] at h; cases h
      | ok parts =>
        rw [hcut] at h
        obtain ⟨n, -, rfl⟩ := Option.map_eq_some_iff.1 (Except.ok.inj h)
        exact Nat.succ_pos _
    · split at h
      · cases h
        exact Nat.succ_pos _
      · cases h

/-- Cuts a text into field types, unless it is not a sequence of such. -/
def fieldTypes (cs : List Char) : Except BadCut (Option (List (List Char))) :=
  if cs.isEmpty then .ok (some [])
  else
    match _hsize : fieldTypeSize cs with
    | .error e => .error e
    | .ok none => .ok none
    | .ok (some size) =>
      match _hcut : cutAt size cs with
      | .error e => .error e
      | .ok (type, rest) => (fieldTypes rest).map (Option.map (type :: ·))
termination_by cs.length
decreasing_by exact Text.length_lt_of_cutAt _hcut (fieldTypeSize_pos _hsize)

/-- The argument types of a descriptor, unless its argument part, which ends at the
    first `)`, is malformed. -/
def argumentTypes (desc : String) : Except BadCut (Option (List String)) :=
  match desc.toList with
  | '(' :: rest =>
    match offset? ')' rest with
    | none => .ok none
    | some size =>
      match cutAt size rest with
      | .error e => .error e
      | .ok (arguments, _) => (fieldTypes arguments).map (Option.map (List.map String.ofList))
  | _ => .ok none

/-- The argument types of a well-formed descriptor. -/
def argumentTypes? (desc : String) : Option (List String) :=
  match argumentTypes desc with
  | .ok types => types
  | .error _ => none

/-- What follows the first `)`, if anything does. -/
def returnType? (desc : String) : Option String :=
  match desc.toList.dropWhile (· ≠ ')') with
  | _ :: c :: cs => some (String.ofList (c :: cs))
  | _ => none

/-- The number of local variable slots that a value of the type takes. -/
def slots (type : String) : Nat :=
  if type = "J" ∨ type = "D" then 2 else if type = "V" then 0 else 1

/-- The number of slots that values of the types take together. -/
def totalSlots : (types : List String) → Nat
  | [] => 0
  | type :: types => slots type + totalSlots types

end Winnow.Descriptor
