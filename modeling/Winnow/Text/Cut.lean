/-
  Texts cut at byte offsets.

  Offsets count the bytes of a text in UTF-8.  A text can be cut between two characters and at
  its ends, and nowhere else (`cutAt_eq_ok_iff`).
-/

namespace Winnow.Text

/-- The bytes of a text. -/
def utf8 (cs : List Char) : List UInt8 :=
  cs.flatMap String.utf8EncodeChar

/-- Why a text cannot be cut at an offset. -/
inductive BadCut where
  | insideCharacter
  | behindEnd
deriving DecidableEq

/-- The parts of a text before and behind an offset. -/
def cutAt : (offset : Nat) → List Char → Except BadCut (List Char × List Char)
  | 0, cs => .ok ([], cs)
  | _ + 1, [] => .error .behindEnd
  | offset + 1, c :: cs =>
    if c.utf8Size ≤ offset + 1 then
      (cutAt (offset + 1 - c.utf8Size) cs).map fun (before, after) => (c :: before, after)
    else .error .insideCharacter

/-- The offset of the first `c` in a text. -/
def offset? (c : Char) : List Char → Option Nat
  | [] => none
  | d :: cs => if d = c then some 0 else (offset? c cs).map (d.utf8Size + ·)

variable {cs before after : List Char} {c : Char} {offset : Nat}

theorem utf8_cons (c : Char) (cs : List Char) :
    utf8 (c :: cs) = String.utf8EncodeChar c ++ utf8 cs :=
  List.flatMap_cons

theorem utf8_append (cs ds : List Char) : utf8 (cs ++ ds) = utf8 cs ++ utf8 ds :=
  List.flatMap_append

theorem length_utf8_cons (c : Char) (cs : List Char) :
    (utf8 (c :: cs)).length = c.utf8Size + (utf8 cs).length := by
  rw [utf8_cons, List.length_append, String.length_utf8EncodeChar]

/-- The text can be cut behind any of its parts. -/
theorem cutAt_append (before after : List Char) :
    cutAt (utf8 before).length (before ++ after) = .ok (before, after) := by
  induction before with
  | nil => simp [utf8, cutAt]
  | cons c before ih =>
    obtain ⟨n, hn⟩ := Nat.exists_eq_add_of_le' c.utf8Size_pos
    rw [length_utf8_cons, List.cons_append, hn, Nat.add_right_comm, cutAt, if_pos (by omega),
      show n + (utf8 before).length + 1 - c.utf8Size = (utf8 before).length by omega, ih]
    rfl

theorem eq_append_of_cutAt (h : cutAt offset cs = .ok (before, after)) :
    cs = before ++ after ∧ (utf8 before).length = offset := by
  induction cs generalizing offset before with
  | nil =>
    cases offset with
    | zero => cases h; exact ⟨rfl, rfl⟩
    | succ offset => cases h
  | cons c cs ih =>
    cases offset with
    | zero => cases h; exact ⟨rfl, rfl⟩
    | succ offset =>
      rw [cutAt] at h
      split at h
      · next hc =>
        cases hcut : cutAt (offset + 1 - c.utf8Size) cs with
        | error e => rw [hcut] at h; cases h
        | ok parts =>
          rw [hcut] at h
          cases h
          obtain ⟨hcs, hsize⟩ := ih hcut
          refine ⟨congrArg (c :: ·) hcs, ?_⟩
          rw [length_utf8_cons, hsize]
          omega
      · cases h

theorem cutAt_eq_ok_iff :
    cutAt offset cs = .ok (before, after) ↔ cs = before ++ after ∧ (utf8 before).length = offset := by
  refine ⟨eq_append_of_cutAt, ?_⟩
  rintro ⟨rfl, rfl⟩
  exact cutAt_append before after

/-- What is left behind an offset other than the start is shorter. -/
theorem length_lt_of_cutAt (h : cutAt offset cs = .ok (before, after)) (hpos : 0 < offset) :
    after.length < cs.length := by
  obtain ⟨rfl, rfl⟩ := cutAt_eq_ok_iff.1 h
  have hne : before ≠ [] := by rintro rfl; exact absurd hpos (Nat.lt_irrefl 0)
  have := List.length_pos_iff.2 hne
  rw [List.length_append]
  omega

theorem offset?_eq_some_iff :
    offset? c cs = some offset ↔
      ∃ before after, cs = before ++ c :: after ∧ c ∉ before ∧ (utf8 before).length = offset := by
  induction cs generalizing offset with
  | nil => simp [offset?]
  | cons d cs ih =>
    rw [offset?]
    split
    · next hd =>
      subst hd
      constructor
      · intro h
        cases h
        exact ⟨[], cs, rfl, List.not_mem_nil, rfl⟩
      · rintro ⟨before, after, hcs, hnot, rfl⟩
        cases before with
        | nil => rfl
        | cons b before => cases hcs; exact absurd List.mem_cons_self hnot
    · next hd =>
      rw [Option.map_eq_some_iff]
      constructor
      · rintro ⟨n, hn, rfl⟩
        obtain ⟨before, after, rfl, hnot, rfl⟩ := ih.1 hn
        refine ⟨d :: before, after, rfl, ?_, length_utf8_cons d before⟩
        rw [List.mem_cons, not_or]
        exact ⟨Ne.symm hd, hnot⟩
      · rintro ⟨before, after, hcs, hnot, rfl⟩
        cases before with
        | nil => cases hcs; exact absurd rfl hd
        | cons b before =>
          cases hcs
          exact ⟨_, ih.2 ⟨before, after, rfl, fun h => hnot (List.mem_cons_of_mem _ h), rfl⟩,
            (length_utf8_cons d before).symm⟩

end Winnow.Text
