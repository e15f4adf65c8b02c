/-
  Ranges of generated lines.

  A single walk over the entries carries the line in effect and the range of generated
  lines that it stands in.

  * `lineBefore` is the line that the walk carries, by the search that `Method.lineAt?` is;
  * the ranges are canonical, and cover the positions whose line is generated
    (`canonical_scan`, `covered_scan`).
-/
import Winnow.Idiom.InlinedCode
import Winnow.Proofs.Navigation
import Winnow.Proofs.Report.Coalescing

namespace Winnow.Idiom.InlinedCode

open Range (Covered Canonical)

variable {m : Method} {first pos line p : Nat} {run : Option Range} {e : Entry} {es : List Entry}

/-! ## The line in effect -/

/-- The line in effect before the entry at a position, 0 before all entries. -/
def lineBefore (m : Method) : Nat → Nat
  | 0 => 0
  | pos + 1 => (m.lineAt? pos).getD 0

/-- An entry sets the line, or the line stays what it was. -/
theorem lineAt?_of_entry (h : m.code[pos]? = some e) :
    (m.lineAt? pos).getD 0 = e.line?.getD (lineBefore m pos) := by
  have hpos : pos < m.size := Method.lt_size_of_entry h
  rw [Method.lineAt?, Nat.min_eq_left hpos, lastWhere]
  simp only [h, Option.bind_some]
  cases hline : e.line? with
  | some n => simp [h, hline]
  | none =>
    simp only [Option.isSome_none, Bool.false_eq_true, ↓reduceIte, Option.getD_none]
    cases pos with
    | zero => rfl
    | succ q => rw [lineBefore, Method.lineAt?, Nat.min_eq_left (Nat.le_of_lt hpos)]

/-! ## The walk -/

/-- The range, if there is one, ends right before the position. -/
def Pending (pos : Nat) (run : Option Range) : Prop :=
  ∀ r, run = some r → r.first ≤ r.last ∧ r.last + 1 = pos

theorem pending_none : Pending pos none := by
  simp [Pending]

/-- The range that the walk stands in after an entry with a generated line. -/
theorem Pending.extend (h : Pending pos run) :
    Pending (pos + 1) (some ⟨(run.map (·.first)).getD pos, pos⟩) := by
  rintro r ⟨⟩
  cases run with
  | none => exact ⟨Nat.le_refl _, rfl⟩
  | some r =>
    obtain ⟨hle, hlast⟩ := h r rfl
    exact ⟨by simp only [Option.map_some, Option.getD_some]; omega, rfl⟩

theorem first_le_of_mem_scan (h : Pending pos run) :
    ∀ t ∈ scan first pos line run es, (run.map (·.first)).getD pos ≤ t.first := by
  induction es generalizing pos line run with
  | nil =>
    intro t ht
    rw [Option.mem_toList.1 ht]
    exact Nat.le_refl _
  | cons e es ih =>
    intro t ht
    rw [scan] at ht
    split at ht
    · rcases List.mem_append.1 ht with ht | ht
      · rw [Option.mem_toList.1 ht]
        exact Nat.le_refl _
      · have hnext : pos + 1 ≤ t.first := ih pending_none t ht
        cases run with
        | none => exact Nat.le_of_lt hnext
        | some r =>
          obtain ⟨hle, hlast⟩ := h r rfl
          simp only [Option.map_some, Option.getD_some]
          omega
    · exact ih h.extend t ht

theorem canonical_scan (h : Pending pos run) : Canonical (scan first pos line run es) := by
  induction es generalizing pos line run with
  | nil =>
    cases run with
    | none => exact Range.canonical_nil
    | some r => exact Range.canonical_cons.2 ⟨(h r rfl).1, by simp, Range.canonical_nil⟩
  | cons e es ih =>
    rw [scan]
    split
    · cases run with
      | none => exact ih pending_none
      | some r =>
        -- the entry at `pos` lies between the range and those behind it
        obtain ⟨hle, hlast⟩ := h r rfl
        refine Range.canonical_cons.2 ⟨hle, fun t ht => ?_, ih pending_none⟩
        have hnext : pos + 1 ≤ t.first := first_le_of_mem_scan pending_none t ht
        omega
    · exact ih h.extend

theorem covered_toList_append {rs : List Range} :
    Covered (run.toList ++ rs) p ↔ (∃ r ∈ run, r.Covers p) ∨ Covered rs p := by
  cases run <;> simp

/-- The range that the walk stands in is extended by one position. -/
theorem covers_extend (h : Pending pos run) :
    Range.Covers ⟨(run.map (·.first)).getD pos, pos⟩ p ↔ (∃ r ∈ run, r.Covers p) ∨ p = pos := by
  cases run with
  | none =>
    simp only [Option.map_none, Option.getD_none, Range.covers_mk, Option.not_mem_none, false_and,
      exists_false, false_or]
    omega
  | some r =>
    obtain ⟨hle, hlast⟩ := h r rfl
    simp only [Option.map_some, Option.getD_some, Range.Covers, Option.mem_def, Option.some.injEq,
      exists_eq_left']
    omega

/-- The walk from a position on covers what it has in hand and the positions to come whose
    line is generated. -/
theorem covered_scan (hes : m.code.toList.drop pos = es) (hline : line = lineBefore m pos)
    (h : Pending pos run) :
    Covered (scan first pos line run es) p ↔
      (∃ r ∈ run, r.Covers p) ∨ pos ≤ p ∧ p < pos + es.length ∧ first ≤ (m.lineAt? p).getD 0 := by
  induction es generalizing pos line run with
  | nil =>
    have hnone : ¬ (pos ≤ p ∧ p < pos + 0 ∧ first ≤ (m.lineAt? p).getD 0) := by omega
    rw [scan, ← List.append_nil run.toList, covered_toList_append, List.length_nil,
      or_iff_left Range.covered_nil, or_iff_left hnone]
  | cons e es ih =>
    obtain ⟨hentry, hes⟩ := Method.entry_of_drop hes
    have hhere : (m.lineAt? pos).getD 0 = e.line?.getD line := by
      rw [lineAt?_of_entry hentry, hline]
    rw [scan]
    split
    · next hlt =>
      rw [covered_toList_append, ih hes hhere.symm pending_none]
      refine or_congr_right ?_
      rw [List.length_cons]
      constructor
      · rintro (⟨r, hr, -⟩ | ⟨hle, hlt', hgenerated⟩)
        · cases hr
        · exact ⟨by omega, by omega, hgenerated⟩
      · rintro ⟨hle, hlt', hgenerated⟩
        have hne : pos ≠ p := by
          rintro rfl
          omega
        exact Or.inr ⟨by omega, by omega, hgenerated⟩
    · next hge =>
      rw [ih hes hhere.symm h.extend, List.length_cons]
      simp only [Option.mem_def, Option.some.injEq, exists_eq_left', covers_extend h, or_assoc]
      refine or_congr_right ?_
      constructor
      · rintro (rfl | ⟨hle, hlt', hgenerated⟩)
        · exact ⟨Nat.le_refl _, by omega, by omega⟩
        · exact ⟨by omega, by omega, hgenerated⟩
      · rintro ⟨hle, hlt', hgenerated⟩
        rcases Nat.eq_or_lt_of_le hle with rfl | hlt
        · exact Or.inl rfl
        · exact Or.inr ⟨hlt, by omega, hgenerated⟩

/-- **The ranges of generated lines.**  They are canonical and cover the positions whose line
    is `first` or a later one. -/
theorem generatedRanges_eq (m : Method) (first : Nat) :
    ∃ rs : List Range, generatedRanges m first = rs.map (fun r => .ignore r.first r.last) ∧
      Canonical rs ∧ ∀ p, Covered rs p ↔ p < m.size ∧ first ≤ (m.lineAt? p).getD 0 := by
  refine ⟨_, rfl, canonical_scan pending_none, fun p => ?_⟩
  refine (covered_scan (m := m) List.drop_zero rfl pending_none).trans ?_
  simp [Method.size]

end Winnow.Idiom.InlinedCode
