/-
  Findings that make sense.

  * `Finding.WellFormed`: the finding speaks of positions and instructions that the
    method has, its range is not reversed, and its groups are neither empty nor share
    a branch.  `Finding.Marks` says this of a finding that replaces no branches;
  * `Report.add` puts a finding into a report without asking, and `recordAll_eq_ok`
    says that recording well-formed findings does just that: none is refused.
-/
import Mathlib.Data.Option.Basic
import Winnow.Filter
import Winnow.Proofs.Pattern.Position
import Winnow.Proofs.Report.Grouping

namespace Winnow

/-- What a finding must say to make sense for the method. -/
def Finding.WellFormed (m : Method) : Finding → Prop
  | .ignore first last => first ≤ last ∧ last < m.size
  | .merge first second => m.isReal first ∧ m.isReal second
  | .replace source groups =>
    m.isReal source ∧ (∀ g ∈ groups, g ≠ []) ∧ groups.flatten.Nodup ∧
      ∀ b ∈ groups.flatten, b.instruction < m.size

/-- A well-formed finding that replaces no branches. -/
def Finding.Marks (m : Method) : Finding → Prop
  | .replace _ _ => False
  | x => x.WellFormed m

variable {m : Method} {x : Finding}

theorem Finding.Marks.wellFormed (h : x.Marks m) : x.WellFormed m := by
  cases x with
  | ignore first last => exact h
  | merge first second => exact h
  | replace source groups => cases h

/-! ## Recording -/

namespace Report

/-- The report with one more finding. -/
def add (r : Report) : Finding → Report
  | .ignore first last => { r with ignored := r.ignored ++ [⟨first, last⟩] }
  | .merge first second => { r with merged := r.merged ++ [⟨first, second⟩] }
  | .replace source groups =>
    { r with replacements := Sorted.put source groups r.replacements }

theorem record_eq_ok (h : x.WellFormed m) (r : Report) : r.record x = .ok (r.add x) := by
  cases x with
  | ignore first last => exact if_pos h.1
  | merge first second => rfl
  | replace source groups =>
    obtain ⟨-, hne, hnodup, -⟩ := h
    have hany : groups.any List.isEmpty = false := by
      rw [List.any_eq_false]
      intro g hg
      simpa using hne g hg
    simp [record, checkGroups, hany, hnodup, add]

theorem recordAll_eq_ok {xs : List Finding} (h : ∀ x ∈ xs, x.WellFormed m) (r : Report) :
    r.recordAll xs = .ok (xs.foldl add r) := by
  induction xs generalizing r with
  | nil => rfl
  | cons x xs ih =>
    obtain ⟨hx, hxs⟩ := List.forall_mem_cons.1 h
    rw [recordAll, record_eq_ok hx]
    exact ih hxs _

end Report

/-! ## Ranges -/

namespace Finding

theorem marks_ignore_self {pos : Nat} (h : pos < m.size) : (ignore pos pos).Marks m :=
  ⟨Nat.le_refl _, h⟩

/-- A range from where matching started, or from before that, to the last match. -/
theorem marks_ignore_matched {c : Cursor} {first lo last : Nat} (hc : c.Reached m lo)
    (hfirst : first ≤ lo) (hlast : c.matched? = some last) : (ignore first last).Marks m := by
  obtain ⟨hle, hr⟩ := hc.of_matched? hlast
  exact ⟨Nat.le_trans hfirst hle, Method.lt_size_of_isReal hr⟩

theorem marks_ignoreAll : ∀ x ∈ m.ignoreAll, x.Marks m := by
  intro x hx
  unfold Method.ignoreAll at hx
  split at hx
  · cases hx
  · obtain rfl := List.mem_singleton.1 hx
    exact ⟨Nat.zero_le _, by omega⟩

/-! ## Branches -/

/-- Grouped branches make sense if each was added once and belongs to the method. -/
theorem wellFormed_replace_ofList {source : Nat} {bs : List (Nat × BranchRef)}
    (hsource : m.isReal source) (hnodup : (bs.map (·.2)).Nodup)
    (hlt : ∀ b ∈ bs, b.2.instruction < m.size) :
    (replace source (Grouping.ofList bs).groups).WellFormed m := by
  have hperm := Grouping.flatten_groups_ofList bs
  refine ⟨hsource, fun g hg => Grouping.ne_nil_of_mem_groups_ofList hg, hperm.nodup_iff.2 hnodup,
    fun b hb => ?_⟩
  obtain ⟨b', hb', rfl⟩ := List.mem_map.1 (hperm.mem_iff.1 hb)
  exact hlt b' hb'

theorem wellFormed_replace_withoutDefault {switch : Nat} {e : Entry}
    (he : m.code[switch]? = some e) (hs : e.switch?.isSome) :
    (replace switch (m.withoutDefault switch)).WellFormed m := by
  refine wellFormed_replace_ofList (Method.isReal_of_switch he hs) ?_ ?_
  · exact (Grouping.flatten_groups_ofList _).nodup_iff.1 Method.nodup_flatten_withoutDefault
  · intro b hb
    obtain ⟨b', -, rfl⟩ := List.mem_map.1 hb
    exact Method.lt_size_of_entry he

end Finding

end Winnow
