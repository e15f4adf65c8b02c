/-
  What grouping branches gives.

  * Every branch is kept, once for each time it was added, and no group is empty;
  * `Grouping.rows_ofList` says what the rows are: one for each target, in the order in
    which the targets were first met, with the branches added for the target in their order;
  * `Grouping.sameGroup_ofList` says when two branches are in one group.
-/
import Mathlib.Data.List.Perm.Basic
import Winnow.Report.Grouping
import Winnow.Proofs.Branches

namespace Winnow

namespace Grouping

variable {rows : List (Nat × Group)} {bs : List (Nat × BranchRef)}

theorem flatten_addTo (target : Nat) (b : BranchRef) (rows : List (Nat × Group)) :
    ((addTo target b rows).map (·.2)).flatten.Perm (b :: (rows.map (·.2)).flatten) := by
  induction rows with
  | nil => exact List.Perm.refl _
  | cons row rows ih =>
    obtain ⟨key, group⟩ := row
    simp only [addTo]
    split
    · simp only [List.map_cons, List.flatten_cons, List.append_assoc]
      exact List.perm_middle
    · simp only [List.map_cons, List.flatten_cons]
      exact (ih.append_left group).trans List.perm_middle

theorem ne_nil_of_mem_addTo {target : Nat} {b : BranchRef} (h : ∀ row ∈ rows, row.2 ≠ []) :
    ∀ row ∈ addTo target b rows, row.2 ≠ [] := by
  induction rows with
  | nil => simp [addTo]
  | cons row rows ih =>
    obtain ⟨key, group⟩ := row
    obtain ⟨hg, hrows⟩ := List.forall_mem_cons.1 h
    simp only [addTo]
    split
    · exact List.forall_mem_cons.2 ⟨by simp, hrows⟩
    · exact List.forall_mem_cons.2 ⟨hg, ih hrows⟩

/-- Invariant of the additions: the branches of the rows are those added before and those
    added now. -/
theorem flatten_foldl (g : Grouping) (bs : List (Nat × BranchRef)) :
    (bs.foldl (fun g (target, b) => g.add target b) g).groups.flatten.Perm
      (bs.map (·.2) ++ g.groups.flatten) := by
  induction bs generalizing g with
  | nil => exact List.Perm.refl _
  | cons row bs ih =>
    obtain ⟨target, b⟩ := row
    refine (ih (g.add target b)).trans ?_
    refine ((flatten_addTo target b g.rows).append_left _).trans ?_
    exact List.perm_middle

theorem flatten_groups_ofList (bs : List (Nat × BranchRef)) :
    (ofList bs).groups.flatten.Perm (bs.map (·.2)) := by
  simpa [ofList, groups] using flatten_foldl {} bs

theorem ne_nil_of_mem_groups_ofList {group : Group} (h : group ∈ (ofList bs).groups) :
    group ≠ [] := by
  have key : ∀ (bs : List (Nat × BranchRef)) (g : Grouping), (∀ row ∈ g.rows, row.2 ≠ []) →
      ∀ row ∈ (bs.foldl (fun g (target, b) => g.add target b) g).rows, row.2 ≠ [] := by
    intro bs
    induction bs with
    | nil => exact fun g hg => hg
    | cons row bs ih => exact fun g hg => ih _ (ne_nil_of_mem_addTo hg)
  obtain ⟨row, hrow, rfl⟩ := List.mem_map.1 h
  exact key bs {} (by simp) row hrow

/-! ### Rows -/

theorem addTo_of_mem {target : Nat} {keys : List Nat} (hkeys : keys.Nodup) (h : target ∈ keys)
    (b : BranchRef) (group : Nat → Group) :
    addTo target b (keys.map fun k => (k, group k)) =
      keys.map fun k => (k, if k = target then group k ++ [b] else group k) := by
  induction keys with
  | nil => cases h
  | cons k keys ih =>
    obtain ⟨hk, hkeys⟩ := List.nodup_cons.1 hkeys
    simp only [List.map_cons, addTo]
    by_cases heq : k = target
    · subst heq
      simp only [↓reduceIte, List.cons.injEq, true_and]
      refine List.map_congr_left fun k' hk' => ?_
      rw [if_neg (by rintro rfl; exact hk hk')]
    · simp only [heq, ↓reduceIte, List.cons.injEq, true_and]
      exact ih hkeys ((List.mem_cons.1 h).resolve_left (Ne.symm heq))

theorem addTo_of_notMem {target : Nat} {keys : List Nat} (h : target ∉ keys) (b : BranchRef)
    (group : Nat → Group) :
    addTo target b (keys.map fun k => (k, group k)) =
      keys.map (fun k => (k, group k)) ++ [(target, [b])] := by
  induction keys with
  | nil => rfl
  | cons k keys ih =>
    obtain ⟨hne, hkeys⟩ := not_or.1 (mt List.mem_cons.2 h)
    simp only [List.map_cons, addTo, Ne.symm hne, ↓reduceIte, List.cons_append, ih hkeys]

theorem ofList_concat (bs : List (Nat × BranchRef)) (target : Nat) (b : BranchRef) :
    (ofList (bs ++ [(target, b)])).rows = addTo target b (ofList bs).rows := by
  simp [ofList, List.foldl_append, add]

/-- The branches that were added for a target. -/
def added (bs : List (Nat × BranchRef)) (target : Nat) : Group :=
  (bs.filter (·.1 = target)).map (·.2)

theorem added_concat (bs : List (Nat × BranchRef)) (target k : Nat) (b : BranchRef) :
    added (bs ++ [(target, b)]) k = if k = target then added bs k ++ [b] else added bs k := by
  by_cases h : k = target
  · subst h; simp [added]
  · simp [added, h, Ne.symm h]

theorem mem_added {k : Nat} {b : BranchRef} : b ∈ added bs k ↔ (k, b) ∈ bs := by
  simp [added]

/-- **The rows of a grouping.** -/
theorem rows_ofList (bs : List (Nat × BranchRef)) :
    (ofList bs).rows = (bs.map (·.1)).eraseDups.map fun k => (k, added bs k) := by
  induction bs using List.reverseRecOn with
  | nil => rfl
  | append_singleton bs x ih =>
    obtain ⟨target, b⟩ := x
    rw [ofList_concat, ih, List.map_append, List.map_singleton, List.eraseDups_concat]
    simp only [added_concat]
    split
    · next h => exact addTo_of_mem (List.nodup_eraseDups _) (List.mem_eraseDups.2 h) b _
    · next h =>
      have hnone : added bs target = [] := by
        rw [List.eq_nil_iff_forall_not_mem]
        exact fun b hb => h (List.mem_map_of_mem (f := (·.1)) (mem_added.1 hb))
      rw [addTo_of_notMem (by rwa [List.mem_eraseDups]), List.map_append]
      simp only [List.map_cons, List.map_nil, ↓reduceIte, hnone, List.nil_append]
      refine congrArg (· ++ _) (List.map_congr_left fun k hk => ?_)
      rw [if_neg (by rintro rfl; exact h (List.mem_eraseDups.1 hk))]

/-- The two branches stand in one group. -/
def SameGroup (gs : List Group) (b b' : BranchRef) : Prop :=
  ∃ g ∈ gs, b ∈ g ∧ b' ∈ g

/-- Branches are in one group iff they were added for one target. -/
theorem sameGroup_ofList {b b' : BranchRef} :
    SameGroup (ofList bs).groups b b' ↔ ∃ k, (k, b) ∈ bs ∧ (k, b') ∈ bs := by
  rw [SameGroup, groups, rows_ofList, List.map_map]
  constructor
  · rintro ⟨g, hg, hb, hb'⟩
    obtain ⟨k, -, rfl⟩ := List.mem_map.1 hg
    exact ⟨k, mem_added.1 hb, mem_added.1 hb'⟩
  · rintro ⟨k, hb, hb'⟩
    refine ⟨added bs k, List.mem_map.2 ⟨k, ?_, rfl⟩, mem_added.2 hb, mem_added.2 hb'⟩
    exact List.mem_eraseDups.2 (List.mem_map_of_mem (f := (·.1)) hb)

/-- Branches that were added by increasing numbers stand so in each group. -/
theorem pairwise_of_mem_groups_ofList (h : bs.Pairwise fun x y => x.2.branch < y.2.branch) :
    ∀ g ∈ (ofList bs).groups, g.Pairwise fun b b' => b.branch < b'.branch := by
  rw [groups, rows_ofList, List.map_map]
  intro g hg
  obtain ⟨k, -, rfl⟩ := List.mem_map.1 hg
  exact List.pairwise_map.2 (h.sublist List.filter_sublist)

/-- Then each group has a branch before all branches of the groups behind it. -/
theorem pairwise_groups_ofList (h : bs.Pairwise fun x y => x.2.branch < y.2.branch) :
    (ofList bs).groups.Pairwise fun g g' => ∃ b ∈ g, ∀ b' ∈ g', b.branch < b'.branch := by
  rw [groups, rows_ofList, List.map_map, List.pairwise_map]
  refine (List.pairwise_idxOf_eraseDups _).imp_of_mem fun {k k'} hk _ hlt => ?_
  -- the branch that was first added for `k`
  obtain ⟨i, hi, rfl, hlt⟩ : ∃ i, ∃ hi : i < bs.length,
      bs[i].1 = k ∧ i < (bs.map (·.1)).idxOf k' := by
    have hi := List.idxOf_lt_length_of_mem (List.mem_eraseDups.1 hk)
    exact ⟨_, by simpa using hi, (List.getElem_map _).symm.trans (List.getElem_idxOf hi), hlt⟩
  refine ⟨bs[i].2, mem_added.2 (List.getElem_mem hi), fun b' hb' => ?_⟩
  obtain ⟨j, hj, hget⟩ := List.getElem_of_mem (mem_added.1 hb')
  have hle : (bs.map (·.1)).idxOf k' ≤ j :=
    List.idxOf_le_of_getElem? (by rw [List.getElem?_map, List.getElem?_eq_getElem hj, hget]; rfl)
  have hbranch := List.pairwise_iff_getElem.1 h i j hi hj (by omega)
  rwa [hget] at hbranch

/-- The branch that was added first stands first in the first group. -/
theorem groups_ofList_cons (target : Nat) (b : BranchRef) (bs : List (Nat × BranchRef)) :
    ∃ g rest, (ofList ((target, b) :: bs)).groups = (b :: g) :: rest := by
  rw [groups, rows_ofList, List.map_cons, List.eraseDups_cons, List.map_cons, List.map_cons]
  exact ⟨added bs target, _, by simp [added]; rfl⟩

end Grouping

namespace Method

variable {m : Method} {switch : Nat}

/-- The branches that stay when the default is dropped are the numbered ones. -/
theorem flatten_withoutDefault (m : Method) (switch : Nat) :
    (m.withoutDefault switch).flatten.Perm
      (((m.branches switch).filter (·.number != 0)).map fun b => ⟨switch, b.number⟩) := by
  refine (Grouping.flatten_groups_ofList _).trans ?_
  rw [List.map_map]
  exact List.Perm.refl _

theorem mem_flatten_withoutDefault {b : BranchRef} :
    b ∈ (m.withoutDefault switch).flatten ↔
      b.instruction = switch ∧ b.branch ≠ 0 ∧ m.HasBranch b := by
  rw [(flatten_withoutDefault m switch).mem_iff, List.mem_map]
  constructor
  · rintro ⟨x, hx, rfl⟩
    obtain ⟨hx, hnumber⟩ := List.mem_filter.1 hx
    exact ⟨rfl, by simpa using hnumber, x.target, hx⟩
  · rintro ⟨rfl, hbranch, target, htarget⟩
    exact ⟨_, List.mem_filter.2 ⟨htarget, by simpa using hbranch⟩, rfl⟩

theorem nodup_flatten_withoutDefault : (m.withoutDefault switch).flatten.Nodup := by
  refine (flatten_withoutDefault m switch).nodup_iff.2 ?_
  have h := ((List.filter_sublist (p := (·.number != 0)) (l := m.branches switch)).map
    (·.number)).nodup (m.nodup_numbers_branches switch)
  have hinj : Function.Injective fun n => (⟨switch, n⟩ : BranchRef) := fun a b hab =>
    congrArg BranchRef.branch hab
  have hmap := List.Nodup.map hinj h
  rwa [List.map_map] at hmap

end Method

end Winnow
