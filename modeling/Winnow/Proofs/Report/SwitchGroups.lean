/-
  The branches of a switch, with and without its default.

  * `DistinctLabels` lists the labels of a switch, each once; the branches of the switch go to
    their places and are numbered like them;
  * `Method.SameLanding` says that two labels lead to one instruction, or stand at one place
    when no instruction follows;
  * dropping the default leaves the other branches, grouped by where they land
    (`withoutDefault_eq`).  Groups, and the branches in them, follow the numbers.
-/
import Winnow.Proofs.Report.Grouping

namespace Winnow

open Grouping (SameGroup)

variable {m : Method} {switch n p q k target : Nat} {e : Entry} {l l' default : Label}
  {cases ls : List Label} {places : List Nat}

/-! ## Labels -/

/-- The labels of a switch, each once: the default first, and the labels of the cases in the
    order in which they come first. -/
structure DistinctLabels (default : Label) (cases ls : List Label) : Prop where
  mem_iff : ∀ l, l ∈ ls ↔ l ∈ default :: cases
  ordered : ls.Pairwise fun l l' => (default :: cases).idxOf l < (default :: cases).idxOf l'

theorem distinctLabels_eraseDups (default : Label) (cases : List Label) :
    DistinctLabels default cases (default :: cases).eraseDups where
  mem_iff _ := List.mem_eraseDups
  ordered := List.pairwise_idxOf_eraseDups _

theorem DistinctLabels.eq_targets (h : DistinctLabels default cases ls)
    (hs : e.switch? = some (default, cases)) : ls = e.targets := by
  have htargets := distinctLabels_eraseDups default cases
  rw [Method.targets_of_switch? hs]
  exact List.eq_of_pairwise_idxOf (fun l => (h.mem_iff l).trans (htargets.mem_iff l).symm)
    h.ordered htargets.ordered

/-- The targets of a switch start with its default. -/
theorem targets_eq_cons (hs : e.switch? = some (default, cases)) :
    ∃ ls, e.targets = default :: ls := by
  rw [Method.targets_of_switch? hs, List.eraseDups_cons]
  exact ⟨_, rfl⟩

namespace Method

/-! ## Landings -/

/-- The labels lead to the same first real instruction, or stand at the same place when none
    follows. -/
def SameLanding (m : Method) (l l' : Label) : Prop :=
  (∃ pos, m.target? l = some pos ∧ m.target? l' = some pos) ∨
    m.target? l = none ∧ m.target? l' = none ∧ m.resolve? l = m.resolve? l'

/-- A place from which no real instruction follows is none. -/
theorem realFrom?_ne_place (hp : m.realFrom? p = some n) (hq : m.realFrom? q = none) : n ≠ q := by
  rintro rfl
  obtain ⟨-, hreal, -⟩ := realFrom?_eq_some_iff.1 hp
  rw [realFrom?_of_isReal hreal] at hq
  cases hq

theorem settle_eq_iff (hp : m.resolve? l = some p) (hq : m.resolve? l' = some q) :
    m.settle p = m.settle q ↔ m.SameLanding l l' := by
  simp only [settle, SameLanding, target?, hp, hq, Option.bind_some, Option.some.injEq]
  cases hp' : m.realFrom? p with
  | none =>
    cases hq' : m.realFrom? q with
    | none => simp
    | some n => simpa using (realFrom?_ne_place hq' hp').symm
  | some n =>
    cases hq' : m.realFrom? q with
    | none => simpa using realFrom?_ne_place hp' hq'
    | some n' => simp [eq_comm]

/-- The branches of a switch from number 1 on, which go to the places, with where they land. -/
def landings (m : Method) (switch : Nat) (places : List Nat) : List (Nat × BranchRef) :=
  (places.zipIdx 1).map fun (target, n) => (m.settle target, ⟨switch, n⟩)

theorem mem_landings :
    (k, ⟨switch, n⟩) ∈ m.landings switch places ↔
      1 ≤ n ∧ ∃ target, places[n - 1]? = some target ∧ m.settle target = k := by
  simp only [landings, List.mem_map, Prod.exists, Prod.mk.injEq, BranchRef.mk.injEq, true_and,
    List.mem_zipIdx_iff_le_and_getElem?_sub]
  constructor
  · rintro ⟨target, _, ⟨hn, hplace⟩, hland, rfl⟩
    exact ⟨hn, target, hplace, hland⟩
  · rintro ⟨hn, target, hplace, hland⟩
    exact ⟨target, n, ⟨hn, hplace⟩, hland, rfl⟩

theorem map_landings :
    (m.landings switch places).map (·.2) = (List.range' 1 places.length).map (⟨switch, ·⟩) := by
  rw [← List.zipIdx_map_snd 1 places, landings, List.map_map, List.map_map]
  rfl

theorem pairwise_landings :
    (m.landings switch places).Pairwise fun x y => x.2.branch < y.2.branch :=
  List.pairwise_map.2 (List.pairwise_zipIdx places 1)

/-- What is left of a switch without its default. -/
theorem withoutDefault_eq
    (h : m.branches switch = (p :: places).zipIdx.map fun (target, n) => ⟨n, target⟩) :
    m.withoutDefault switch = (Grouping.ofList (m.landings switch places)).groups := by
  have hnumbered : (m.branches switch).filter (·.number != 0) =
      (places.zipIdx 1).map fun (target, n) => ⟨n, target⟩ := by
    rw [h, List.zipIdx_cons, List.map_cons, List.filter_cons_of_neg (by simp), List.filter_eq_self]
    intro b hb
    obtain ⟨x, hx, rfl⟩ := List.mem_map.1 hb
    have := (List.mem_zipIdx_iff_le_and_getElem?_sub.1 hx).1
    simpa using Nat.ne_of_gt this
  rw [withoutDefault, hnumbered, List.map_map]
  rfl

/-- Branches are in one group iff they go to places with the same landing. -/
theorem sameGroup_landings {i j : Nat} (hi : 1 ≤ i) (hj : 1 ≤ j) (hp : places[i - 1]? = some p)
    (hq : places[j - 1]? = some q) :
    SameGroup (Grouping.ofList (m.landings switch places)).groups ⟨switch, i⟩ ⟨switch, j⟩ ↔
      m.settle p = m.settle q := by
  simp only [Grouping.sameGroup_ofList, mem_landings, hi, hj, hp, hq, true_and, Option.some.injEq,
    exists_eq_left']
  exact eq_comm

end Method

/-- **The branches of a switch are numbered densely, and grouped without the default.**  Let
    `ls` be the distinct labels of a switch, the default first.  Then its branches are numbered
    0, 1, … and go to the places of the labels, which lie in the method.

    When the default is dropped, each of the branches from 1 on is in one group, and nothing
    else is.  Two of them are in the same group iff their labels lead to the same first real
    instruction, or are at the same place when none follows.  In each group the numbers
    increase, and groups are ordered by their smallest number. -/
theorem switch_branches_partitioned (m : Method) (switch : Nat) (e : Entry) (default : Label)
    (cases ls : List Label) (he : m.code[switch]? = some e)
    (hs : e.switch? = some (default, cases)) (hls : DistinctLabels default cases ls) :
    (∃ places, List.Forall₂ (fun l place => m.resolve? l = some place ∧ place < m.size) ls places ∧
      m.branches switch = places.zipIdx.map fun (place, n) => ⟨n, place⟩) ∧
    (m.withoutDefault switch).flatten.Perm
      ((List.range' 1 (ls.length - 1)).map (⟨switch, ·⟩)) ∧
    (∀ g ∈ m.withoutDefault switch, g ≠ []) ∧
    (∀ i j l l', 1 ≤ i → 1 ≤ j → ls[i]? = some l → ls[j]? = some l' →
      (SameGroup (m.withoutDefault switch) ⟨switch, i⟩ ⟨switch, j⟩ ↔ m.SameLanding l l')) ∧
    (∀ g ∈ m.withoutDefault switch, g.Pairwise fun b b' => b.branch < b'.branch) ∧
    (m.withoutDefault switch).Pairwise fun g g' => ∃ b ∈ g, ∀ b' ∈ g', b.branch < b'.branch := by
  obtain rfl := hls.eq_targets hs
  obtain ⟨rest, hrest⟩ := targets_eq_cons hs
  have hplaces : List.Forall₂ (fun l place => m.resolve? l = some place ∧ place < m.size) e.targets
      (e.targets.filterMap m.resolve?) := by
    refine (List.forall₂_filterMap (Method.isSome_resolve?_of_mem_targets he)).imp ?_
    exact fun l place h => ⟨h, Method.lt_size_of_entry (Method.entry_of_resolve? h)⟩
  have hbranches := Method.branches_of_switch he (by rw [hs]; rfl)
  refine ⟨⟨_, hplaces, hbranches⟩, ?_⟩
  generalize e.targets.filterMap m.resolve? = places at hplaces hbranches
  rw [hrest] at hplaces ⊢
  obtain ⟨place, places, -, htail, rfl⟩ := List.forall₂_cons_left_iff.1 hplaces
  rw [Method.withoutDefault_eq hbranches]
  refine ⟨?_, fun g => Grouping.ne_nil_of_mem_groups_ofList, ?_,
    Grouping.pairwise_of_mem_groups_ofList Method.pairwise_landings,
    Grouping.pairwise_groups_ofList Method.pairwise_landings⟩
  · rw [List.length_cons, Nat.add_sub_cancel, htail.length_eq, ← Method.map_landings]
    exact Grouping.flatten_groups_ofList _
  · intro i j l l' hi hj hl hl'
    obtain ⟨i, rfl⟩ := Nat.exists_eq_add_of_le' hi
    obtain ⟨j, rfl⟩ := Nat.exists_eq_add_of_le' hj
    obtain ⟨p, hp, hresolve, -⟩ := htail.exists_getElem? hl
    obtain ⟨q, hq, hresolve', -⟩ := htail.exists_getElem? hl'
    rw [Method.sameGroup_landings hi hj hp hq, Method.settle_eq_iff hresolve hresolve']

/-- A switch with a repeated label, two labels of one instruction, and a label that no
    instruction follows. -/
def switchingMethod : Method where
  name := "m"
  desc := "(I)V"
  code := #[.var .iload 1, .lookupSwitch ⟨3⟩ [1, 2, 3, 4, 5] [⟨0⟩, ⟨1⟩, ⟨0⟩, ⟨2⟩, ⟨4⟩], .label ⟨0⟩,
    .label ⟨1⟩, .plain .vreturn, .label ⟨2⟩, .label ⟨3⟩, .plain .vreturn, .label ⟨4⟩]
  placed_nodup := by decide
  mentioned_placed := by decide

/-- The switch has four branches beside its default.  The first two lead to one instruction
    and make a group, the third, which lands with the default, is alone. -/
theorem switch_branches_partitioned_aliasing :
    (switchingMethod.withoutDefault 1).flatten.Perm [⟨1, 1⟩, ⟨1, 2⟩, ⟨1, 3⟩, ⟨1, 4⟩] ∧
      SameGroup (switchingMethod.withoutDefault 1) ⟨1, 1⟩ ⟨1, 2⟩ ∧
      ¬ SameGroup (switchingMethod.withoutDefault 1) ⟨1, 3⟩ ⟨1, 4⟩ := by
  obtain ⟨-, hperm, -, hsame, -⟩ := switch_branches_partitioned switchingMethod 1 _ ⟨3⟩
    [⟨0⟩, ⟨1⟩, ⟨0⟩, ⟨2⟩, ⟨4⟩] _ rfl rfl (distinctLabels_eraseDups _ _)
  have hlast : switchingMethod.target? ⟨4⟩ = none := by decide +kernel
  refine ⟨hperm, ?_, ?_⟩
  · rw [hsame 1 2 ⟨0⟩ ⟨1⟩ (by decide) (by decide) rfl rfl]
    exact Or.inl ⟨4, by decide +kernel, by decide +kernel⟩
  · rw [hsame 3 4 ⟨2⟩ ⟨4⟩ (by decide) (by decide) rfl rfl]
    rintro (⟨pos, -, hpos⟩ | ⟨hnone, -⟩)
    · rw [hlast] at hpos
      cases hpos
    · exact absurd hnone (by decide +kernel)

end Winnow
