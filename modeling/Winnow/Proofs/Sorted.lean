/-
  Sorted lists as sets and as maps.

  `Sorted.ofList` has the elements of a list, in order and each once.  `Sorted.put` binds
  one key and keeps what the others are bound to.  Bindings of different keys commute, so
  that many of them can be made in any order.
-/
import Winnow.Sorted
import Winnow.Proofs.Lists

namespace Winnow.Sorted

/-! ## Sets -/

section
variable {as acc : List Nat} {a b : Nat}

theorem mem_foldl_insert :
    b ∈ as.foldl (fun acc a => insert a acc) acc ↔ b ∈ as ∨ b ∈ acc := by
  induction as generalizing acc with
  | nil => simp
  | cons a as ih =>
    rw [List.foldl_cons, ih, mem_insert, List.mem_cons]
    exact or_left_comm.trans (or_assoc.symm)

theorem mem_ofList : b ∈ ofList as ↔ b ∈ as := by
  simp [ofList, mem_foldl_insert]

theorem pairwise_insert (h : acc.Pairwise (· < ·)) : (insert a acc).Pairwise (· < ·) := by
  induction acc with
  | nil => exact List.pairwise_singleton _ _
  | cons b bs ih =>
    obtain ⟨hb, hbs⟩ := List.pairwise_cons.1 h
    rw [insert]
    split
    · next hlt =>
      exact List.pairwise_cons.2
        ⟨List.forall_mem_cons.2 ⟨hlt, fun c hc => Nat.lt_trans hlt (hb c hc)⟩, h⟩
    · split
      · exact h
      · refine List.pairwise_cons.2 ⟨fun c hc => ?_, ih hbs⟩
        rcases mem_insert.1 hc with rfl | hc
        · omega
        · exact hb c hc

theorem pairwise_ofList (as : List Nat) : (ofList as).Pairwise (· < ·) :=
  List.foldlRecOn (motive := fun acc : List Nat => acc.Pairwise (· < ·)) as _
    .nil fun _ h _ _ => pairwise_insert h

end

/-! ## Maps -/

section
variable {κ β : Type} [BEq κ] [LawfulBEq κ] [LT κ] [DecidableLT κ] [DecidableEq κ] {k k' : κ} {v : β}
  {rows : List (κ × β)}

theorem lookup_put_self : (put k v rows).lookup k = some v := by
  induction rows with
  | nil => exact List.lookup_cons_self
  | cons row rows ih =>
    obtain ⟨k', v'⟩ := row
    simp only [put]
    split
    · exact List.lookup_cons_self
    · split
      · exact List.lookup_cons_self
      · next hne => rw [List.lookup_cons_of_ne hne, ih]

theorem lookup_put_of_ne (h : k' ≠ k) : (put k v rows).lookup k' = rows.lookup k' := by
  induction rows with
  | nil => exact List.lookup_cons_of_ne h
  | cons row rows ih =>
    obtain ⟨k₁, v₁⟩ := row
    simp only [put]
    split
    · exact List.lookup_cons_of_ne h
    · split
      · next heq => rw [List.lookup_cons_of_ne h, List.lookup_cons_of_ne (heq ▸ h)]
      · by_cases h₁ : k' = k₁
        · subst h₁; rw [List.lookup_cons_self, List.lookup_cons_self]
        · rw [List.lookup_cons_of_ne h₁, List.lookup_cons_of_ne h₁, ih]

end

/-! ## Many bindings -/

section
variable {β : Type} {k k' : Nat} {v v' : β} {rows : List (Nat × β)} {xs ys : List (Nat × β)}

theorem put_comm (h : k ≠ k') : put k v (put k' v' rows) = put k' v' (put k v rows) := by
  induction rows with
  | nil =>
    rcases Nat.lt_or_gt_of_ne h with hlt | hgt
    · simp [put, hlt, Nat.lt_asymm hlt, h.symm]
    · simp [put, hgt, Nat.lt_asymm hgt, h]
  | cons row rows ih =>
    obtain ⟨k₁, v₁⟩ := row
    simp only [put]
    split <;> split <;> grind [put]

theorem keys_put : (put k v rows).map (·.1) = insert k (rows.map (·.1)) := by
  induction rows with
  | nil => rfl
  | cons row rows ih =>
    obtain ⟨k₁, v₁⟩ := row
    simp only [put, List.map_cons, insert]
    split
    · rfl
    · split
      · next heq => rw [List.map_cons, heq]
      · rw [List.map_cons, ih]

theorem mem_iff_lookup (h : (rows.map (·.1)).Nodup) : (k, v) ∈ rows ↔ rows.lookup k = some v := by
  induction rows with
  | nil => simp
  | cons row rows ih =>
    obtain ⟨k₁, v₁⟩ := row
    obtain ⟨hnot, hnodup⟩ := List.nodup_cons.1 h
    by_cases heq : k = k₁
    · subst heq
      have hrest : (k, v) ∉ rows := fun hmem => hnot (List.mem_map_of_mem (f := (·.1)) hmem)
      rw [List.lookup_cons_self]
      simp [hrest, eq_comm]
    · rw [List.lookup_cons_of_ne heq, ← ih hnodup]
      simp [heq]

/-- Binds many keys, one after the other. -/
def putAll (xs rows : List (Nat × β)) : List (Nat × β) :=
  xs.foldl (fun rows x => put x.1 x.2 rows) rows

theorem putAll_perm (hp : xs.Perm ys) (h : ∀ x ∈ xs, ∀ y ∈ xs, x.1 = y.1 → x.2 = y.2) :
    putAll xs rows = putAll ys rows := by
  refine hp.foldl_eq' (fun x hx y hy z => ?_) rows
  by_cases heq : x.1 = y.1
  · rw [heq, h x hx y hy heq]
  · exact put_comm (Ne.symm heq)

theorem putAll_append : putAll (xs ++ ys) rows = putAll ys (putAll xs rows) :=
  List.foldl_append

theorem lookup_putAll_of_ne (h : ∀ x ∈ xs, k ≠ x.1) :
    (putAll xs rows).lookup k = rows.lookup k := by
  induction xs generalizing rows with
  | nil => rfl
  | cons x xs ih =>
    obtain ⟨hx, hxs⟩ := List.forall_mem_cons.1 h
    exact (ih hxs).trans (lookup_put_of_ne hx)

/-- A key is bound to one of the values that it was given. -/
theorem lookup_putAll (h : (k, v) ∈ xs) :
    ∃ v', (k, v') ∈ xs ∧ (putAll xs rows).lookup k = some v' := by
  induction xs generalizing rows v with
  | nil => cases h
  | cons x xs ih =>
    by_cases hlater : ∃ v', (k, v') ∈ xs
    · obtain ⟨v', hv'⟩ := hlater
      obtain ⟨w, hw, hlookup⟩ := ih hv'
      exact ⟨w, List.mem_cons_of_mem _ hw, hlookup⟩
    · have hne : ∀ y ∈ xs, k ≠ y.1 := by
        rintro y hy rfl
        exact hlater ⟨y.2, hy⟩
      obtain rfl : (k, v) = x := by
        rcases List.mem_cons.1 h with h | h
        · exact h
        · exact absurd ⟨v, h⟩ hlater
      exact ⟨v, List.mem_cons_self, (lookup_putAll_of_ne hne).trans lookup_put_self⟩

end

end Winnow.Sorted
