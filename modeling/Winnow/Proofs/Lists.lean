/-
  Facts about lists.

  * `eraseDups` keeps each element once, in the order in which they come first.  Only one list
    has the elements in this order (`eq_of_pairwise_idxOf`);
  * `forall₂_filterMap`: a function that is defined on all elements maps them one to one;
  * `cut_append_singleton` says where a list can be cut when one element is added at its end.
-/
import Mathlib.Data.List.Forall2
import Mathlib.Data.List.Induction
import Mathlib.Data.List.Nodup

namespace List

variable {α β : Type} {l : List α} {a : α}

/-! ## Elements kept once -/

section
variable [DecidableEq α]

theorem eraseDups_concat (l : List α) (a : α) :
    (l ++ [a]).eraseDups = if a ∈ l then l.eraseDups else l.eraseDups ++ [a] := by
  rw [eraseDups_append]
  split
  · next h => simp [removeAll, h]
  · next h => simp [removeAll, h, eraseDups_cons]

/-- An element that comes again makes no difference. -/
theorem eraseDups_append_again {front back : List α} (h : a ∈ front) :
    (front ++ a :: back).eraseDups = (front ++ back).eraseDups := by
  rw [eraseDups_append, eraseDups_append, cons_removeAll]
  simp [h]

theorem nodup_eraseDups (l : List α) : l.eraseDups.Nodup := by
  induction l using reverseRecOn with
  | nil => exact nodup_nil
  | append_singleton l a ih =>
    rw [eraseDups_concat]
    split
    · exact ih
    · next h =>
      refine nodup_append'.2 ⟨ih, nodup_singleton a, ?_⟩
      rwa [disjoint_singleton, mem_eraseDups]

/-- Elements that are kept once stay in the order in which they come first. -/
theorem pairwise_idxOf_eraseDups (l : List α) :
    l.eraseDups.Pairwise fun a b => l.idxOf a < l.idxOf b := by
  induction l using reverseRecOn with
  | nil => exact Pairwise.nil
  | append_singleton l a ih =>
    -- elements that were there before keep their places
    have hold : ∀ b ∈ l, (l ++ [a]).idxOf b = l.idxOf b :=
      fun b hb => idxOf_append_of_mem hb
    have hpairs : l.eraseDups.Pairwise
        fun b b' => (l ++ [a]).idxOf b < (l ++ [a]).idxOf b' := by
      refine ih.imp_of_mem fun {b b'} hb hb' h => ?_
      rwa [hold b (mem_eraseDups.1 hb), hold b' (mem_eraseDups.1 hb')]
    rw [eraseDups_concat]
    split
    · exact hpairs
    · next ha =>
      refine pairwise_append.2 ⟨hpairs, pairwise_singleton _ _, ?_⟩
      intro b hb b' hb'
      obtain rfl := mem_singleton.1 hb'
      rw [hold b (mem_eraseDups.1 hb), idxOf_append_of_notMem ha]
      have := idxOf_lt_length_of_mem (mem_eraseDups.1 hb)
      omega

/-- Only one list has the elements in this order. -/
theorem eq_of_pairwise_idxOf {l₁ l₂ : List α} (hmem : ∀ a, a ∈ l₁ ↔ a ∈ l₂)
    (h₁ : l₁.Pairwise fun a b => l.idxOf a < l.idxOf b)
    (h₂ : l₂.Pairwise fun a b => l.idxOf a < l.idxOf b) : l₁ = l₂ := by
  have hperm : l₁.Perm l₂ := by
    refine (perm_ext_iff_of_nodup ?_ ?_).2 hmem
    · exact h₁.imp fun hlt => by rintro rfl; omega
    · exact h₂.imp fun hlt => by rintro rfl; omega
  exact hperm.eq_of_pairwise (fun a b _ _ hab hba => by omega) h₁ h₂

theorem idxOf_le_of_getElem? {i : Nat} (h : l[i]? = some a) : l.idxOf a ≤ i := by
  by_contra hlt
  obtain ⟨hi, heq⟩ := getElem?_eq_some_iff.1 h
  have hne := not_of_lt_findIdx (Nat.not_le.1 hlt)
  simp [heq] at hne

/-- Elements that come again are never the first with a property. -/
theorem findSome?_eraseDups (f : α → Option β) (l : List α) :
    l.eraseDups.findSome? f = l.findSome? f := by
  induction l using reverseRecOn with
  | nil => rfl
  | append_singleton l a ih =>
    rw [eraseDups_concat]
    split
    · next ha =>
      rw [ih, findSome?_append]
      cases h : l.findSome? f with
      | some b => rfl
      | none => simp [findSome?_eq_none_iff.1 h a ha]
    · rw [findSome?_append, findSome?_append, ih]

end

/-! ## Elements by position -/

theorem pairwise_zipIdx (l : List α) (n : Nat) : (l.zipIdx n).Pairwise fun x y => x.2 < y.2 := by
  rw [← pairwise_map (f := Prod.snd), zipIdx_map_snd]
  exact pairwise_lt_range' ..

theorem Forall₂.exists_getElem? {r : α → β → Prop} {l' : List β} {n : Nat} (h : Forall₂ r l l')
    (ha : l[n]? = some a) : ∃ b, l'[n]? = some b ∧ r a b := by
  obtain ⟨hn, rfl⟩ := getElem?_eq_some_iff.1 ha
  have hn' := h.length_eq ▸ hn
  exact ⟨l'[n], getElem?_eq_getElem hn', h.get hn hn'⟩

section
variable {f : α → Option β}

theorem mem_filterMap_cons {b : β} :
    b ∈ (a :: l).filterMap f ↔ f a = some b ∨ b ∈ l.filterMap f := by
  simp [mem_filterMap]

theorem forall₂_filterMap (h : ∀ a ∈ l, (f a).isSome) :
    Forall₂ (fun a b => f a = some b) l (l.filterMap f) := by
  induction l with
  | nil => exact .nil
  | cons a l ih =>
    obtain ⟨ha, hl⟩ := forall_mem_cons.1 h
    obtain ⟨b, hb⟩ := Option.isSome_iff_exists.1 ha
    rw [filterMap_cons_some hb]
    exact .cons hb (ih hl)

theorem getElem?_filterMap_of_isSome (h : ∀ a ∈ l, (f a).isSome) (n : Nat) :
    (l.filterMap f)[n]? = l[n]?.bind f := by
  have hall := forall₂_filterMap h
  cases ha : l[n]? with
  | some a =>
    obtain ⟨b, hb, hab⟩ := hall.exists_getElem? ha
    exact hb.trans hab.symm
  | none =>
    rw [getElem?_eq_none_iff] at ha
    exact getElem?_eq_none (hall.length_eq ▸ ha)

end

/-! ## Ends -/

/-- Where a list with one more element at its end can be cut. -/
theorem cut_append_singleton {before later : List α} {x : α} (h : l ++ [a] = before ++ x :: later) :
    (later = [] ∧ l = before ∧ a = x) ∨
      ∃ later', later = later' ++ [a] ∧ l = before ++ x :: later' := by
  rcases later.eq_nil_or_concat' with rfl | ⟨later', y, rfl⟩
  · exact Or.inl ⟨rfl, append_singleton_inj.1 h⟩
  · rw [← cons_append, ← append_assoc] at h
    obtain ⟨hl, rfl⟩ := append_singleton_inj.1 h
    exact Or.inr ⟨later', rfl, hl⟩

theorem not_of_mem_head?_dropWhile {p : α → Bool} (h : a ∈ (l.dropWhile p).head?) : ¬ p a := by
  have hnot := head?_dropWhile_not p l
  rw [Option.mem_def.1 h] at hnot
  simp [hnot]

/-! ## Rows -/

theorem lookup_cons_of_ne {κ : Type} [BEq κ] [LawfulBEq κ] {k k' : κ} {v : β}
    {rows : List (κ × β)} (h : k' ≠ k) : lookup k' ((k, v) :: rows) = rows.lookup k' := by
  have hb : (k' == k) = false := beq_false_of_ne h
  rw [lookup_cons, hb]

/-! ## Computations for each element -/

section
variable {ε : Type} {g : α → Except ε β} {as as' : List α} {bs : List β}

theorem mapM_cons_eq_ok :
    (a :: as).mapM g = .ok bs ↔ ∃ b bs', g a = .ok b ∧ as.mapM g = .ok bs' ∧ bs = b :: bs' := by
  rw [mapM_cons]
  cases g a with
  | error e => exact ⟨fun h => (by cases h), fun ⟨_, _, h, _⟩ => (by cases h)⟩
  | ok b =>
    cases as.mapM g with
    | error e => exact ⟨fun h => (by cases h), fun ⟨_, _, _, h, _⟩ => (by cases h)⟩
    | ok bs' =>
      constructor
      · intro h; cases h; exact ⟨b, bs', rfl, rfl, rfl⟩
      · rintro ⟨_, _, ⟨⟩, ⟨⟩, rfl⟩; rfl

/-- Permuting a list permutes the results of a computation for each element. -/
theorem perm_of_mapM (hp : as.Perm as') (h : as.mapM g = .ok bs) :
    ∃ bs', as'.mapM g = .ok bs' ∧ bs.Perm bs' := by
  induction hp generalizing bs with
  | nil => exact ⟨bs, h, .refl _⟩
  | cons a _ ih =>
    obtain ⟨b, bs₁, hb, hbs, rfl⟩ := mapM_cons_eq_ok.1 h
    obtain ⟨bs₂, hbs₂, hperm⟩ := ih hbs
    exact ⟨b :: bs₂, mapM_cons_eq_ok.2 ⟨b, bs₂, hb, hbs₂, rfl⟩, hperm.cons b⟩
  | swap a a' as =>
    obtain ⟨b, _, hb, hrest, rfl⟩ := mapM_cons_eq_ok.1 h
    obtain ⟨b', bs', hb', hbs, rfl⟩ := mapM_cons_eq_ok.1 hrest
    refine ⟨b' :: b :: bs', mapM_cons_eq_ok.2 ⟨b', b :: bs', hb', ?_, rfl⟩, .swap b' b bs'⟩
    exact mapM_cons_eq_ok.2 ⟨b, bs', hb, hbs, rfl⟩
  | trans _ _ ih₁ ih₂ =>
    obtain ⟨bs₁, h₁, hp₁⟩ := ih₁ h
    obtain ⟨bs₂, h₂, hp₂⟩ := ih₂ h₁
    exact ⟨bs₂, h₂, hp₁.trans hp₂⟩

end

end List
