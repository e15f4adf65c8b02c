/-
  Sorted lists without repetition: sets of names and positions, and maps from
  keys to values.  Order is part of the answer wherever they are used.
-/

namespace Winnow.Sorted

section
variable {α : Type} [LT α] [DecidableLT α] [DecidableEq α]

/-- Puts `a` in its place; an element that is already there is kept. -/
def insert (a : α) : List α → List α
  | [] => [a]
  | b :: bs => if a < b then a :: b :: bs else if a = b then b :: bs else b :: insert a bs

/-- The elements of a list, sorted, each once. -/
def ofList (as : List α) : List α :=
  as.foldl (fun acc a => insert a acc) []

end

section
variable {κ β : Type} [LT κ] [DecidableLT κ] [DecidableEq κ]

/-- Binds `k` to `v`, replacing an earlier binding of `k`. -/
def put (k : κ) (v : β) : List (κ × β) → List (κ × β)
  | [] => [(k, v)]
  | (k', v') :: rest =>
    if k < k' then (k, v) :: (k', v') :: rest
    else if k = k' then (k, v) :: rest
    else (k', v') :: put k v rest

end

theorem mem_insert {α : Type} [LT α] [DecidableLT α] [DecidableEq α] {a b : α} {l : List α} :
    b ∈ insert a l ↔ b = a ∨ b ∈ l := by
  induction l with
  | nil => simp [insert]
  | cons c cs ih =>
    simp only [insert]
    split
    · simp
    · split
      · next h => subst h; simp
      · simp only [List.mem_cons, ih]
        constructor
        · rintro (h | h | h)
          · exact Or.inr (Or.inl h)
          · exact Or.inl h
          · exact Or.inr (Or.inr h)
        · rintro (h | h | h)
          · exact Or.inr (Or.inl h)
          · exact Or.inl h
          · exact Or.inr (Or.inr h)

end Winnow.Sorted
