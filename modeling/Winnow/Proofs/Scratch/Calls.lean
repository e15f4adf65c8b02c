/-
  Histories of calls on a scratch map.

  * `Call` are the three calls on a map, with their arguments, and `after` is the map that
    calls leave;
  * `Call.Writes` says what a call writes into its cell, given what the cell holds, and `Left`
    what a history leaves in a cell: what the last call that wrote it left there;
  * `Call.perform_cases` says all that one call can do to a map.  The cells after a history
    (`left_iff`) follow from it by induction;
  * `tallied` makes an initializer count, so that it can be told how often it runs.
-/
import Mathlib.Data.List.Induction
import Mathlib.Logic.ExistsUnique
import Winnow.Proofs.Scratch

namespace Winnow.Scratch

variable {τ : Type} {El : τ → Type}

/-! ## Calls -/

/-- What a key is bound to: nothing, or a value and its type. -/
abbrev Cell (El : τ → Type) : Type :=
  Option ((t : τ) × El t)

def cell (s : Scratch El) (key : String) : Cell El :=
  s.cells.lookup key

/-- The cell has no value of type `t`. -/
inductive Lacks (t : τ) : Cell El → Prop
  | absent : Lacks t none
  | other {u : τ} (h : u ≠ t) (v : El u) : Lacks t (some ⟨u, v⟩)

/-- A call on a scratch map, with what it is given. -/
inductive Call (El : τ → Type) : Type 1 where
  | get (t : τ) (key : String)
  | getOrInit {ε : Type} (t : τ) (key : String) (init : Unit → Except ε (El t))
  | update {ρ : Type} (t : τ) (key : String) (zero : El t) (f : El t → ρ × El t)

namespace Call

def key : Call El → String
  | get _ key | getOrInit _ key _ | update _ key _ _ => key

/-- The type at which the call uses its key. -/
def type : Call El → τ
  | get t _ | getOrInit t _ _ | update t _ _ _ => t

/-- What the call returns. -/
def Answer : Call El → Type
  | get t _ => Option (El t)
  | @getOrInit _ _ ε t _ _ => Except ε (El t)
  | @update _ _ ρ _ _ _ _ => ρ

def perform [DecidableEq τ] (s : Scratch El) : (c : Call El) → c.Answer × Scratch El
  | get t key => (s.get? t key, s)
  | getOrInit t key init => s.getOrInit t key init
  | update t key zero f => s.update t key zero f

/-- The call writes a value into its cell, which holds `cell` before. -/
inductive Writes : Call El → Cell El → (t : τ) × El t → Prop
  | init {ε : Type} {t : τ} {key : String} {init : Unit → Except ε (El t)} {cell : Cell El}
      {v : El t} (hlacks : Lacks t cell) (hok : init () = .ok v) :
      Writes (getOrInit t key init) cell ⟨t, v⟩
  | update {ρ : Type} {t : τ} {key : String} {zero : El t} {f : El t → ρ × El t} (v : El t) :
      Writes (update t key zero f) (some ⟨t, v⟩) ⟨t, (f v).2⟩
  | updateZero {ρ : Type} {t : τ} {key : String} {zero : El t} {f : El t → ρ × El t}
      {cell : Cell El} (hlacks : Lacks t cell) :
      Writes (update t key zero f) cell ⟨t, (f zero).2⟩

end Call

/-- The map after calls, one after the other, on an empty one. -/
def after [DecidableEq τ] (calls : List (Call El)) : Scratch El :=
  calls.foldl (fun s c => (c.perform s).2) {}

/-- What the last of the calls that wrote the key left in its cell. -/
inductive Left (key : String) : List (Call El) → Cell El → Prop
  | start : Left key [] none
  | written {calls : List (Call El)} {c : Call El} {cell : Cell El} {x : (t : τ) × El t}
      (h : Left key calls cell) (hkey : c.key = key) (hwrites : c.Writes cell x) :
      Left key (calls ++ [c]) (some x)
  | kept {calls : List (Call El)} {c : Call El} {cell : Cell El} (h : Left key calls cell)
      (hno : c.key = key → ∀ x, ¬ c.Writes cell x) : Left key (calls ++ [c]) cell

/-! ## Cells -/

variable {s s' : Scratch El} {t : τ} {key key' : String} {v : El t} {x : (t : τ) × El t}
  {cell : Cell El} {c d : Call El} {calls before later : List (Call El)}

theorem not_lacks_of_cell_eq (h : cell = some ⟨t, v⟩) : ¬ Lacks t cell := by
  subst h
  rintro (_ | ⟨hne, _⟩)
  exact hne rfl

theorem cell_cases (t : τ) (cell : Cell El) : (∃ v, cell = some ⟨t, v⟩) ∨ Lacks t cell := by
  rcases cell with _ | ⟨u, v⟩
  · exact Or.inr .absent
  · by_cases h : u = t
    · subst h
      exact Or.inl ⟨v, rfl⟩
    · exact Or.inr (.other h v)

/-- A call writes one value. -/
theorem Call.Writes.unique {y : (t : τ) × El t} (h : c.Writes cell x) (h' : c.Writes cell y) :
    x = y := by
  cases h with
  | init hlacks hok =>
    cases h' with
    | init _ hok' => rw [Except.ok.inj (hok.symm.trans hok')]
  | update v =>
    cases h' with
    | update => rfl
    | updateZero hlacks => exact absurd hlacks (not_lacks_of_cell_eq rfl)
  | updateZero hlacks =>
    cases h' with
    | update v => exact absurd hlacks (not_lacks_of_cell_eq rfl)
    | updateZero => rfl

theorem Call.Writes.type_eq (h : c.Writes cell x) : x.1 = c.type := by
  cases h <;> rfl

theorem exists_left (key : String) (calls : List (Call El)) : ∃ cell, Left key calls cell := by
  induction calls using List.reverseRecOn with
  | nil => exact ⟨none, .start⟩
  | append_singleton calls c ih =>
    obtain ⟨cell, h⟩ := ih
    by_cases hw : c.key = key ∧ ∃ x, c.Writes cell x
    · obtain ⟨hkey, x, hx⟩ := hw
      exact ⟨some x, h.written hkey hx⟩
    · exact ⟨cell, h.kept fun hkey x hx => hw ⟨hkey, x, hx⟩⟩

theorem cell_set_self : (s.set t key v).cell key = some ⟨t, v⟩ :=
  Sorted.lookup_put_self

theorem cell_set_of_ne (h : key' ≠ key) : (s.set t key v).cell key' = s.cell key' :=
  Sorted.lookup_put_of_ne h

variable [DecidableEq τ]

theorem get?_of_cell_eq (h : s.cell key = some ⟨t, v⟩) : s.get? t key = some v := by
  have hlookup : s.cells.lookup key = some ⟨t, v⟩ := h
  simp [get?, hlookup, read?]

theorem get?_of_lacks (h : Lacks t (s.cell key)) : s.get? t key = none := by
  have hread : ∀ cell : Cell El, Lacks t cell → cell.bind (read? t) = none := by
    rintro _ (_ | ⟨hne, v⟩)
    · rfl
    · simp [read?, hne]
  exact hread _ h

theorem get?_congr (h : s.cell key = s'.cell key) (t : τ) : s.get? t key = s'.get? t key :=
  congrArg (·.bind (read? t)) h

/-! ## One call -/

section
variable {ρ : Type} {zero : El t} {f : El t → ρ × El t}

theorem update_of_cell_eq (h : s.cell key = some ⟨t, v⟩) :
    s.update t key zero f = ((f v).1, s.set t key (f v).2) := by
  rw [update, get?_of_cell_eq h, Option.getD_some]

theorem update_of_lacks (h : Lacks t (s.cell key)) :
    s.update t key zero f = ((f zero).1, s.set t key (f zero).2) := by
  rw [update, get?_of_lacks h, Option.getD_none]

end

namespace Call

/-- **What one call does to a map**: it writes its cell, or it leaves the map as it is. -/
theorem perform_cases (c : Call El) (s : Scratch El) :
    (∃ x, c.Writes (s.cell c.key) x ∧ (c.perform s).2 = s.set x.1 c.key x.2) ∨
      (∀ x, ¬ c.Writes (s.cell c.key) x) ∧ (c.perform s).2 = s := by
  cases c with
  | get t key => exact Or.inr ⟨fun x h => (by cases h), rfl⟩
  | getOrInit t key init =>
    show (∃ x, Writes _ (s.cell key) x ∧ (s.getOrInit t key init).2 = s.set x.1 key x.2) ∨
      (∀ x, ¬ Writes _ (s.cell key) x) ∧ (s.getOrInit t key init).2 = s
    rcases cell_cases t (s.cell key) with ⟨v, hv⟩ | hlacks
    · rw [getOrInit_of_some (get?_of_cell_eq hv)]
      refine Or.inr ⟨?_, rfl⟩
      rintro _ (⟨hlacks, -⟩ | _ | _)
      exact not_lacks_of_cell_eq hv hlacks
    · cases hinit : init () with
      | ok v =>
        rw [getOrInit_of_ok (get?_of_lacks hlacks) hinit]
        exact Or.inl ⟨⟨t, v⟩, .init hlacks hinit, rfl⟩
      | error e =>
        rw [getOrInit_of_error (get?_of_lacks hlacks) hinit]
        refine Or.inr ⟨?_, rfl⟩
        rintro _ (⟨-, hok⟩ | _ | _)
        rw [hinit] at hok; cases hok
  | update t key zero f =>
    refine Or.inl ?_
    show ∃ x, Writes _ (s.cell key) x ∧ (s.update t key zero f).2 = s.set x.1 key x.2
    rcases cell_cases t (s.cell key) with ⟨v, hv⟩ | hlacks
    · rw [update_of_cell_eq hv, hv]
      exact ⟨_, .update v, rfl⟩
    · rw [update_of_lacks hlacks]
      exact ⟨_, .updateZero hlacks, rfl⟩

theorem cell_perform_of_writes (h : c.Writes (s.cell c.key) x) :
    (c.perform s).2.cell c.key = some x := by
  rcases c.perform_cases s with ⟨y, hy, heq⟩ | ⟨hno, -⟩
  · rw [heq, cell_set_self, h.unique hy]
  · exact absurd h (hno x)

theorem cell_perform_of_not_writes (h : c.key = key → ∀ x, ¬ c.Writes (s.cell key) x) :
    (c.perform s).2.cell key = s.cell key := by
  rcases c.perform_cases s with ⟨x, hx, heq⟩ | ⟨-, heq⟩
  · have hne : key ≠ c.key := by rintro rfl; exact h rfl x hx
    rw [heq, cell_set_of_ne hne]
  · rw [heq]

theorem cell_perform_of_ne (h : key ≠ c.key) : (c.perform s).2.cell key = s.cell key :=
  cell_perform_of_not_writes fun hkey => absurd hkey.symm h

/-- A call looks at its own cell only. -/
theorem answer_congr (h : s.cell c.key = s'.cell c.key) : (c.perform s).1 = (c.perform s').1 := by
  have hget := get?_congr h
  cases c with
  | get t key => exact hget t
  | getOrInit t key init =>
    have hget : s.get? t key = s'.get? t key := hget t
    show (s.getOrInit t key init).1 = (s'.getOrInit t key init).1
    cases hv : s'.get? t key with
    | some v => rw [getOrInit_of_some hv, getOrInit_of_some (hget.trans hv)]
    | none =>
      cases hinit : init () with
      | ok v => rw [getOrInit_of_ok hv hinit, getOrInit_of_ok (hget.trans hv) hinit]
      | error e => rw [getOrInit_of_error hv hinit, getOrInit_of_error (hget.trans hv) hinit]
  | update t key zero f =>
    show (s.update t key zero f).1 = (s'.update t key zero f).1
    rw [Scratch.update, Scratch.update, show s.get? t key = s'.get? t key from hget t]

theorem cell_perform_congr (c : Call El) (h : s.cell key = s'.cell key) :
    (c.perform s).2.cell key = (c.perform s').2.cell key := by
  by_cases hw : c.key = key ∧ ∃ x, c.Writes (s.cell key) x
  · obtain ⟨rfl, x, hx⟩ := hw
    rw [cell_perform_of_writes hx, cell_perform_of_writes (h ▸ hx)]
  · have hno : c.key = key → ∀ x, ¬ c.Writes (s.cell key) x := fun hkey x hx => hw ⟨hkey, x, hx⟩
    rw [cell_perform_of_not_writes hno, cell_perform_of_not_writes (h ▸ hno), h]

end Call

/-! ## Histories -/

theorem after_concat (calls : List (Call El)) (c : Call El) :
    after (calls ++ [c]) = (c.perform (after calls)).2 := by
  simp [after]

/-- Calls on another key make no difference to a cell. -/
theorem cell_after_skip (h : key ≠ c.key) :
    (after (before ++ c :: later)).cell key = (after (before ++ later)).cell key := by
  induction later using List.reverseRecOn with
  | nil => rw [after_concat, List.append_nil, Call.cell_perform_of_ne h]
  | append_singleton later d ih =>
    rw [← List.cons_append, ← List.append_assoc, ← List.append_assoc, after_concat, after_concat]
    exact d.cell_perform_congr ih

theorem Left.cell_after (h : Left key calls cell) : (after calls).cell key = cell := by
  induction h with
  | start => rfl
  | written h hkey hwrites ih =>
    subst hkey ih
    rw [after_concat, Call.cell_perform_of_writes hwrites]
  | kept h hno ih =>
    subst ih
    rw [after_concat, Call.cell_perform_of_not_writes hno]

/-- **A cell holds what was last written.** -/
theorem left_iff : Left key calls cell ↔ (after calls).cell key = cell := by
  refine ⟨Left.cell_after, ?_⟩
  rintro rfl
  obtain ⟨cell, h⟩ := exists_left key calls
  rwa [h.cell_after]

/-! ## Counting -/

section
variable {ε : Type} {init : Unit → Except ε (El t)}

/-- The initializer, with a counter to which it adds the weight of its result. -/
def tallied {ε α : Type} (weight : Except ε α → Nat) (init : Unit → Except ε α) :
    Unit → StateM Nat (Except ε α) := fun _ => do
  let result := init ()
  modify (· + weight result)
  return result

theorem run_getOrInitM_of_cell_eq (weight : Except ε (El t) → Nat)
    (h : s.cell key = some ⟨t, v⟩) (n : Nat) :
    (s.getOrInitM t key (tallied weight init)).run n = (s.getOrInit t key init, n) := by
  rw [getOrInit_of_some (get?_of_cell_eq h), getOrInitM, get?_of_cell_eq h]; rfl

theorem run_getOrInitM_of_lacks (weight : Except ε (El t) → Nat) (h : Lacks t (s.cell key))
    (n : Nat) :
    (s.getOrInitM t key (tallied weight init)).run n =
      (s.getOrInit t key init, n + weight (init ())) := by
  cases hinit : init () with
  | ok v =>
    rw [getOrInit_of_ok (get?_of_lacks h) hinit, getOrInitM, get?_of_lacks h, tallied, hinit]; rfl
  | error e =>
    rw [getOrInit_of_error (get?_of_lacks h) hinit, getOrInitM, get?_of_lacks h, tallied, hinit]
    rfl

/-- How often a call runs its initializer. -/
def timesRun (s : Scratch El) (t : τ) (key : String) (init : Unit → Except ε (El t)) : Nat :=
  ((s.getOrInitM t key (tallied (fun _ => 1) init)).run 0).2

end

/-- Performs a call.  An initializer of the key that runs and succeeds adds one to a counter. -/
def Call.performCounting (key : String) (s : Scratch El) : Call El → StateM Nat (Scratch El)
  | .getOrInit t key' init => do
    let weight result := if key' = key ∧ result.isOk then 1 else 0
    return (← s.getOrInitM t key' (tallied weight init)).2
  | c => return (c.perform s).2

/-- How often initializers of the key succeed in calls on the map. -/
def successes (s : Scratch El) (key : String) (calls : List (Call El)) : Nat :=
  ((calls.foldlM (Call.performCounting key) s).run 0).2

/-- Counting changes nothing else, and one is added only if the key gets a value that it lacked. -/
theorem Call.run_performCounting (c : Call El) (key : String) (s : Scratch El) (n : Nat) :
    ∃ k ≤ 1, (c.performCounting key s).run n = ((c.perform s).2, n + k) ∧
      (k = 1 → c.key = key ∧ Lacks c.type (s.cell key) ∧ ∃ x, c.Writes (s.cell key) x) := by
  cases c with
  | get t key' => exact ⟨0, by omega, rfl, fun h => by omega⟩
  | update t key' zero f => exact ⟨0, by omega, rfl, fun h => by omega⟩
  | getOrInit t key' init =>
    rcases cell_cases t (s.cell key') with ⟨v, hv⟩ | hlacks
    · refine ⟨0, by omega, ?_, fun h => by omega⟩
      rw [performCounting, StateT.run_bind, run_getOrInitM_of_cell_eq _ hv]
      rfl
    · refine ⟨if key' = key ∧ (init ()).isOk then 1 else 0, by split <;> omega, ?_, fun h => ?_⟩
      · rw [performCounting, StateT.run_bind, run_getOrInitM_of_lacks _ hlacks]
        rfl
      · obtain ⟨rfl, hok⟩ : key' = key ∧ (init ()).isOk := by
          by_contra hno
          rw [if_neg hno] at h
          omega
        refine ⟨rfl, hlacks, ?_⟩
        cases hinit : init () with
        | ok v => exact ⟨⟨t, v⟩, .init hlacks hinit⟩
        | error e => rw [hinit] at hok; cases hok

/-- Invariant of counting, for a key that is used at one type: it is counted once at most, and
    then has a value. -/
def Counted (t : τ) (key : String) (s : Scratch El) (n : Nat) : Prop :=
  n = 0 ∨ n = 1 ∧ ∃ v : El t, s.cell key = some ⟨t, v⟩

theorem Counted.perform {n : Nat} (h : Counted t key s n) (htype : c.key = key → c.type = t) :
    ∃ n', (c.performCounting key s).run n = ((c.perform s).2, n') ∧
      Counted t key (c.perform s).2 n' := by
  obtain ⟨k, hk, hrun, hcounted⟩ := c.run_performCounting key s n
  refine ⟨n + k, hrun, ?_⟩
  have hwritten : (c.key = key ∧ ∃ x, c.Writes (s.cell key) x) →
      ∃ v : El t, (c.perform s).2.cell key = some ⟨t, v⟩ := by
    rintro ⟨rfl, x, hx⟩
    obtain rfl : x.1 = t := hx.type_eq.trans (htype rfl)
    exact ⟨x.2, Call.cell_perform_of_writes hx⟩
  rcases h with rfl | ⟨rfl, v, hv⟩
  · by_cases hone : k = 1
    · obtain ⟨hkey, -, hx⟩ := hcounted hone
      exact Or.inr ⟨by omega, hwritten ⟨hkey, hx⟩⟩
    · exact Or.inl (by omega)
  · -- the key has a value, so that its initializer does not run
    have hzero : k ≠ 1 := by
      intro hone
      obtain ⟨hkey, hlacks, -⟩ := hcounted hone
      rw [htype hkey] at hlacks
      exact not_lacks_of_cell_eq hv hlacks
    refine Or.inr ⟨by omega, ?_⟩
    by_cases hw : c.key = key ∧ ∃ x, c.Writes (s.cell key) x
    · exact hwritten hw
    · refine ⟨v, Eq.trans (Call.cell_perform_of_not_writes fun hkey x hx => ?_) hv⟩
      exact hw ⟨hkey, x, hx⟩

theorem Counted.performAll {n : Nat} (h : Counted t key s n)
    (htype : ∀ c ∈ calls, c.key = key → c.type = t) :
    ∃ s' n', (calls.foldlM (Call.performCounting key) s).run n = (s', n') ∧
      Counted t key s' n' := by
  induction calls generalizing s n with
  | nil => exact ⟨s, n, rfl, h⟩
  | cons c calls ih =>
    obtain ⟨hc, hcalls⟩ := List.forall_mem_cons.1 htype
    obtain ⟨n', hrun, hn'⟩ := h.perform hc
    rw [List.foldlM_cons, StateT.run_bind, hrun]
    exact ih hn' hcalls

theorem successes_le_one (htype : ∀ c ∈ calls, c.key = key → c.type = t) :
    s.successes key calls ≤ 1 := by
  have hstart : Counted t key s 0 := Or.inl rfl
  obtain ⟨s', n', hrun, hn'⟩ := hstart.performAll htype
  rw [successes, hrun]
  rcases hn' with rfl | ⟨rfl, -⟩
  · exact Nat.zero_le 1
  · exact Nat.le_refl 1

/-- **The cells of a scratch map are independent of each other.**  After any calls on a map
    that was empty:

    * what a call answers would be the same without any one of the calls on other keys;
    * the cell of a key holds what the last call that wrote the key left there.  At the type of
      that value, it is what `get?` reads, `getOrInit` returns it, does not run its initializer
      and leaves the map as it is, and `update` starts from it;
    * at other types, and if no call wrote the key, `get?` reads nothing, `getOrInit` runs its
      initializer once and returns what this gives, which it stores, or leaves the map as it is
      if it is an error, and `update` starts from the default.

    Hence while a key is used at one type only, its initializer succeeds at most once. -/
theorem cells_independent (calls : List (Call El)) :
    (∀ before c later, calls = before ++ c :: later → ∀ d : Call El, d.key ≠ c.key →
      (d.perform (after calls)).1 = (d.perform (after (before ++ later))).1) ∧
    (∀ key, ∃! cell, Left key calls cell) ∧
    (∀ key cell t, Left key calls cell →
      (∀ v, cell = some ⟨t, v⟩ →
        (after calls).get? t key = some v ∧
        (∀ (ε : Type) (init : Unit → Except ε (El t)),
          (after calls).timesRun t key init = 0 ∧
          (after calls).getOrInit t key init = (.ok v, after calls)) ∧
        ∀ (ρ : Type) (zero : El t) (f : El t → ρ × El t),
          ((after calls).update t key zero f).1 = (f v).1 ∧
          ((after calls).update t key zero f).2.cell key = some ⟨t, (f v).2⟩) ∧
      (Lacks t cell →
        (after calls).get? t key = none ∧
        (∀ (ε : Type) (init : Unit → Except ε (El t)),
          (after calls).timesRun t key init = 1 ∧
          ((after calls).getOrInit t key init).1 = init () ∧
          (∀ v, init () = .ok v →
            ((after calls).getOrInit t key init).2.cell key = some ⟨t, v⟩) ∧
          ∀ e, init () = .error e → ((after calls).getOrInit t key init).2 = after calls) ∧
        ∀ (ρ : Type) (zero : El t) (f : El t → ρ × El t),
          ((after calls).update t key zero f).1 = (f zero).1 ∧
          ((after calls).update t key zero f).2.cell key = some ⟨t, (f zero).2⟩)) ∧
    ∀ key t more, (∀ c ∈ more, c.key = key → c.type = t) →
      (after calls).successes key more ≤ 1 := by
  refine ⟨?_, fun key => ?_, fun key cell t h => ?_, fun key t more => successes_le_one⟩
  · rintro before c later rfl d hne
    exact Call.answer_congr (cell_after_skip hne)
  · exact ⟨_, left_iff.2 rfl, fun cell h => h.cell_after.symm⟩
  · obtain rfl := h.cell_after
    refine ⟨fun v hv => ?_, fun hlacks => ?_⟩
    · have hget := get?_of_cell_eq hv
      refine ⟨hget, fun ε init => ⟨?_, getOrInit_of_some hget⟩, fun ρ zero f => ?_⟩
      · rw [timesRun, run_getOrInitM_of_cell_eq _ hv]
      · rw [update_of_cell_eq hv]
        exact ⟨rfl, cell_set_self⟩
    · have hget := get?_of_lacks hlacks
      refine ⟨hget, fun ε init => ⟨?_, ?_⟩, fun ρ zero f => ?_⟩
      · rw [timesRun, run_getOrInitM_of_lacks _ hlacks]
      · cases hinit : init () with
        | ok v =>
          rw [getOrInit_of_ok hget hinit]
          refine ⟨rfl, ?_, fun e he => (by cases he)⟩
          rintro _ ⟨⟩
          exact cell_set_self
        | error e =>
          rw [getOrInit_of_error hget hinit]
          exact ⟨rfl, fun v hv => (by cases hv), fun _ _ => rfl⟩
      · rw [update_of_lacks hlacks]
        exact ⟨rfl, cell_set_self⟩

/-- An error is not kept, a value is. -/
example : ({} : ClassScratch).successes "a" ([.getOrInit .number "a" fun _ => .error "broken",
    .getOrInit .number "a" fun _ => (.ok 1 : Except String Nat),
    .getOrInit .number "a" fun _ => (.ok 2 : Except String Nat)] :
      List (Call CellType.Value)) = 1 := by
  decide

end Winnow.Scratch
