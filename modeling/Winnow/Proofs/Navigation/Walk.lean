/-
  Walks over the real instructions of a method.

  * `Method.instructions` are the positions that hold no pseudo entry.  The searches give the
    least of them from a position on and the greatest of them before one;
  * `iterate_eq_getElem?`: the walk that starts with the first element of a sorted list and goes
    on to the first one behind lists it.  Sorted by `<` or by `>`, the lists of both directions
    are instances;
  * `navigation_coherent`: the steps forwards list the instructions, and the steps backwards
    list them in reverse.
-/
import Mathlib.Logic.Function.Iterate
import Mathlib.Order.Bounds.Basic
import Winnow.Proofs.Navigation

namespace Winnow

/-- The entry is no instruction: it places a label, tells a line or describes the stack. -/
def Entry.IsPseudo : Entry → Prop
  | .label _ | .line _ _ | .frame => True
  | _ => False

theorem Entry.isPseudo_iff {e : Entry} : e.IsPseudo ↔ e.opcode? = none := by
  cases e <;> simp [IsPseudo, opcode?]

/-! ## Walks along a sorted list -/

section
variable {α : Type} {r : α → α → Prop} {ps : List α}

/-- `start` is the first element of the list. -/
def Begins (r : α → α → Prop) (ps : List α) (start : Option α) : Prop :=
  ∀ q, start = some q ↔ q ∈ ps ∧ ∀ x ∈ ps, ¬ r x q

/-- `step` leads from an element of the list to the first one behind it. -/
def Advances (r : α → α → Prop) (ps : List α) (step : α → Option α) : Prop :=
  ∀ p ∈ ps, ∀ q, step p = some q ↔ q ∈ ps ∧ r p q ∧ ∀ x ∈ ps, r p x → ¬ r x q

section
variable {p : α} {start : Option α} {step : α → Option α} (hr : ∀ a b, r a b → ¬ r b a)
include hr

theorem Begins.eq_some (h : Begins r (p :: ps) start) (hp : ∀ q ∈ ps, r p q) : start = some p := by
  refine (h p).2 ⟨List.mem_cons_self, List.forall_mem_cons.2 ⟨fun hpp => hr _ _ hpp hpp, ?_⟩⟩
  exact fun x hx => hr _ _ (hp x hx)

/-- The step from the first element begins the rest. -/
theorem Advances.begins (h : Advances r (p :: ps) step) (hp : ∀ q ∈ ps, r p q) :
    Begins r ps (step p) := by
  have hpp : ¬ r p p := fun hpp => hr _ _ hpp hpp
  intro q
  rw [h p List.mem_cons_self]
  constructor
  · rintro ⟨hq, hpq, hno⟩
    have hne : q ≠ p := by rintro rfl; exact hpp hpq
    exact ⟨(List.mem_cons.1 hq).resolve_left hne,
      fun x hx => hno x (List.mem_cons_of_mem _ hx) (hp x hx)⟩
  · rintro ⟨hq, hno⟩
    refine ⟨List.mem_cons_of_mem _ hq, hp q hq, List.forall_mem_cons.2 ⟨fun h => absurd h hpp, ?_⟩⟩
    exact fun x hx _ => hno x hx

theorem Advances.tail (h : Advances r (p :: ps) step) (hp : ∀ q ∈ ps, r p q) :
    Advances r ps step := by
  intro p' hp' q
  have hback : ¬ r p' p := hr _ _ (hp p' hp')
  rw [h p' (List.mem_cons_of_mem _ hp')]
  constructor
  · rintro ⟨hq, hpq, hno⟩
    have hne : q ≠ p := by rintro rfl; exact hback hpq
    exact ⟨(List.mem_cons.1 hq).resolve_left hne, hpq,
      fun x hx => hno x (List.mem_cons_of_mem _ hx)⟩
  · rintro ⟨hq, hpq, hno⟩
    exact ⟨List.mem_cons_of_mem _ hq, hpq,
      List.forall_mem_cons.2 ⟨fun h => absurd h hback, hno⟩⟩

/-- **A walk from the first element, always to the next one, lists a sorted list.** -/
theorem iterate_eq_getElem? (hs : ps.Pairwise r) (hstart : Begins r ps start)
    (hstep : Advances r ps step) (n : Nat) : (Option.bind · step)^[n] start = ps[n]? := by
  induction ps generalizing start n with
  | nil =>
    have hnone : start = none := Option.eq_none_iff_forall_ne_some.2 fun q hq =>
      List.not_mem_nil ((hstart q).1 hq).1
    rw [hnone]
    exact Function.iterate_fixed rfl n
  | cons p ps ih =>
    obtain ⟨hp, hs⟩ := List.pairwise_cons.1 hs
    rw [hstart.eq_some hr hp]
    cases n with
    | zero => rfl
    | succ n =>
      rw [Function.iterate_succ_apply, List.getElem?_cons_succ]
      exact ih hs (hstep.begins hr hp) (hstep.tail hr hp) n

end

end

/-! ## Instructions -/

namespace Method

variable {m : Method} {p q r : Nat}

/-- The positions that hold real instructions. -/
def instructions (m : Method) : Set Nat :=
  {p | ∃ e, m.code[p]? = some e ∧ ¬ e.IsPseudo}

theorem mem_instructions : p ∈ m.instructions ↔ m.isReal p := by
  rw [isReal_iff]
  refine exists_congr fun e => ?_
  rw [Entry.isPseudo_iff, ← ne_eq, Option.ne_none_iff_exists', exists_and_left]

theorem realFrom?_eq_some_iff_isLeast :
    m.realFrom? r = some p ↔ IsLeast {q ∈ m.instructions | r ≤ q} p := by
  rw [realFrom?_eq_some_iff]
  constructor
  · rintro ⟨hle, hp, hno⟩
    refine ⟨⟨mem_instructions.2 hp, hle⟩, fun q ⟨hq, hrq⟩ => ?_⟩
    exact Nat.not_lt.1 fun hlt => hno q hrq hlt (mem_instructions.1 hq)
  · rintro ⟨⟨hp, hle⟩, hleast⟩
    refine ⟨hle, mem_instructions.1 hp, fun q hrq hlt hq => ?_⟩
    exact absurd (hleast ⟨mem_instructions.2 hq, hrq⟩) (Nat.not_le.2 hlt)

theorem realBefore?_eq_some_iff_isGreatest :
    m.realBefore? r = some p ↔ IsGreatest {q ∈ m.instructions | q < r} p := by
  rw [realBefore?_eq_some_iff]
  constructor
  · rintro ⟨hlt, hp, hno⟩
    refine ⟨⟨mem_instructions.2 hp, hlt⟩, fun q ⟨hq, hqr⟩ => ?_⟩
    exact Nat.not_lt.1 fun hpq => hno q hpq hqr (mem_instructions.1 hq)
  · rintro ⟨⟨hp, hlt⟩, hgreatest⟩
    refine ⟨hlt, mem_instructions.1 hp, fun q hpq hqr hq => ?_⟩
    exact absurd (hgreatest ⟨mem_instructions.2 hq, hqr⟩) (Nat.not_le.2 hpq)

theorem realFrom?_eq_none_iff : m.realFrom? r = none ↔ ∀ p ∈ m.instructions, p < r := by
  constructor
  · intro h p hp
    have hreal := mem_instructions.1 hp
    have hsize := lt_size_of_isReal hreal
    exact Nat.not_le.1 fun hle => firstWhere_eq_none h p hle (by omega) hreal
  · refine fun h => Option.eq_none_iff_forall_ne_some.2 fun p hp => ?_
    obtain ⟨⟨hmem, hle⟩, -⟩ := realFrom?_eq_some_iff_isLeast.1 hp
    exact absurd (h p hmem) (Nat.not_lt.2 hle)

theorem realBefore?_eq_none_iff : m.realBefore? r = none ↔ ∀ p ∈ m.instructions, r ≤ p := by
  constructor
  · intro h p hp
    have hreal := mem_instructions.1 hp
    have hsize := lt_size_of_isReal hreal
    exact Nat.not_lt.1 fun hlt => lastWhere_eq_none h p (by omega) hreal
  · refine fun h => Option.eq_none_iff_forall_ne_some.2 fun p hp => ?_
    obtain ⟨⟨hmem, hlt⟩, -⟩ := realBefore?_eq_some_iff_isGreatest.1 hp
    exact absurd (h p hmem) (Nat.not_le.2 hlt)

/-- Of two instructions, one is the next iff the other is the previous one. -/
theorem realAfter?_eq_some_iff_realBefore? (hp : p ∈ m.instructions) (hq : q ∈ m.instructions) :
    m.realAfter? p = some q ↔ m.realBefore? q = some p := by
  rw [realAfter?_eq_some_iff, realBefore?_eq_some_iff]
  constructor
  · rintro ⟨hlt, -, hno⟩
    exact ⟨hlt, mem_instructions.1 hp, hno⟩
  · rintro ⟨hlt, -, hno⟩
    exact ⟨hlt, mem_instructions.1 hq, hno⟩

/-! ## Both directions -/

theorem mem_reals : p ∈ m.reals ↔ m.isReal p := by
  rw [reals, List.mem_filter, mem_positions]
  exact ⟨And.right, fun h => ⟨lt_size_of_isReal h, h⟩⟩

theorem pairwise_reals (m : Method) : m.reals.Pairwise (· < ·) :=
  List.pairwise_lt_range.filter _

theorem begins_firstReal? (m : Method) : Begins (· < ·) m.reals m.firstReal? := by
  intro q
  rw [firstReal?, realFrom?_eq_some_iff]
  simp only [mem_reals]
  constructor
  · rintro ⟨-, hq, hno⟩
    exact ⟨hq, fun x hx hlt => hno x (Nat.zero_le x) hlt hx⟩
  · rintro ⟨hq, hno⟩
    exact ⟨Nat.zero_le q, hq, fun x _ hlt hx => hno x hx hlt⟩

theorem advances_realAfter? (m : Method) : Advances (· < ·) m.reals m.realAfter? := by
  intro p _ q
  rw [realAfter?_eq_some_iff]
  simp only [mem_reals]
  constructor
  · rintro ⟨hlt, hq, hno⟩
    exact ⟨hq, hlt, fun x hx hpx hxq => hno x hpx hxq hx⟩
  · rintro ⟨hq, hlt, hno⟩
    exact ⟨hlt, hq, fun x hpx hxq hx => hno x hx hpx hxq⟩

theorem begins_lastReal? (m : Method) : Begins (· > ·) m.reals.reverse m.lastReal? := by
  intro q
  rw [lastReal?, realBefore?_eq_some_iff]
  simp only [List.mem_reverse, mem_reals]
  constructor
  · rintro ⟨-, hq, hno⟩
    exact ⟨hq, fun x hx hgt => hno x hgt (lt_size_of_isReal hx) hx⟩
  · rintro ⟨hq, hno⟩
    exact ⟨lt_size_of_isReal hq, hq, fun x hgt _ hx => hno x hx hgt⟩

theorem advances_realBefore? (m : Method) : Advances (· > ·) m.reals.reverse m.realBefore? := by
  intro p _ q
  rw [realBefore?_eq_some_iff]
  simp only [List.mem_reverse, mem_reals]
  constructor
  · rintro ⟨hlt, hq, hno⟩
    exact ⟨hq, hlt, fun x hx hpx hxq => hno x hxq hpx hx⟩
  · rintro ⟨hq, hlt, hno⟩
    exact ⟨hlt, hq, fun x hqx hxp hx => hno x hx hxp hqx⟩

/-- **Navigation is coherent.**

    * The steps forwards from the first instruction list all instructions, each once and in
      order, up to the last one, and the steps backwards from the last list them in reverse;
    * of two instructions, the second is next to the first iff the first is before the second;
    * from every position, behind the end too, the searches give the least instruction from
      there on and the greatest before it, and nothing if there is none. -/
theorem navigation_coherent (m : Method) :
    (∃ ps : List Nat, (∀ p, p ∈ ps ↔ p ∈ m.instructions) ∧ ps.Pairwise (· < ·) ∧
      (∀ n, (Option.bind · m.realAfter?)^[n] m.firstReal? = ps[n]?) ∧
      ps.getLast? = m.lastReal? ∧
      ∀ n, (Option.bind · m.realBefore?)^[n] m.lastReal? = ps.reverse[n]?) ∧
    (∀ p ∈ m.instructions, ∀ q ∈ m.instructions,
      m.realAfter? p = some q ↔ m.realBefore? q = some p) ∧
    ∀ r, (∀ p, m.realFrom? r = some p ↔ IsLeast {q ∈ m.instructions | r ≤ q} p) ∧
      (m.realFrom? r = none ↔ ∀ p ∈ m.instructions, p < r) ∧
      (∀ p, m.realBefore? r = some p ↔ IsGreatest {q ∈ m.instructions | q < r} p) ∧
      (m.realBefore? r = none ↔ ∀ p ∈ m.instructions, r ≤ p) := by
  have hforwards := iterate_eq_getElem? (fun _ _ => Nat.lt_asymm) m.pairwise_reals
    m.begins_firstReal? m.advances_realAfter?
  have hbackwards := iterate_eq_getElem? (fun _ _ => Nat.lt_asymm)
    (List.pairwise_reverse.2 m.pairwise_reals) m.begins_lastReal? m.advances_realBefore?
  refine ⟨⟨m.reals, fun p => mem_reals.trans mem_instructions.symm, m.pairwise_reals, hforwards,
    ?_, hbackwards⟩, fun p hp q hq => realAfter?_eq_some_iff_realBefore? hp hq,
    fun r => ⟨fun p => realFrom?_eq_some_iff_isLeast, realFrom?_eq_none_iff,
      fun p => realBefore?_eq_some_iff_isGreatest, realBefore?_eq_none_iff⟩⟩
  -- the walk backwards starts at the last element of the list
  rw [← List.head?_reverse, List.head?_eq_getElem?]
  exact (hbackwards 0).symm

end Method

end Winnow
