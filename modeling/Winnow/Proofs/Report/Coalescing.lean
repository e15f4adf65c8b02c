/-
  Coalesced ranges.

  * `Range.Covered` says that a position lies in one of several ranges, `Range.Canonical`
    that ranges follow each other with a gap.  Canonical ranges are determined by the
    positions that they cover (`Canonical.unique`);
  * joining the ranges of a sorted list keeps what they cover and gives canonical ranges;
  * hence coalesced ranges are a function of the ignored positions, and `Range.Recut`,
    which says that ranges are reordered, repeated or cut, makes no difference to them.
-/
import Mathlib.Algebra.GroupWithZero.Nat
import Mathlib.Logic.Relation
import Winnow.Proofs.Report.Order

namespace Winnow

namespace Range

variable {r s t : Range} {rs rs' rest : List Range} {pos : Nat}

/-! ## Positions -/

/-- The position lies in the range. -/
def Covers (r : Range) (pos : Nat) : Prop :=
  r.first ≤ pos ∧ pos ≤ r.last

theorem covers_mk {first last pos : Nat} :
    Range.Covers ⟨first, last⟩ pos ↔ first ≤ pos ∧ pos ≤ last :=
  Iff.rfl

instance (r : Range) (pos : Nat) : Decidable (r.Covers pos) :=
  inferInstanceAs (Decidable (_ ∧ _))

/-- The position lies in one of the ranges. -/
def Covered (rs : List Range) (pos : Nat) : Prop :=
  ∃ r ∈ rs, r.Covers pos

@[simp] theorem covered_nil : ¬ Covered [] pos := by
  simp [Covered]

@[simp] theorem covered_cons : Covered (r :: rs) pos ↔ r.Covers pos ∨ Covered rs pos := by
  simp [Covered]

theorem covered_of_perm (h : rs.Perm rs') : Covered rs pos ↔ Covered rs' pos := by
  simp only [Covered, h.mem_iff]

theorem mem_positions : pos ∈ r.positions ↔ r.Covers pos := by
  rw [positions, List.mem_range'_1, Covers]
  omega

theorem mem_flatMap_positions : pos ∈ rs.flatMap positions ↔ Covered rs pos := by
  simp only [List.mem_flatMap, mem_positions, Covered]

/-- The number of positions of the range. -/
def size (r : Range) : Nat :=
  r.last + 1 - r.first

theorem length_positions (r : Range) : r.positions.length = r.size :=
  List.length_range'

/-! ## Canonical ranges -/

/-- The ranges are not reversed and increase, with a position between each and the next. -/
structure Canonical (rs : List Range) : Prop where
  le : ∀ r ∈ rs, r.first ≤ r.last
  apart : rs.Pairwise fun r s => r.last + 2 ≤ s.first

theorem canonical_nil : Canonical [] :=
  ⟨by simp, .nil⟩

theorem canonical_cons :
    Canonical (r :: rs) ↔
      r.first ≤ r.last ∧ (∀ s ∈ rs, r.last + 2 ≤ s.first) ∧ Canonical rs := by
  constructor
  · rintro ⟨hle, hapart⟩
    obtain ⟨hr, hrs⟩ := List.forall_mem_cons.1 hle
    obtain ⟨hnext, hrest⟩ := List.pairwise_cons.1 hapart
    exact ⟨hr, hnext, hrs, hrest⟩
  · rintro ⟨hr, hnext, hrs, hrest⟩
    exact ⟨List.forall_mem_cons.2 ⟨hr, hrs⟩, List.pairwise_cons.2 ⟨hnext, hrest⟩⟩

/-- What follows the first of canonical ranges starts behind a gap. -/
theorem Canonical.gap_le (h : Canonical (r :: rs)) (hpos : Covered rs pos) : r.last + 2 ≤ pos := by
  obtain ⟨s, hs, hfirst, -⟩ := hpos
  have := (canonical_cons.1 h).2.1 s hs
  omega

theorem Canonical.first_le (h : Canonical (r :: rs)) (hpos : Covered (r :: rs) pos) :
    r.first ≤ pos := by
  rcases covered_cons.1 hpos with hpos | hpos
  · exact hpos.1
  · have := (canonical_cons.1 h).1
    have := h.gap_le hpos
    omega

/-- The first of canonical ranges covers its own positions, and the others the rest. -/
theorem Canonical.covered_tail_iff (h : Canonical (r :: rs)) :
    Covered rs pos ↔ Covered (r :: rs) pos ∧ r.last < pos := by
  constructor
  · intro hpos
    have := h.gap_le hpos
    exact ⟨covered_cons.2 (Or.inr hpos), by omega⟩
  · rintro ⟨hpos, hlt⟩
    rcases covered_cons.1 hpos with ⟨-, hle⟩ | hpos
    · omega
    · exact hpos

/-- The first range ends where the covered positions first have a gap. -/
theorem Canonical.last_le (h : Canonical (r :: rs)) (h' : Canonical (s :: rest))
    (hcover : ∀ pos, Covered (r :: rs) pos ↔ Covered (s :: rest) pos) : s.last ≤ r.last := by
  by_contra hlt
  have hr := (canonical_cons.1 h).1
  have hfirst : s.first ≤ r.first :=
    h'.first_le ((hcover _).1 (covered_cons.2 (Or.inl ⟨Nat.le_refl _, hr⟩)))
  have hnext : Covered (r :: rs) (r.last + 1) :=
    (hcover _).2 (covered_cons.2 (Or.inl ⟨by omega, by omega⟩))
  rcases covered_cons.1 hnext with ⟨-, hle⟩ | hpos
  · omega
  · have := h.gap_le hpos
    omega

/-- **Canonical ranges are determined by what they cover.** -/
theorem Canonical.unique (h : Canonical rs) (h' : Canonical rs')
    (hcover : ∀ pos, Covered rs pos ↔ Covered rs' pos) : rs = rs' := by
  induction rs generalizing rs' with
  | nil =>
    cases rs' with
    | nil => rfl
    | cons s ss =>
      have hs := (canonical_cons.1 h').1
      exact absurd ((hcover _).2 (covered_cons.2 (Or.inl ⟨Nat.le_refl s.first, hs⟩))) covered_nil
  | cons r rs ih =>
    have hr := (canonical_cons.1 h).1
    cases rs' with
    | nil =>
      exact absurd ((hcover _).1 (covered_cons.2 (Or.inl ⟨Nat.le_refl r.first, hr⟩))) covered_nil
    | cons s ss =>
      have hs := (canonical_cons.1 h').1
      have hfirst : r.first = s.first := Nat.le_antisymm
        (h.first_le ((hcover _).2 (covered_cons.2 (Or.inl ⟨Nat.le_refl _, hs⟩))))
        (h'.first_le ((hcover _).1 (covered_cons.2 (Or.inl ⟨Nat.le_refl _, hr⟩))))
      have hlast : r.last = s.last :=
        Nat.le_antisymm (h'.last_le h fun pos => (hcover pos).symm) (h.last_le h' hcover)
      have htail : rs = ss := by
        refine ih (canonical_cons.1 h).2.2 (canonical_cons.1 h').2.2 fun pos => ?_
        rw [h.covered_tail_iff, h'.covered_tail_iff, hcover, hlast]
      obtain ⟨first, last⟩ := r
      cases hfirst
      cases hlast
      rw [htail]

/-- The positions of canonical ranges, one range after the other, are in order. -/
theorem Canonical.pairwise_positions (h : Canonical rs) :
    (rs.flatMap positions).Pairwise (· < ·) := by
  refine List.pairwise_flatMap.2 ⟨fun r _ => List.pairwise_lt_range' .., ?_⟩
  refine h.apart.imp fun {r s} hrs p hp q hq => ?_
  have := (mem_positions.1 hp).2
  have := (mem_positions.1 hq).1
  omega

/-! ## Joining sorted ranges -/

/-- The ranges are not reversed and none starts before an earlier one. -/
structure Ascending (rs : List Range) : Prop where
  le : ∀ r ∈ rs, r.first ≤ r.last
  sorted : rs.Pairwise fun r s => r.first ≤ s.first

theorem Ascending.tail (h : Ascending (r :: rest)) : Ascending rest :=
  ⟨fun s hs => h.le s (List.mem_cons_of_mem _ hs), (List.pairwise_cons.1 h.sorted).2⟩

/-- A range that is extended by the one behind it still comes first. -/
theorem Ascending.extend (h : Ascending (r :: s :: rest)) :
    Ascending (⟨r.first, max r.last s.last⟩ :: rest) := by
  obtain ⟨hfirst, hrest⟩ := List.pairwise_cons.1 h.sorted
  have hr : r.first ≤ r.last := h.le r List.mem_cons_self
  constructor
  · exact List.forall_mem_cons.2 ⟨Nat.le_trans hr (Nat.le_max_left ..), h.tail.tail.le⟩
  · exact List.pairwise_cons.2
      ⟨fun t ht => hfirst t (List.mem_cons_of_mem _ ht), h.tail.tail.sorted⟩

theorem covered_absorb (h : Ascending (r :: rest)) :
    Covered (absorb r rest) pos ↔ Covered (r :: rest) pos := by
  induction rest generalizing r with
  | nil => rfl
  | cons s rest ih =>
    rw [absorb]
    split
    · next htouch =>
      have hr : r.first ≤ r.last := h.le r List.mem_cons_self
      have hs : s.first ≤ s.last := h.tail.le s List.mem_cons_self
      have hrs : r.first ≤ s.first := (List.pairwise_cons.1 h.sorted).1 s List.mem_cons_self
      have hjoin : Range.Covers ⟨r.first, max r.last s.last⟩ pos ↔ r.Covers pos ∨ s.Covers pos := by
        simp only [Covers]
        omega
      rw [ih h.extend, covered_cons, covered_cons, covered_cons, hjoin, or_assoc]
    · rw [covered_cons, covered_cons, ih h.tail]

theorem first_le_of_mem_absorb (h : Ascending (r :: rest)) (ht : t ∈ absorb r rest) :
    r.first ≤ t.first := by
  induction rest generalizing r with
  | nil => rw [List.mem_singleton.1 ht]
  | cons s rest ih =>
    rw [absorb] at ht
    split at ht
    · exact ih (r := ⟨r.first, max r.last s.last⟩) h.extend ht
    · rcases List.mem_cons.1 ht with rfl | ht
      · exact Nat.le_refl _
      · have hrs : r.first ≤ s.first := (List.pairwise_cons.1 h.sorted).1 s List.mem_cons_self
        exact Nat.le_trans hrs (ih h.tail ht)

theorem canonical_absorb (h : Ascending (r :: rest)) : Canonical (absorb r rest) := by
  induction rest generalizing r with
  | nil => exact canonical_cons.2 ⟨h.le r List.mem_cons_self, by simp, canonical_nil⟩
  | cons s rest ih =>
    rw [absorb]
    split
    · exact ih h.extend
    · next hgap =>
      refine canonical_cons.2 ⟨h.le r List.mem_cons_self, fun t ht => ?_, ih h.tail⟩
      have := first_le_of_mem_absorb h.tail ht
      omega

/-! ## Joining ranges -/

theorem ascending_sort (h : ∀ r ∈ rs, r.first ≤ r.last) : Ascending (sort rs) := by
  refine ⟨fun r hr => h r ((perm_sort rs).mem_iff.1 hr), (pairwise_sort rs).imp fun hle => ?_⟩
  simp only [le, Bool.or_eq_true, Bool.and_eq_true, decide_eq_true_eq, beq_iff_eq] at hle
  omega

theorem canonical_joinSorted (h : Ascending rs) : Canonical (joinSorted rs) := by
  cases rs with
  | nil => exact canonical_nil
  | cons r rs => exact canonical_absorb h

theorem covered_joinSorted (h : Ascending rs) : Covered (joinSorted rs) pos ↔ Covered rs pos := by
  cases rs with
  | nil => rfl
  | cons r rs => exact covered_absorb h

/-- The ranges are not reversed and end before the last position. -/
def Bounded (rs : List Range) : Prop :=
  ∀ r ∈ rs, r.first ≤ r.last ∧ r.last < lastPosition

instance (rs : List Range) : Decidable (Bounded rs) :=
  inferInstanceAs (Decidable (∀ r ∈ rs, _))

/-- Whether ranges are bounded can be told from what they cover, if none is reversed. -/
theorem bounded_of_covered (hle : ∀ r ∈ rs', r.first ≤ r.last) (h : Bounded rs)
    (hcover : ∀ pos, Covered rs' pos → Covered rs pos) : Bounded rs' := by
  intro r hr
  obtain ⟨s, hs, -, hlast⟩ := hcover r.last ⟨r, hr, hle r hr, Nat.le_refl _⟩
  exact ⟨hle r hr, Nat.lt_of_le_of_lt hlast (h s hs).2⟩

/-! ## Cutting ranges -/

/-- The ranges are put in another order, one of them is repeated, or one is cut in two. -/
inductive Recut : List Range → List Range → Prop
  | reorder {rs rs' : List Range} (h : rs.Perm rs') : Recut rs rs'
  | again {r : Range} {rs : List Range} (h : r ∈ rs) : Recut rs (r :: rs)
  | cut {first mid last : Nat} {rs : List Range} (h : first ≤ mid) (h' : mid < last) :
      Recut (⟨first, last⟩ :: rs) (⟨first, mid⟩ :: ⟨mid + 1, last⟩ :: rs)

theorem Recut.covered_iff (h : Recut rs rs') : Covered rs pos ↔ Covered rs' pos := by
  cases h with
  | reorder h => exact covered_of_perm h
  | again h =>
    rw [covered_cons]
    exact ⟨Or.inr, fun hpos => hpos.elim (fun hr => ⟨_, h, hr⟩) id⟩
  | cut h h' =>
    simp only [covered_cons, covers_mk]
    rw [← or_assoc]
    refine or_congr_left ?_
    omega

theorem Recut.le_iff (h : Recut rs rs') :
    (∀ r ∈ rs, r.first ≤ r.last) ↔ ∀ r ∈ rs', r.first ≤ r.last := by
  cases h with
  | reorder h => simp only [h.mem_iff]
  | again h =>
    rw [List.forall_mem_cons]
    exact ⟨fun hle => ⟨hle _ h, hle⟩, And.right⟩
  | cut h h' =>
    simp only [List.forall_mem_cons, ← and_assoc]
    refine and_congr_left fun _ => ?_
    omega

/-- What one change keeps, any number of them keeps, forwards and backwards. -/
theorem covered_iff_of_recut (h : Relation.EqvGen Recut rs rs') :
    (∀ pos, Covered rs pos ↔ Covered rs' pos) ∧
      ((∀ r ∈ rs, r.first ≤ r.last) ↔ ∀ r ∈ rs', r.first ≤ r.last) := by
  induction h with
  | rel rs rs' h => exact ⟨fun _ => h.covered_iff, h.le_iff⟩
  | refl rs => exact ⟨fun _ => Iff.rfl, Iff.rfl⟩
  | symm rs rs' _ ih => exact ⟨fun pos => (ih.1 pos).symm, ih.2.symm⟩
  | trans rs rs' rs'' _ _ ih ih' => exact ⟨fun pos => (ih.1 pos).trans (ih'.1 pos), ih.2.trans ih'.2⟩

theorem bounded_of_recut (h : Relation.EqvGen Recut rs rs') (hrs : Bounded rs) : Bounded rs' := by
  obtain ⟨hcover, hle⟩ := covered_iff_of_recut h
  exact bounded_of_covered (hle.1 fun r hr => (hrs r hr).1) hrs fun pos => (hcover pos).2

end Range

namespace Report

open Range

variable {r r' : Report} {rs : List Range} {pos : Nat}

theorem mem_positions : pos ∈ r.positions ↔ Covered r.ignored pos := by
  rw [positions, Sorted.mem_ofList, mem_flatMap_positions]

theorem coalesced_eq_ok (h : Bounded r.ignored) :
    r.coalesced = .ok (joinSorted (sort r.ignored)) := by
  refine if_neg ?_
  rw [List.any_eq_true]
  rintro ⟨s, hs, hlast⟩
  have hmem := (perm_sort r.ignored).mem_iff.1 (List.dropLast_subset _ hs)
  have := (h s hmem).2
  rw [beq_iff_eq] at hlast
  omega

/-- Coalesced ranges are the canonical ranges of the ignored positions. -/
theorem coalesced_eq_ok_iff (h : Bounded r.ignored) :
    r.coalesced = .ok rs ↔ Canonical rs ∧ ∀ pos, Covered rs pos ↔ pos ∈ r.positions := by
  have hsorted := ascending_sort fun s hs => (h s hs).1
  have hcover : ∀ pos, Covered (joinSorted (sort r.ignored)) pos ↔ pos ∈ r.positions := by
    intro pos
    rw [covered_joinSorted hsorted, covered_of_perm (perm_sort _), mem_positions]
  rw [coalesced_eq_ok h]
  constructor
  · rintro ⟨⟩
    exact ⟨canonical_joinSorted hsorted, hcover⟩
  · rintro ⟨hrs, hcover'⟩
    rw [(canonical_joinSorted hsorted).unique hrs fun pos =>
      (hcover pos).trans (hcover' pos).symm]

/-- The ignored positions are those of the coalesced ranges, one range after the other. -/
theorem positions_eq_flatMap (h : Canonical rs) (hcover : ∀ pos, Covered rs pos ↔ pos ∈ r.positions) :
    r.positions = rs.flatMap Range.positions := by
  have hsorted : r.positions.Pairwise (· < ·) := Sorted.pairwise_ofList _
  have hperm : r.positions.Perm (rs.flatMap Range.positions) := by
    refine (List.perm_ext_iff_of_nodup ?_ ?_).2 fun pos => ?_
    · exact hsorted.imp Nat.ne_of_lt
    · exact h.pairwise_positions.imp Nat.ne_of_lt
    · rw [mem_flatMap_positions, hcover]
  exact hperm.eq_of_pairwise (fun a b _ _ hab hba => by omega) hsorted h.pairwise_positions

/-- **Coalesced ranges are the canonical form of the ignored positions.**  A report whose
    ranges are not reversed and end before the last position has coalesced ranges.  They
    increase with gaps between them, and cover just the ignored positions.  Hence reports
    have the same coalesced ranges iff they ignore the same positions, in particular when
    ranges are reordered, repeated or cut; ranges that are coalesced stay as they are; and
    their sizes add up to the number of ignored positions. -/
theorem coalesced_canonical (r : Report) (h : Bounded r.ignored) :
    ∃ rs, r.coalesced = .ok rs ∧ Canonical rs ∧
      (∀ pos, Covered rs pos ↔ pos ∈ r.positions) ∧
      (∀ r' : Report, Bounded r'.ignored →
        (r'.coalesced = .ok rs ↔ ∀ pos, pos ∈ r'.positions ↔ pos ∈ r.positions)) ∧
      (∀ r' : Report, Relation.EqvGen Recut r.ignored r'.ignored → r'.coalesced = .ok rs) ∧
      (∀ r' : Report, r'.ignored = rs → r'.coalesced = .ok rs) ∧
      (rs.map Range.size).sum = r.positions.length := by
  obtain ⟨hrs, hcover⟩ := (coalesced_eq_ok_iff h).1 (coalesced_eq_ok h)
  generalize joinSorted (sort r.ignored) = rs at hrs hcover
  have hsame : ∀ r' : Report, Bounded r'.ignored →
      (r'.coalesced = .ok rs ↔ ∀ pos, pos ∈ r'.positions ↔ pos ∈ r.positions) := by
    intro r' h'
    rw [coalesced_eq_ok_iff h']
    constructor
    · rintro ⟨-, hcover'⟩ pos
      rw [← hcover', hcover]
    · intro hpos
      exact ⟨hrs, fun pos => (hcover pos).trans (hpos pos).symm⟩
  refine ⟨rs, (coalesced_eq_ok_iff h).2 ⟨hrs, hcover⟩, hrs, hcover, hsame, ?_, ?_, ?_⟩
  · intro r' hrecut
    refine (hsame r' (bounded_of_recut hrecut h)).2 fun pos => ?_
    rw [mem_positions, mem_positions, (covered_iff_of_recut hrecut).1]
  · rintro r' rfl
    have hbounded : Bounded r'.ignored :=
      bounded_of_covered hrs.le h fun pos hpos => mem_positions.1 ((hcover pos).1 hpos)
    refine (hsame r' hbounded).2 fun pos => ?_
    rw [mem_positions, hcover]
  · rw [positions_eq_flatMap hrs hcover, List.length_flatMap]
    simp only [length_positions]

/-- Four ranges, two that overlap and two that touch, make one of nine positions.  Cutting
    one of them changes nothing. -/
theorem coalesced_canonical_touching :
    (⟨[⟨5, 7⟩, ⟨1, 2⟩, ⟨3, 4⟩, ⟨6, 9⟩], [], []⟩ : Report).coalesced = .ok [⟨1, 9⟩] ∧
      (⟨[⟨5, 5⟩, ⟨6, 7⟩, ⟨1, 2⟩, ⟨3, 4⟩, ⟨6, 9⟩], [], []⟩ : Report).coalesced = .ok [⟨1, 9⟩] ∧
      (⟨[⟨5, 7⟩, ⟨1, 2⟩, ⟨3, 4⟩, ⟨6, 9⟩], [], []⟩ : Report).positions.length = 9 := by
  obtain ⟨rs, hrs, -, -, -, hrecut, -, hsum⟩ :=
    coalesced_canonical ⟨[⟨5, 7⟩, ⟨1, 2⟩, ⟨3, 4⟩, ⟨6, 9⟩], [], []⟩ (by decide)
  have hok : (⟨[⟨5, 7⟩, ⟨1, 2⟩, ⟨3, 4⟩, ⟨6, 9⟩], [], []⟩ : Report).coalesced = .ok [⟨1, 9⟩] := rfl
  obtain rfl : rs = [⟨1, 9⟩] := Except.ok.inj (hrs.symm.trans hok)
  exact ⟨hrs, hrecut _ (.rel _ _ (.cut (by decide) (by decide))), hsum.symm⟩

end Report

end Winnow
