/-
  The examination of composable functions, step by step.

  * `Work` is the examination between two steps: its queue of jumps, the group that comes next
    and the runtime calls that are left.  A `step` examines one group, follows one jump or turns
    to one call, and nothing bounds the number of steps;
  * `potential_lt` says that every step lowers `Work.potential`, whatever cycles the jumps form.
    The position in the chain of entering jumps counts least, then the jumps not yet followed,
    then the calls;
  * `result_step` says that what is to come of the examination stays the same, so that a run ends
    with what `findings` computes;
  * `Work.Sound` is what all that was ignored has in common, kept by every step.
-/
import Mathlib.Data.List.Perm.Subperm
import Mathlib.Tactic.Ring
import Winnow.Builtin
import Winnow.Proofs.Findings.Ranges

namespace Winnow.Idiom.Compose

variable {m : Method} {p : Progress} {start pos first last label : Nat}

/-! ## Groups -/

/-- A method of the class `owner` is called from `first` on and up to `last`. -/
def Calls (m : Method) (first last : Nat) (owner : String) : Prop :=
  ∃ pos op name desc interface, first ≤ pos ∧ pos ≤ last ∧
    m.code[pos]? = some (.call op owner name desc interface)

/-- A range without code of the user: it starts with a label, or it is the code before the
    first one, and it calls the runtime and the intrinsics only, unless it updates a scope. -/
structure Bookkeeping (m : Method) (first last : Nat) : Prop where
  bounds : first ≤ last ∧ last < m.size
  start : isLabel m first ∨ first = 0 ∧ ∀ pos ≤ last, ¬ isLabel m pos
  calls : Calls m first last "androidx/compose/runtime/ScopeUpdateScope" ∨
    ∀ owner, Calls m first last owner →
      Text.startsWith "androidx/compose/runtime/" owner ∨ owner = "kotlin/jvm/internal/Intrinsics"

/-- Where an examination may start: anywhere but at the first label. -/
def Enters (m : Method) (start : Nat) : Prop :=
  start < m.size ∧ (isLabel m start → ∃ q < start, isLabel m q)

theorem isLabel_iff : isLabel m pos ↔ ∃ l, m.code[pos]? = some (.label l) := by
  rw [isLabel, Option.isSome_iff_exists]
  refine exists_congr fun l => ?_
  rw [Option.bind_eq_some_iff]
  constructor
  · rintro ⟨e, he, hl⟩
    rw [he, Method.placed?_eq_some_iff.1 hl]
  · intro h
    exact ⟨_, h, rfl⟩

theorem not_isLabel_of_isReal (h : m.isReal pos) : ¬ isLabel m pos := by
  intro hl
  obtain ⟨l, hl⟩ := isLabel_iff.1 hl
  exact Method.not_isReal_of_label hl h

theorem enters_of_isReal (h : m.isReal start) : Enters m start :=
  ⟨Method.lt_size_of_isReal h, fun hl => absurd hl (not_isLabel_of_isReal h)⟩

theorem owner?_eq_some_iff {e : Entry} {owner : String} :
    owner? e = some owner ↔ ∃ op name desc interface, e = .call op owner name desc interface := by
  constructor
  · intro h
    cases e <;> cases h
    exact ⟨_, _, _, _, rfl⟩
  · rintro ⟨op, name, desc, interface, rfl⟩
    rfl

/-- The positions of a group, without its label. -/
theorem mem_members (hstart : start < m.size) :
    pos ∈ members (extent m start) start ↔
      ((extent m start).label.map (· + 1)).getD 0 ≤ pos ∧ pos ≤ (extent m start).last := by
  obtain ⟨hlast, -⟩ := extent_bounds hstart
  have hfirst : ((extent m start).label.map (· + 1)).getD 0 ≤ start := by
    cases hl : (extent m start).label with
    | none => exact Nat.zero_le _
    | some label => exact (lastWhere_eq_some_iff.1 hl).1
  simp only [members, List.mem_append, List.mem_reverse, List.mem_range'_1, List.mem_singleton]
  omega

/-- The calls of a group are those of its members: its label is no call. -/
theorem calls_extent_iff {owner : String} (hstart : start < m.size) :
    Calls m ((extent m start).label.getD 0) (extent m start).last owner ↔
      ∃ pos ∈ members (extent m start) start, m.code[pos]?.bind owner? = some owner := by
  constructor
  · rintro ⟨pos, op, name, desc, interface, hfirst, hlast, he⟩
    refine ⟨pos, (mem_members hstart).2 ⟨?_, hlast⟩, by rw [he]; rfl⟩
    cases hl : (extent m start).label with
    | none => exact Nat.zero_le _
    | some label =>
      rw [hl] at hfirst
      refine Nat.lt_of_le_of_ne hfirst fun heq => ?_
      obtain ⟨l, hlabel⟩ := isLabel_iff.1 (lastWhere_eq_some_iff.1 hl).2.1
      rw [show label = pos from heq] at hlabel
      cases he.symm.trans hlabel
  · rintro ⟨pos, hpos, h⟩
    obtain ⟨e, he, ho⟩ := Option.bind_eq_some_iff.1 h
    obtain ⟨op, name, desc, interface, rfl⟩ := owner?_eq_some_iff.1 ho
    obtain ⟨hfirst, hlast⟩ := (mem_members hstart).1 hpos
    refine ⟨pos, op, name, desc, interface, ?_, hlast, he⟩
    cases hl : (extent m start).label with
    | none => exact Nat.zero_le _
    | some label =>
      rw [hl] at hfirst
      exact Nat.le_of_succ_le hfirst

/-- There is no label in a group but the one that opens it. -/
theorem not_isLabel_of_lt (hlo : start < pos) (hhi : pos ≤ (extent m start).last)
    (hsize : pos < m.size) : ¬ isLabel m pos := by
  simp only [extent] at hhi
  cases hf : firstWhere (isLabel m) (start + 1) (m.size - (start + 1)) with
  | none => exact firstWhere_eq_none hf pos hlo (by omega)
  | some next =>
    rw [hf, Option.getD_some] at hhi
    obtain ⟨h₁, -, -, hfree⟩ := firstWhere_eq_some_iff.1 hf
    exact hfree pos hlo (by omega)

/-- Nor is there one in the code before the first label. -/
theorem not_isLabel_of_label_eq_none (hstart : Enters m start)
    (hl : (extent m start).label = none) (hpos : pos ≤ (extent m start).last) :
    ¬ isLabel m pos := by
  have hbefore : ∀ q < start, ¬ isLabel m q := lastWhere_eq_none hl
  rcases Nat.lt_trichotomy pos start with hlt | rfl | hgt
  · exact hbefore pos hlt
  · intro hlabel
    obtain ⟨q, hq, hlabel⟩ := hstart.2 hlabel
    exact hbefore q hq hlabel
  · exact not_isLabel_of_lt hgt hpos (Nat.lt_of_le_of_lt hpos (extent_bounds hstart.1).2)

/-- What is ignored is bookkeeping. -/
theorem bookkeeping_extent (hstart : Enters m start)
    (huser : callsUserCode m (members (extent m start) start) = false) :
    Bookkeeping m ((extent m start).label.getD 0) (extent m start).last where
  bounds := by
    obtain ⟨hlast, hsize⟩ := extent_bounds hstart.1
    cases hl : (extent m start).label with
    | none => exact ⟨Nat.zero_le _, hsize⟩
    | some label =>
      have hbefore : label < start := (lastWhere_eq_some_iff.1 hl).1
      exact ⟨Nat.le_trans (Nat.le_of_lt hbefore) hlast, hsize⟩
  start := by
    cases hl : (extent m start).label with
    | some label => exact Or.inl (lastWhere_eq_some_iff.1 hl).2.1
    | none => exact Or.inr ⟨rfl, fun pos hpos => not_isLabel_of_label_eq_none hstart hl hpos⟩
  calls := by
    simp only [callsUserCode, Bool.and_eq_false_iff, Bool.not_eq_false', List.any_eq_true,
      List.mem_filterMap, List.any_eq_false, isScopeUpdate, beq_iff_eq] at huser
    rcases huser with ⟨_, ⟨pos, hpos, ho⟩, rfl⟩ | hall
    · exact Or.inl ((calls_extent_iff hstart.1).2 ⟨pos, hpos, ho⟩)
    · refine Or.inr fun owner hcalls => ?_
      have hno := hall owner ((calls_extent_iff hstart.1).1 hcalls)
      by_contra huser
      rw [not_or] at huser
      simp [isRuntime, isIntrinsics, huser] at hno

/-! ## Steps -/

/-- Examines one group.  If the group is ignored, the examination goes on with the jump that
    enters it. -/
def visit (m : Method) (start : Nat) (p : Progress) : Progress × Option Nat :=
  let x := extent m start
  let noted := { p with jumps := noteJumps m p.jumps (members x start) }
  if x.label.any p.ignored.contains then (p, none)
  else if callsUserCode m (members x start) then (noted, none)
  else
    match x.label with
    | none => ({ noted with findings := p.findings ++ [.ignore 0 x.last] }, none)
    | some label =>
      ({ noted with
          ignored := label :: p.ignored
          findings := p.findings ++ [.ignore label x.last] }, entryJump? m label)

/-- The group that a jump leads to, if it is to be examined. -/
def landing? (m : Method) (p : Progress) (jump : Nat) : Option Nat :=
  ((m.code[jump]?.bind Entry.jump?).bind m.resolve?).bind fun label =>
    if p.ignored.contains label || m.size ≤ label + 1 then none else some (label + 1)

/-- The examination between two steps. -/
structure Work where
  progress : Progress := {}
  /-- How many of the jumps have been followed. -/
  followed : Nat := 0
  /-- A position in the group that is examined next. -/
  group : Option Nat := none
  /-- The runtime calls that are left. -/
  calls : List Nat

/-- One step, unless all is done: a group, else the next jump, else the next call, which starts
    with an empty queue. -/
def step (m : Method) (w : Work) : Option Work :=
  match w.group with
  | some start =>
    let (progress, group) := visit m start w.progress
    some { w with progress, group }
  | none =>
    match w.progress.jumps[w.followed]? with
    | some jump =>
      some { w with followed := w.followed + 1, group := landing? m w.progress jump }
    | none =>
      match w.calls with
      | [] => none
      | call :: calls =>
        some { progress := { w.progress with jumps := [] }, group := some call, calls }

/-- A number of steps, one after the other. -/
inductive Run (m : Method) : Nat → Work → Work → Prop
  | nil (w : Work) : Run m 0 w w
  | cons {n : Nat} {w w₁ w' : Work} (h : step m w = some w₁) (rest : Run m n w₁ w') :
      Run m (n + 1) w w'

variable {w w' : Work}

/-- What a step can do. -/
theorem step_cases (h : step m w = some w') :
    (∃ start, w.group = some start ∧
      w' = { w with
        progress := (visit m start w.progress).1
        group := (visit m start w.progress).2 }) ∨
    (∃ jump, w.group = none ∧ w.progress.jumps[w.followed]? = some jump ∧
      w' = { w with followed := w.followed + 1, group := landing? m w.progress jump }) ∨
    (∃ call calls, w.group = none ∧ w.progress.jumps[w.followed]? = none ∧
      w.calls = call :: calls ∧
      w' = { progress := { w.progress with jumps := [] }, group := some call, calls }) := by
  unfold step at h
  split at h
  · next start hgroup => exact Or.inl ⟨start, hgroup, (Option.some.inj h).symm⟩
  · next hgroup =>
    split at h
    · next jump hjump => exact Or.inr (Or.inl ⟨jump, hgroup, hjump, (Option.some.inj h).symm⟩)
    · next hjump =>
      split at h
      · cases h
      · next call calls hcalls =>
        exact Or.inr (Or.inr ⟨call, calls, hgroup, hjump, hcalls, (Option.some.inj h).symm⟩)

/-- When all is done. -/
theorem step_eq_none (h : step m w = none) :
    w.group = none ∧ w.progress.jumps[w.followed]? = none ∧ w.calls = [] := by
  unfold step at h
  split at h
  · cases h
  · next hgroup =>
    split at h
    · cases h
    · next hjump =>
      split at h
      · next hcalls => exact ⟨hgroup, hjump, hcalls⟩
      · cases h

/-- What the examination of a group can do. -/
theorem visit_cases (m : Method) (start : Nat) (p : Progress) :
    let x := extent m start
    let noted := { p with jumps := noteJumps m p.jumps (members x start) }
    visit m start p = (p, none) ∨ visit m start p = (noted, none) ∨
    (callsUserCode m (members x start) = false ∧ x.label = none ∧
      visit m start p = ({ noted with findings := p.findings ++ [.ignore 0 x.last] }, none)) ∨
    ∃ label, callsUserCode m (members x start) = false ∧ x.label = some label ∧
      label ∉ p.ignored ∧
      visit m start p =
        ({ noted with
            ignored := label :: p.ignored
            findings := p.findings ++ [.ignore label x.last] }, entryJump? m label) := by
  intro x noted
  unfold visit
  dsimp only
  split
  · exact Or.inl rfl
  · next hlabel =>
    split
    · exact Or.inr (Or.inl rfl)
    · next huser =>
      have huser := Bool.eq_false_of_not_eq_true huser
      refine Or.inr (Or.inr ?_)
      cases hl : (extent m start).label with
      | none => exact Or.inl ⟨huser, rfl, rfl⟩
      | some label =>
        refine Or.inr ⟨label, huser, rfl, ?_, rfl⟩
        simpa [hl] using hlabel

/-! ## What is to come -/

/-- The examination of a group, if there is one. -/
def examined (m : Method) (p : Progress) : Option Nat → Progress
  | none => p
  | some start => examine m start p

/-- Follows the jump of round `i`. -/
def round (m : Method) (p : Progress) (i : Nat) : Progress :=
  match p.jumps[i]? with
  | none => p
  | some jump => followJump m p jump

/-- The rounds from `k` on. -/
def rounds (m : Method) (k : Nat) (p : Progress) : Progress :=
  (List.range' k (m.size - k)).foldl (round m) p

/-- What the examination ends with. -/
def Work.result (m : Method) (w : Work) : Progress :=
  w.calls.foldl (fromCall m) (rounds m w.followed (examined m w.progress w.group))

theorem examine_eq_visit (m : Method) (start : Nat) (p : Progress) :
    examine m start p = examined m (visit m start p).1 (visit m start p).2 := by
  rw [examine, visit]
  dsimp only
  split
  · rfl
  · split
    · rfl
    · split
      · next hlabel => rw [hlabel]; rfl
      · next label hlabel =>
        rw [hlabel]
        dsimp only
        split
        · next hjump => rw [hjump]; rfl
        · next jump hjump => rw [hjump]; rfl

theorem followJump_eq_landing? (m : Method) (p : Progress) (jump : Nat) :
    followJump m p jump = examined m p (landing? m p jump) := by
  unfold followJump landing?
  split
  · next h => rw [h]; rfl
  · next label h =>
    rw [h, Option.bind_some]
    split <;> rfl

theorem fromCall_eq_rounds (m : Method) (p : Progress) (call : Nat) :
    fromCall m p call = rounds m 0 (examine m call { p with jumps := [] }) := by
  rw [fromCall, rounds, List.range_eq_range', Nat.sub_zero]
  rfl

theorem rounds_of_exhausted {k : Nat} (h : p.jumps[k]? = none) : rounds m k p = p := by
  refine List.foldlRecOn (motive := (· = p)) _ (round m) rfl ?_
  rintro q rfl i hi
  have hk : k ≤ i := (List.mem_range'_1.1 hi).1
  have hnone : q.jumps[i]? = none := by
    rw [List.getElem?_eq_none_iff] at h ⊢
    omega
  rw [round, hnone]

theorem rounds_succ {k jump : Nat} (hk : k < m.size) (h : p.jumps[k]? = some jump) :
    rounds m k p = rounds m (k + 1) (followJump m p jump) := by
  have hsize : m.size - k = m.size - (k + 1) + 1 := by omega
  rw [rounds, hsize, List.range'_succ, List.foldl_cons, round, h]
  rfl

/-! ## What is kept -/

/-- Two findings that do not ignore the group of one label twice. -/
def Apart (m : Method) (x y : Finding) : Prop :=
  ∀ label last last', x = .ignore label last → y = .ignore label last' → ¬ isLabel m label

/-- The jumps are jumps of the method and in the queue once; what is ignored is bookkeeping, and
    no label opens two ignored ranges. -/
structure Progress.Sound (m : Method) (p : Progress) : Prop where
  nodup : p.jumps.Nodup
  jumps : ∀ j ∈ p.jumps, (m.code[j]?.bind Entry.jump?).isSome
  ranges : ∀ x ∈ p.findings, ∃ first last, x = .ignore first last ∧ Bookkeeping m first last
  opened : ∀ label last, .ignore label last ∈ p.findings → isLabel m label → label ∈ p.ignored
  apart : p.findings.Pairwise (Apart m)

/-- Every examination to come may start where it starts. -/
structure Work.Sound (m : Method) (w : Work) : Prop where
  progress : w.progress.Sound m
  group : ∀ start, w.group = some start → Enters m start
  calls : ∀ call ∈ w.calls, Enters m call

theorem Progress.Sound.length_jumps (h : p.Sound m) : p.jumps.length ≤ m.size := by
  have hsub : p.jumps ⊆ List.range m.size := by
    intro j hj
    obtain ⟨l, hl⟩ := Option.isSome_iff_exists.1 (h.jumps j hj)
    obtain ⟨e, he, -⟩ := Option.bind_eq_some_iff.1 hl
    exact List.mem_range.2 (Method.lt_size_of_entry he)
  simpa using (h.nodup.subperm hsub).length_le

/-- A jump that is added is a jump, and is not in the queue yet. -/
theorem noteJumps_keeps {js : List Nat} (hnodup : js.Nodup)
    (hjumps : ∀ j ∈ js, (m.code[j]?.bind Entry.jump?).isSome) (positions : List Nat) :
    (noteJumps m js positions).Nodup ∧
      ∀ j ∈ noteJumps m js positions, (m.code[j]?.bind Entry.jump?).isSome := by
  refine List.foldlRecOn (motive := fun js : List Nat => js.Nodup ∧
    ∀ j ∈ js, (m.code[j]?.bind Entry.jump?).isSome) positions _ ⟨hnodup, hjumps⟩ ?_
  rintro js ⟨hnodup, hjumps⟩ pos -
  split
  · next hpos =>
    rw [Bool.and_eq_true, Bool.not_eq_true', List.contains_eq_mem, decide_eq_false_iff_not] at hpos
    refine ⟨?_, List.forall_mem_append.2 ⟨hjumps, List.forall_mem_singleton.2 hpos.1⟩⟩
    exact List.nodup_append.2 ⟨hnodup, List.nodup_singleton pos,
      fun a ha b hb hab => hpos.2 (List.mem_singleton.1 hb ▸ hab ▸ ha)⟩
  · exact ⟨hnodup, hjumps⟩

theorem Progress.Sound.note (h : p.Sound m) (positions : List Nat) :
    Progress.Sound m { p with jumps := noteJumps m p.jumps positions } where
  nodup := (noteJumps_keeps h.nodup h.jumps positions).1
  jumps := (noteJumps_keeps h.nodup h.jumps positions).2
  ranges := h.ranges
  opened := h.opened
  apart := h.apart

/-- Ignoring a range whose label, if it starts with one, opens no ignored group yet. -/
theorem Progress.Sound.ignore {ignored : List Nat} (h : p.Sound m) (hr : Bookkeeping m first last)
    (hnew : isLabel m first → first ∉ p.ignored ∧ first ∈ ignored) (hsub : p.ignored ⊆ ignored) :
    Progress.Sound m { p with ignored, findings := p.findings ++ [.ignore first last] } where
  nodup := h.nodup
  jumps := h.jumps
  ranges := List.forall_mem_append.2
    ⟨h.ranges, List.forall_mem_singleton.2 ⟨first, last, rfl, hr⟩⟩
  opened label last' hmem hlabel := by
    rcases List.mem_append.1 hmem with hmem | hmem
    · exact hsub (h.opened label last' hmem hlabel)
    · cases List.mem_singleton.1 hmem
      exact (hnew hlabel).2
  apart := by
    refine List.pairwise_append.2 ⟨h.apart, List.pairwise_singleton _ _, ?_⟩
    rintro x hx y hy label last₁ last₂ rfl rfl hlabel
    cases List.mem_singleton.1 hy
    exact (hnew hlabel).1 (h.opened first last₁ hx hlabel)

/-- Examining a group keeps what is known, and goes on in the group that holds the entering
    jump. -/
theorem Progress.Sound.visit (h : p.Sound m) (hstart : Enters m start) :
    Progress.Sound m (visit m start p).1 ∧
      ∀ jump, (Compose.visit m start p).2 = some jump → Enters m jump ∧ jump < start := by
  have hnoted := h.note (members (extent m start) start)
  rcases visit_cases m start p with hv | hv | ⟨huser, hlabel, hv⟩ | ⟨label, huser, hlabel, hnew, hv⟩
  · rw [hv]
    exact ⟨h, fun _ hj => by cases hj⟩
  · rw [hv]
    exact ⟨hnoted, fun _ hj => by cases hj⟩
  · -- the code before the first label
    have hr := bookkeeping_extent hstart huser
    rw [hlabel, Option.getD_none] at hr
    have hfirst := not_isLabel_of_label_eq_none hstart hlabel (Nat.zero_le _)
    rw [hv]
    exact ⟨hnoted.ignore hr (fun hl => absurd hl hfirst) (fun _ h => h), fun _ hj => by cases hj⟩
  · have hr := bookkeeping_extent hstart huser
    rw [hlabel, Option.getD_some] at hr
    rw [hv]
    refine ⟨hnoted.ignore hr (fun _ => ⟨hnew, List.mem_cons_self⟩) (List.subset_cons_self _ _), ?_⟩
    intro jump hjump
    obtain ⟨hbefore, hreal⟩ := isReal_of_entryJump? hjump
    exact ⟨enters_of_isReal hreal, Nat.lt_trans hbefore (lastWhere_eq_some_iff.1 hlabel).1⟩

/-- A jump leads behind its label. -/
theorem enters_landing? {jump : Nat} (h : landing? m p jump = some start) : Enters m start := by
  obtain ⟨label, hlabel, h⟩ := Option.bind_eq_some_iff.1 h
  obtain ⟨l, -, hl⟩ := Option.bind_eq_some_iff.1 hlabel
  split at h
  · cases h
  · next hin =>
    cases h
    rw [Bool.or_eq_true, decide_eq_true_iff, not_or] at hin
    have hplaced : isLabel m label := isLabel_iff.2 ⟨l, Method.resolve?_eq_some_iff.1 hl⟩
    exact ⟨Nat.not_le.1 hin.2, fun _ => ⟨label, Nat.lt_succ_self label, hplaced⟩⟩

theorem Work.Sound.step (h : w.Sound m) (hstep : step m w = some w') : w'.Sound m := by
  rcases step_cases hstep with ⟨start, hgroup, rfl⟩ | ⟨jump, -, -, rfl⟩ |
    ⟨call, calls, -, -, hcalls, rfl⟩
  · obtain ⟨hp, hnext⟩ := h.progress.visit (h.group start hgroup)
    exact ⟨hp, fun jump hjump => (hnext jump hjump).1, h.calls⟩
  · exact ⟨h.progress, fun start hstart => enters_landing? hstart, h.calls⟩
  · have hp := h.progress
    have hall := h.calls
    rw [hcalls] at hall
    refine ⟨⟨List.nodup_nil, by simp, hp.ranges, hp.opened, hp.apart⟩, ?_, ?_⟩
    · rintro _ ⟨⟩
      exact hall call List.mem_cons_self
    · exact fun call' hmem => hall call' (List.mem_cons_of_mem _ hmem)

/-! ## Runs -/

/-- The steps that are left at most. -/
def Work.potential (m : Method) (w : Work) : Nat :=
  w.calls.length * (m.size + 1) ^ 2 + (m.size - w.followed) * (m.size + 1) +
    (w.group.map (· + 1)).getD 0

theorem Progress.Sound.lt_size {k jump : Nat} (h : p.Sound m) (hk : p.jumps[k]? = some jump) :
    k < m.size :=
  Nat.lt_of_lt_of_le (List.getElem?_eq_some_iff.1 hk).1 h.length_jumps

/-- A group that is entered counts less than a jump. -/
theorem getD_group_le (h : ∀ start, w.group = some start → Enters m start) :
    (w.group.map (· + 1)).getD 0 ≤ m.size := by
  cases hg : w.group with
  | none => exact Nat.zero_le _
  | some start => exact (h start hg).1

/-- Every step brings the end closer. -/
theorem potential_lt (h : w.Sound m) (hstep : step m w = some w') :
    w'.potential m < w.potential m := by
  have hle := getD_group_le (h.step hstep).group
  rcases step_cases hstep with ⟨start, hgroup, rfl⟩ | ⟨jump, hgroup, hjump, rfl⟩ |
    ⟨call, calls, hgroup, -, hcalls, rfl⟩
  · -- the entering jump stands before the group
    obtain ⟨-, hnext⟩ := h.progress.visit (h.group start hgroup)
    refine Nat.add_lt_add_left ?_ _
    rw [hgroup]
    cases hv : (visit m start w.progress).2 with
    | none => exact Nat.succ_pos start
    | some next => exact Nat.succ_lt_succ (hnext next hv).2
  · have hk := h.progress.lt_size hjump
    have hleft : m.size - w.followed = m.size - (w.followed + 1) + 1 := by omega
    simp only [Work.potential, hgroup, hleft, Nat.succ_mul, Option.map_none, Option.getD_none]
      at hle ⊢
    omega
  · have hsquare : (m.size + 1) ^ 2 = m.size * (m.size + 1) + (m.size + 1) := by ring
    simp only [Work.potential, hgroup, hcalls, List.length_cons, Nat.succ_mul, Nat.sub_zero,
      Option.map_none, Option.getD_none] at hle ⊢
    omega

/-- What is to come stays the same. -/
theorem result_step (h : w.Sound m) (hstep : step m w = some w') :
    w'.result m = w.result m := by
  rcases step_cases hstep with ⟨start, hgroup, rfl⟩ | ⟨jump, hgroup, hjump, rfl⟩ |
    ⟨call, calls, hgroup, hjump, hcalls, rfl⟩
  · simp only [Work.result, hgroup]
    rw [← examine_eq_visit]
    rfl
  · simp only [Work.result, hgroup]
    rw [← followJump_eq_landing?, ← rounds_succ (h.progress.lt_size hjump) hjump]
    rfl
  · simp only [Work.result, hgroup, hcalls, List.foldl_cons]
    rw [examined, rounds_of_exhausted hjump, fromCall_eq_rounds]
    rfl

theorem result_of_step_eq_none (h : step m w = none) : w.result m = w.progress := by
  obtain ⟨hgroup, hjump, hcalls⟩ := step_eq_none h
  rw [Work.result, hgroup, hcalls, List.foldl_nil]
  exact rounds_of_exhausted hjump

/-- What every step keeps, a run keeps. -/
theorem Run.keeps {n : Nat} (hrun : Run m n w w') (h : w.Sound m) :
    w'.Sound m ∧ w'.result m = w.result m := by
  induction hrun with
  | nil => exact ⟨h, rfl⟩
  | cons hstep _ ih =>
    obtain ⟨hsound, hresult⟩ := ih (h.step hstep)
    exact ⟨hsound, hresult.trans (result_step h hstep)⟩

/-- There is an end to every run: by induction on the potential. -/
theorem exists_run (h : w.Sound m) :
    ∃ n w', n ≤ w.potential m ∧ Run m n w w' ∧ step m w' = none := by
  induction hk : w.potential m using Nat.strong_induction_on generalizing w with
  | _ k ih =>
    cases hstep : step m w with
    | none => exact ⟨0, w, Nat.zero_le _, .nil w, hstep⟩
    | some w₁ =>
      have hlt := potential_lt h hstep
      obtain ⟨n, w', hn, hrun, hend⟩ := ih _ (hk ▸ hlt) (h.step hstep) rfl
      exact ⟨n + 1, w', by omega, .cons hstep hrun, hend⟩

/-- The examination of a method before its first step. -/
def Work.initial (m : Method) : Work where
  calls := runtimeCalls m

theorem sound_initial (m : Method) : (Work.initial m).Sound m where
  progress := ⟨List.nodup_nil, nofun, nofun, nofun, List.Pairwise.nil⟩
  group := by rintro _ ⟨⟩
  calls call hcall := by
    have hop := (List.mem_filter.1 hcall).2
    rw [Bool.and_eq_true] at hop
    exact enters_of_isReal (Method.isReal_of_hasOpcode hop.1)

theorem potential_initial (m : Method) : (Work.initial m).potential m ≤ (m.size + 1) ^ 3 := by
  have hcalls : (runtimeCalls m).length ≤ m.size := by
    have := List.length_filter_le (fun pos =>
      m.hasOpcode .invokeInterface pos && (m.code[pos]?.bind owner?).any isRuntime) m.positions
    rwa [Method.positions, List.length_range] at this
  calc (Work.initial m).potential m
      = (runtimeCalls m).length * (m.size + 1) ^ 2 + m.size * (m.size + 1) := rfl
    _ ≤ m.size * (m.size + 1) ^ 2 + (m.size + 1) * (m.size + 1) :=
        Nat.add_le_add (Nat.mul_le_mul_right _ hcalls) (Nat.mul_le_mul_right _ (Nat.le_succ _))
    _ = (m.size + 1) ^ 3 := by ring

theorem result_initial (m : Method) :
    (Work.initial m).result m = (runtimeCalls m).foldl (fromCall m) {} := by
  have hrounds : rounds m 0 {} = {} := rounds_of_exhausted rfl
  show (runtimeCalls m).foldl (fromCall m) (rounds m 0 {}) = _
  rw [hrounds]

/-- The whole examination: it ends, with what `findings` computes. -/
theorem exists_run_initial (m : Method) :
    ∃ n w, n ≤ (m.size + 1) ^ 3 ∧ Run m n (Work.initial m) w ∧ step m w = none ∧ w.Sound m ∧
      w.progress = (runtimeCalls m).foldl (fromCall m) {} := by
  obtain ⟨n, w, hn, hrun, hend⟩ := exists_run (sound_initial m)
  obtain ⟨hsound, hresult⟩ := hrun.keeps (sound_initial m)
  refine ⟨n, w, Nat.le_trans hn (potential_initial m), hrun, hend, hsound, ?_⟩
  rw [← result_of_step_eq_none hend, hresult, result_initial]

end Winnow.Idiom.Compose

namespace Winnow

open Idiom.Compose

/-- **Composable functions.**  The examination of a composable function ends, whatever cycles its
    jumps form, after a number of steps that is bounded by its size alone; what the filter finds
    is what was found then.  Every range that is ignored starts at a label, or is the code before
    the first one, and hides no call of the user's code, and no two of them start at one label. -/
theorem composable_examination_ends (m : Method) (c : ClassInfo) (scratch : ClassScratch)
    (hkotlin : c.isKotlin)
    (hcomposable : m.hasInvisibleAnnotation "Landroidx/compose/runtime/Composable;") :
    (∃ n w, n ≤ (m.size + 1) ^ 3 ∧ Run m n (Work.initial m) w ∧ step m w = none ∧
      w.progress.findings = (Builtin.kotlinCompose.run m c scratch).findings) ∧
    (∀ x ∈ (Builtin.kotlinCompose.run m c scratch).findings,
      ∃ first last, x = .ignore first last ∧ Bookkeeping m first last) ∧
    (Builtin.kotlinCompose.run m c scratch).findings.Pairwise (Apart m) := by
  have hrun : (Builtin.kotlinCompose.run m c scratch).findings =
      ((runtimeCalls m).foldl (fromCall m) {}).findings := by
    show findings m c = _
    rw [findings, hkotlin, hcomposable]
    rfl
  obtain ⟨n, w, hn, hsteps, hend, hsound, hp⟩ := exists_run_initial m
  rw [hrun, ← hp]
  exact ⟨⟨n, w, hn, hsteps, hend, rfl⟩, hsound.progress.ranges, hsound.progress.apart⟩

/-- A composable function whose jumps form a cycle through two groups.  A third group calls code
    of the user. -/
def recomposedLoop : Method where
  name := "m"
  desc := "()V"
  invisible := ["Landroidx/compose/runtime/Composable;"]
  code := #[.label ⟨0⟩,
    .call .invokeInterface "androidx/compose/runtime/Composer" "skipping" "()Z" true,
    .jump .ifEq ⟨1⟩, .label ⟨2⟩,
    .call .invokeInterface "androidx/compose/runtime/Composer" "endNode" "()V" true,
    .jump .goto ⟨0⟩, .label ⟨1⟩, .call .invokeStatic "app/Screen" "draw" "()V" false,
    .jump .goto ⟨2⟩]
  placed_nodup := by decide
  mentioned_placed := by decide

theorem composable_examination_ends_looping :
    (Builtin.kotlinCompose.run recomposedLoop
      { name := "C", annotations := ["Lkotlin/Metadata;"] } {}).findings =
        [.ignore 0 2, .ignore 3 5] ∧
    (∃ n w, n ≤ 1000 ∧ Run recomposedLoop n (Work.initial recomposedLoop) w ∧
      step recomposedLoop w = none ∧ w.progress.findings = [.ignore 0 2, .ignore 3 5]) ∧
    Bookkeeping recomposedLoop 3 5 := by
  have hfound : (Builtin.kotlinCompose.run recomposedLoop
      { name := "C", annotations := ["Lkotlin/Metadata;"] } {}).findings =
        [.ignore 0 2, .ignore 3 5] := by decide +kernel
  obtain ⟨⟨n, w, hn, hrun, hend, hw⟩, hranges, -⟩ := composable_examination_ends recomposedLoop
    { name := "C", annotations := ["Lkotlin/Metadata;"] } {} (by decide) (by decide)
  rw [hfound] at hw hranges
  obtain ⟨_, _, ⟨⟩, hr⟩ := hranges (.ignore 3 5) (by simp)
  exact ⟨hfound, ⟨n, w, hn, hrun, hend, hw⟩, hr⟩

end Winnow
