/-
  The tests of the mask of default arguments.

  * `HasMask` says which local variable holds the mask, by the name and the descriptor of the
    method;
  * `MaskTest` is a test of the mask with its jump and the place where the jump leads.  From one
    test the walk goes to that place (`Visits`), and `MalformedAt` is a load of the mask that
    starts no test;
  * `Walks` is the walk along the tests without a bound on their number: a walk that ends has an
    outcome, which is nothing if it came to a malformed test.  If all tests jump forwards, every
    walk ends (`exists_walks`), with what `maskJumps?` computes (`maskJumps?_of_walks`).
-/
import Mathlib.Logic.Relation
import Winnow.Builtin
import Winnow.Proofs.Descriptor
import Winnow.Proofs.Pattern.Spans

namespace Winnow.Idiom.DefaultArguments

open Descriptor (Splits IsFieldType)

variable {m : Method} {mask load jump next pos start : Nat} {outcome : Option (List Nat)}
  {jumps : List Nat}

/-! ## The mask -/

/-- The local variables that arguments of these types take: two for `long` and `double`. -/
def width : (types : List String) → Nat
  | [] => 0
  | t :: types => (if t = "J" ∨ t = "D" then 2 else 1) + width types

/-- The mask of a variant, which is its last argument but one, is in this local variable.  A
    constructor has its receiver before the arguments. -/
inductive HasMask (m : Method) (mask : Nat) : Prop
  | method {name : String} {real : List String} {bits marker : String}
      (hname : m.name = name ++ "$default") (hargs : Splits m.desc (real ++ [bits, marker]))
      (hmask : mask = width real)
  | constructor {real : List String} {bits : String} (hname : m.name = "<init>")
      (hargs : Splits m.desc
        (real ++ [bits, "Lkotlin/jvm/internal/DefaultConstructorMarker;"]))
      (hmask : mask = 1 + width real)

theorem slots_of_isFieldType {t : String} (h : IsFieldType t.toList) :
    Descriptor.slots t = if t = "J" ∨ t = "D" then 2 else 1 := by
  have hv : t ≠ "V" := by
    rintro rfl
    generalize ht : "V".toList = cs at h
    cases h with
    | primitive hc => cases ht; revert hc; decide
    | object _ => cases ht
    | array _ => cases ht
  simp [Descriptor.slots, hv]

theorem totalSlots_eq_width {types : List String} (h : ∀ t ∈ types, IsFieldType t.toList) :
    Descriptor.totalSlots types = width types := by
  induction types with
  | nil => rfl
  | cons t types ih =>
    obtain ⟨ht, htypes⟩ := List.forall_mem_cons.1 h
    rw [Descriptor.totalSlots, slots_of_isFieldType ht, ih htypes]
    rfl

theorem isVariantMethod_iff : isVariantMethod m ↔ ∃ name, m.name = name ++ "$default" := by
  simp only [isVariantMethod, Text.endsWith, List.isSuffixOf_iff_suffix]
  constructor
  · rintro ⟨name, hname⟩
    exact ⟨String.ofList name, by rw [← String.toList_inj, String.toList_append]; simp [← hname]⟩
  · rintro ⟨name, hname⟩
    exact ⟨name.toList, by rw [hname, String.toList_append]⟩

theorem isVariantConstructor_iff {real : List String} {bits marker : String}
    (hargs : Descriptor.argumentTypes? m.desc = some (real ++ [bits, marker])) :
    isVariantConstructor m ↔
      m.name = "<init>" ∧ marker = "Lkotlin/jvm/internal/DefaultConstructorMarker;" := by
  simp [isVariantConstructor, hargs]

/-- The mask of a variant, given its arguments. -/
theorem maskSlot?_of_args {real : List String} {bits marker : String}
    (hargs : Descriptor.argumentTypes? m.desc = some (real ++ [bits, marker])) :
    maskSlot? m =
      if isVariantMethod m then some (Descriptor.totalSlots real)
      else if isVariantConstructor m then some (1 + Descriptor.totalSlots real) else none := by
  dsimp only [maskSlot?, guard]
  cases hm : isVariantMethod m with
  | true => simp [hargs]
  | false =>
    cases hc : isVariantConstructor m with
    | true => simp [hargs]
    | false => rfl

theorem exists_args (h : maskSlot? m = some mask) :
    ∃ real bits marker, Descriptor.argumentTypes? m.desc = some (real ++ [bits, marker]) := by
  dsimp only [maskSlot?, guard] at h
  simp only [Option.bind_eq_bind, Option.bind_eq_some_iff] at h
  obtain ⟨_, -, args, hargs, _, hguard, -⟩ := h
  have hlength : 2 ≤ args.length := by
    split at hguard
    · assumption
    · cases hguard
  obtain ⟨bits, marker, hdrop⟩ := List.length_eq_two.1
    (show (args.drop (args.length - 2)).length = 2 by rw [List.length_drop]; omega)
  refine ⟨args.take (args.length - 2), bits, marker, ?_⟩
  rw [hargs, ← hdrop, List.take_append_drop]

theorem maskSlot?_eq_some_iff : maskSlot? m = some mask ↔ HasMask m mask := by
  constructor
  · intro h
    obtain ⟨real, bits, marker, hargs⟩ := exists_args h
    have hsplits := Descriptor.argumentTypes?_eq_some_iff.1 hargs
    have hwidth := totalSlots_eq_width fun t ht => hsplits.2.2 t (List.mem_append_left _ ht)
    rw [maskSlot?_of_args hargs, hwidth] at h
    split at h
    · next hm =>
      obtain ⟨name, hname⟩ := isVariantMethod_iff.1 hm
      exact .method hname hsplits (Option.some.inj h).symm
    · split at h
      · next hc =>
        obtain ⟨hname, rfl⟩ := (isVariantConstructor_iff hargs).1 hc
        exact .constructor hname hsplits (Option.some.inj h).symm
      · cases h
  · intro h
    cases h with
    | method hname hsplits hmask =>
      have hwidth := totalSlots_eq_width fun t ht => hsplits.2.2 t (List.mem_append_left _ ht)
      rw [maskSlot?_of_args (Descriptor.argumentTypes?_eq_some_iff.2 hsplits), hwidth, hmask,
        if_pos (isVariantMethod_iff.2 ⟨_, hname⟩)]
    | constructor hname hsplits hmask =>
      have hargs := Descriptor.argumentTypes?_eq_some_iff.2 hsplits
      have hwidth := totalSlots_eq_width fun t ht => hsplits.2.2 t (List.mem_append_left _ ht)
      have hmethod : ¬ isVariantMethod m := by
        rw [isVariantMethod, hname]
        decide
      rw [maskSlot?_of_args hargs, hwidth, hmask, if_neg hmethod,
        if_pos ((isVariantConstructor_iff hargs).2 ⟨hname, rfl⟩)]

/-! ## Tests -/

/-- `ILOAD mask; any; IAND; IFEQ` from `load` on.  The last is at `jump` and leads to `next`. -/
structure MaskTest (m : Method) (mask load jump next : Nat) : Prop where
  loads : m.code[load]? = some (.var .iload mask)
  between : ∃ bit conj, m.realAfter? load = some bit ∧ m.realAfter? bit = some conj ∧
    m.opcode? conj = some .iand ∧ m.realAfter? conj = some jump
  leads : ∃ l, m.code[jump]? = some (.jump .ifEq l) ∧ m.resolve? l = some next

/-- The first real instruction from `pos` on starts a test. -/
def TestAt (m : Method) (mask pos jump next : Nat) : Prop :=
  ∃ load, m.realFrom? pos = some load ∧ MaskTest m mask load jump next

/-- The first real instruction from `pos` on loads the mask and starts no test. -/
def MalformedAt (m : Method) (mask pos : Nat) : Prop :=
  ∃ load, m.realFrom? pos = some load ∧ m.code[load]? = some (.var .iload mask) ∧
    ∀ jump next, ¬ MaskTest m mask load jump next

/-- The first real instruction from `pos` on, if there is one, does not load the mask. -/
def NoLoadAt (m : Method) (mask pos : Nat) : Prop :=
  ∀ load, m.realFrom? pos = some load → m.code[load]? ≠ some (.var .iload mask)

/-- The places that the walk from `start` comes to: `start`, and from a test where its jump
    leads. -/
def Visits (m : Method) (mask : Nat) : (start pos : Nat) → Prop :=
  Relation.ReflTransGen fun pos next => ∃ jump, TestAt m mask pos jump next

theorem matched?_matchPast_iff {q : Nat} {steps : List Step} (hs : steps ≠ []) :
    (m.matchPast pos steps).matched? = some q ↔ ∃ σ, m.Spans σ steps (pos + 1) (q + 1) := by
  constructor
  · intro h
    obtain ⟨p, -, -, hp, -, -, -, hplace⟩ := Cursor.exists_matches hs h
    cases hp
    exact ⟨_, Cursor.spans_of_run (p := ⟨pos + 1, some pos⟩) rfl hplace
      (Bindings.extends_assignment _)⟩
  · rintro ⟨σ, h⟩
    have hstart : σ.Extends (Cursor.past pos).bindings :=
      ⟨fun _ _ h => (nomatch h), fun _ _ h => (nomatch h), fun _ _ h => (nomatch h)⟩
    obtain ⟨_, heq, hplace, -⟩ := Cursor.run_of_spans (p := ⟨pos + 1, some pos⟩) hs rfl hstart h
    cases heq
    rw [Cursor.matched?, Method.matchPast, hplace]
    rfl

theorem maskTest?_eq_some_iff (hload : m.code[load]? = some (.var .iload mask)) :
    maskTest? m load = some (jump, next) ↔ MaskTest m mask load jump next := by
  have hsteps : [Step.any, .opcode .iand, .opcode .ifEq] ≠ [] := List.cons_ne_nil _ _
  simp only [maskTest?, Option.bind_eq_bind, Option.bind_eq_some_iff,
    matched?_matchPast_iff hsteps]
  constructor
  · rintro ⟨jump', ⟨σ, hspans⟩, next', ⟨l, ⟨e, he, hl⟩, hnext⟩, hpair⟩
    cases hpair
    obtain ⟨op, rfl⟩ := Method.jump?_eq_some_iff.1 hl
    obtain ⟨bit, _, hbit, -, -, conj, e₁, hconj, he₁, hop₁, q, e₂, hq, he₂, hop₂, heq⟩ := hspans
    cases heq
    cases he.symm.trans he₂
    cases hop₂
    exact ⟨hload, ⟨bit, conj, hbit, hconj, (Method.opcode?_of_entry he₁).trans hop₁, hq⟩, l, he,
      hnext⟩
  · rintro ⟨-, ⟨bit, conj, hbit, hconj, hand, hjump⟩, l, hl, hnext⟩
    obtain ⟨e, _, he, -⟩ := Method.isReal_iff.1 (Method.realAfter?_eq_some_iff.1 hbit).2.1
    obtain ⟨e₁, he₁, hop₁⟩ := Option.bind_eq_some_iff.1 hand
    -- the pattern binds no names
    exact ⟨jump, ⟨({} : Bindings).assignment, bit, e, hbit, he, trivial, conj, e₁, hconj, he₁, hop₁,
      jump, _, hjump, hl, rfl, rfl⟩, next, ⟨l, ⟨_, hl, rfl⟩, hnext⟩, rfl⟩

theorem TestAt.unique {jump' next' : Nat} (h : TestAt m mask pos jump next)
    (h' : TestAt m mask pos jump' next') : jump = jump' ∧ next = next' := by
  obtain ⟨load, hload, htest⟩ := h
  obtain ⟨load', hload', htest'⟩ := h'
  obtain rfl := Option.some.inj (hload.symm.trans hload')
  have heq := ((maskTest?_eq_some_iff htest.loads).2 htest).symm.trans
    ((maskTest?_eq_some_iff htest.loads).2 htest')
  cases heq
  exact ⟨rfl, rfl⟩

theorem NoLoadAt.not_testAt (h : NoLoadAt m mask pos) (jump next : Nat) :
    ¬ TestAt m mask pos jump next := by
  rintro ⟨load, hload, htest⟩
  exact h load hload htest.loads

theorem TestAt.not_malformedAt (h : TestAt m mask pos jump next) : ¬ MalformedAt m mask pos := by
  obtain ⟨load, hload, htest⟩ := h
  rintro ⟨load', hload', -, hno⟩
  obtain rfl := Option.some.inj (hload.symm.trans hload')
  exact hno jump next htest

/-- The jump of a test stands behind the place where the walk found the test. -/
theorem TestAt.lt (h : TestAt m mask pos jump next) : pos < jump ∧ m.isReal jump := by
  obtain ⟨load, hload, -, ⟨bit, conj, hbit, hconj, -, hjump⟩, -⟩ := h
  have h₀ := (Method.realFrom?_eq_some_iff.1 hload).1
  have h₁ := (Method.realAfter?_eq_some_iff.1 hbit).1
  have h₂ := (Method.realAfter?_eq_some_iff.1 hconj).1
  obtain ⟨h₃, hr, -⟩ := Method.realAfter?_eq_some_iff.1 hjump
  exact ⟨by omega, hr⟩

/-! ## Walks -/

/-- What the walk from `pos` on ends with: the jumps of the tests, or nothing when it comes to a
    malformed one.  Where no load of the mask follows it ends. -/
inductive Walks (m : Method) (mask : Nat) : (pos : Nat) → (outcome : Option (List Nat)) → Prop
  | ends {pos : Nat} (h : NoLoadAt m mask pos) : Walks m mask pos (some [])
  | breaks {pos : Nat} (h : MalformedAt m mask pos) : Walks m mask pos none
  | follows {pos jump next : Nat} {outcome : Option (List Nat)} (h : TestAt m mask pos jump next)
      (rest : Walks m mask next outcome) : Walks m mask pos (outcome.map (jump :: ·))

/-- Every test of the mask jumps forwards. -/
def JumpsForward (m : Method) (mask : Nat) : Prop :=
  ∀ load jump next, MaskTest m mask load jump next → jump < next

theorem JumpsForward.lt (h : JumpsForward m mask) (ht : TestAt m mask pos jump next) :
    jump < next := by
  obtain ⟨load, -, htest⟩ := ht
  exact h load jump next htest

/-- At every place the walk ends, breaks or goes on. -/
theorem walk_cases (m : Method) (mask pos : Nat) :
    NoLoadAt m mask pos ∨ MalformedAt m mask pos ∨ ∃ jump next, TestAt m mask pos jump next := by
  by_cases hload : ∃ load, m.realFrom? pos = some load ∧ m.code[load]? = some (.var .iload mask)
  · obtain ⟨load, hload, hmask⟩ := hload
    by_cases htest : ∃ jump next, MaskTest m mask load jump next
    · obtain ⟨jump, next, htest⟩ := htest
      exact Or.inr (Or.inr ⟨jump, next, load, hload, htest⟩)
    · exact Or.inr (Or.inl ⟨load, hload, hmask, fun jump next h => htest ⟨jump, next, h⟩⟩)
  · exact Or.inl fun load h hmask => hload ⟨load, h, hmask⟩

/-- If the tests jump forwards, every walk ends: by induction on what is left of the method. -/
theorem exists_walks (h : JumpsForward m mask) (pos : Nat) :
    ∃ outcome, Walks m mask pos outcome := by
  induction hleft : m.size - pos using Nat.strongRecOn generalizing pos with
  | _ left ih =>
    rcases walk_cases m mask pos with hend | hbroken | ⟨jump, next, htest⟩
    · exact ⟨_, .ends hend⟩
    · exact ⟨_, .breaks hbroken⟩
    · obtain ⟨hlt, hr⟩ := htest.lt
      have hnext := h.lt htest
      have hsize := Method.lt_size_of_isReal hr
      obtain ⟨outcome, hwalk⟩ := ih (m.size - next) (by omega) next rfl
      exact ⟨_, .follows htest hwalk⟩

/-- The jumps on a walk stand in order, behind its start. -/
theorem Walks.pairwise (h : JumpsForward m mask) (hw : Walks m mask pos outcome) :
    ∀ jumps, outcome = some jumps → jumps.Pairwise (· < ·) ∧ ∀ j ∈ jumps, pos < j := by
  induction hw with
  | ends _ =>
    rintro _ ⟨⟩
    exact ⟨List.Pairwise.nil, by simp⟩
  | breaks _ => rintro _ ⟨⟩
  | follows htest _ ih =>
    intro jumps hjumps
    obtain ⟨rest, rfl, rfl⟩ := Option.map_eq_some_iff.1 hjumps
    obtain ⟨hrest, hbehind⟩ := ih rest rfl
    have hpos := htest.lt.1
    have hnext := h.lt htest
    constructor
    · exact List.pairwise_cons.2 ⟨fun j hj => Nat.lt_trans hnext (hbehind j hj), hrest⟩
    · refine List.forall_mem_cons.2 ⟨hpos, fun j hj => ?_⟩
      exact Nat.lt_trans hpos (Nat.lt_trans hnext (hbehind j hj))

/-- The bounded walk comes to the same end, if it may make as many rounds as there are positions
    left. -/
theorem maskJumps?_of_walks (h : JumpsForward m mask) (hw : Walks m mask pos outcome) {rounds : Nat}
    (hrounds : m.size - pos < rounds) : maskJumps? m mask rounds pos = outcome := by
  induction hw generalizing rounds with
  | ends hend =>
    obtain ⟨rounds, rfl⟩ := Nat.exists_eq_add_of_le' (Nat.zero_lt_of_lt hrounds)
    rw [maskJumps?]
    split
    · rfl
    · next load hload => rw [if_neg (hend load hload)]
  | breaks hbroken =>
    obtain ⟨rounds, rfl⟩ := Nat.exists_eq_add_of_le' (Nat.zero_lt_of_lt hrounds)
    obtain ⟨load, hload, hmask, hno⟩ := hbroken
    have htest : maskTest? m load = none := by
      cases htest : maskTest? m load with
      | none => rfl
      | some found => exact absurd ((maskTest?_eq_some_iff hmask).1 htest) (hno _ _)
    rw [maskJumps?, hload]
    simp only [hmask, if_true, htest]
  | follows htest _ ih =>
    obtain ⟨rounds, rfl⟩ := Nat.exists_eq_add_of_le' (Nat.zero_lt_of_lt hrounds)
    have hnext := h.lt htest
    obtain ⟨hpos, hr⟩ := htest.lt
    have hsize := Method.lt_size_of_isReal hr
    obtain ⟨load, hload, htest⟩ := htest
    rw [maskJumps?, hload]
    simp only [htest.loads, if_true, (maskTest?_eq_some_iff htest.loads).2 htest]
    rw [ih (by omega)]

theorem visits_iff_of_testAt (h : TestAt m mask pos jump next) {p : Nat} :
    Visits m mask pos p ↔ p = pos ∨ Visits m mask next p := by
  rw [Visits, Relation.ReflTransGen.cases_head_iff]
  refine or_congr eq_comm ⟨?_, fun hv => ⟨next, ⟨jump, h⟩, hv⟩⟩
  rintro ⟨next', ⟨jump', htest'⟩, hv⟩
  obtain ⟨-, rfl⟩ := h.unique htest'
  exact hv

theorem visits_iff_of_not_testAt (h : ∀ jump next, ¬ TestAt m mask pos jump next) {p : Nat} :
    Visits m mask pos p ↔ p = pos := by
  rw [Visits, Relation.ReflTransGen.cases_head_iff]
  refine ⟨?_, fun hp => Or.inl hp.symm⟩
  rintro (hp | ⟨next, ⟨jump, htest⟩, -⟩)
  · exact hp.symm
  · exact absurd htest (h jump next)

/-- A walk breaks iff it comes to a malformed test. -/
theorem Walks.eq_none_iff (hw : Walks m mask pos outcome) :
    outcome = none ↔ ∃ p, Visits m mask pos p ∧ MalformedAt m mask p := by
  induction hw with
  | @ends pos hend =>
    refine iff_of_false nofun ?_
    rintro ⟨p, hv, load, hload, hmask, -⟩
    obtain rfl := (visits_iff_of_not_testAt hend.not_testAt).1 hv
    exact hend load hload hmask
  | @breaks pos hbroken => exact iff_of_true rfl ⟨pos, .refl, hbroken⟩
  | @follows pos jump next outcome htest _ ih =>
    rw [Option.map_eq_none_iff, ih]
    refine exists_congr fun p => ?_
    rw [visits_iff_of_testAt htest]
    refine ⟨fun ⟨hv, hbroken⟩ => ⟨Or.inr hv, hbroken⟩, ?_⟩
    rintro ⟨rfl | hv, hbroken⟩
    · exact absurd hbroken htest.not_malformedAt
    · exact ⟨hv, hbroken⟩

/-- The jumps found are those of the tests that the walk comes to. -/
theorem Walks.mem_iff (hw : Walks m mask pos outcome) :
    ∀ jumps, outcome = some jumps → ∀ jump, jump ∈ jumps ↔
      ∃ p next, Visits m mask pos p ∧ TestAt m mask p jump next := by
  induction hw with
  | @ends pos hend =>
    rintro _ ⟨⟩ jump
    refine iff_of_false List.not_mem_nil ?_
    rintro ⟨p, next, hv, htest⟩
    obtain rfl := (visits_iff_of_not_testAt hend.not_testAt).1 hv
    exact hend.not_testAt jump next htest
  | breaks _ => rintro _ ⟨⟩
  | @follows pos jump next outcome htest _ ih =>
    intro jumps hjumps j
    obtain ⟨rest, rfl, rfl⟩ := Option.map_eq_some_iff.1 hjumps
    rw [List.mem_cons, ih rest rfl]
    simp only [visits_iff_of_testAt htest]
    constructor
    · rintro (rfl | ⟨p, next', hv, htest'⟩)
      · exact ⟨pos, next, Or.inl rfl, htest⟩
      · exact ⟨p, next', Or.inr hv, htest'⟩
    · rintro ⟨p, next', rfl | hv, htest'⟩
      · exact Or.inl (htest'.unique htest).1
      · exact Or.inr ⟨p, next', hv, htest'⟩

/-! ## Findings -/

/-- The method starts with the rejection of calls through `super`, which ends with the throw at
    `last`. -/
def Rejects (m : Method) (last : Nat) : Prop :=
  ∃ σ, m.Spans σ rejection 0 (last + 1)

theorem matched?_rejection_iff {last : Nat} :
    (m.matchFrom 0 rejection).matched? = some last ↔ Rejects m last := by
  refine ⟨fun h => ⟨_, Method.spans_of_matched? h⟩, ?_⟩
  rintro ⟨σ, h⟩
  have hne : rejection ≠ [] := List.cons_ne_nil _ _
  rw [Cursor.matched?, (Method.matchFrom_of_spans hne h).1]
  rfl

theorem Rejects.opcode? {last : Nat} (h : Rejects m last) : m.opcode? last = some .athrow := by
  obtain ⟨σ, h⟩ := h
  have hsteps : rejection = rejection.dropLast ++ [.opcode .athrow] := rfl
  rw [hsteps] at h
  obtain ⟨-, -, e, he, hop⟩ := h.last
  exact (Method.opcode?_of_entry he).trans hop

/-- Where the walk starts: behind the rejection, if there is one. -/
def walkStart (rejected : Option Nat) : Nat :=
  (rejected.map (· + 1)).getD 0

/-- What is found once the walk has ended. -/
def reported (rejected : Option Nat) : (outcome : Option (List Nat)) → List Finding
  | none => []
  | some jumps => (rejected.map (Finding.ignore 0)).toList ++ jumps.map fun pos => .ignore pos pos

theorem findings_eq_reported {c : ClassInfo} (hsynthetic : m.isSynthetic) (hkotlin : c.isKotlin)
    (hmask : HasMask m mask) (h : JumpsForward m mask) {rejected : Option Nat}
    (hrejected : (m.matchFrom 0 rejection).matched? = rejected)
    (hw : Walks m mask (walkStart rejected) outcome) :
    findings m c = reported rejected outcome := by
  have hjumps : maskJumps? m mask (m.size + 1) (walkStart rejected) = outcome :=
    maskJumps?_of_walks h hw (by omega)
  rw [findings, hsynthetic, hkotlin]
  simp only [Bool.and_self, if_true, maskSlot?_eq_some_iff.2 hmask, hrejected]
  rw [walkStart] at hjumps
  rw [hjumps]
  cases outcome <;> rfl

theorem hasMask_of_findings {c : ClassInfo} (h : findings m c ≠ []) :
    m.isSynthetic ∧ c.isKotlin ∧ ∃ mask, HasMask m mask := by
  unfold findings at h
  split at h
  · next hboth =>
    rw [Bool.and_eq_true] at hboth
    split at h
    · exact absurd rfl h
    · next mask hmask => exact ⟨hboth.1, hboth.2, mask, maskSlot?_eq_some_iff.1 hmask⟩
  · exact absurd rfl h

end Winnow.Idiom.DefaultArguments

namespace Winnow

open Idiom.DefaultArguments

/-- **Tests of the mask.**  Only synthetic variants in Kotlin classes that have a mask are looked
    at.  If all tests of the mask jump forwards, the walk along the tests ends.  When it comes to
    a malformed test, nothing is found, not even the rejection of calls through `super`.
    Otherwise the rejection is found, if the method starts with it, and behind it the jump of
    every test that the walk comes to, in the order of their positions. -/
theorem mask_tests_all_or_none (m : Method) (c : ClassInfo) (scratch : ClassScratch) :
    ((Builtin.kotlinDefaultArguments.run m c scratch).findings ≠ [] →
      m.isSynthetic ∧ c.isKotlin ∧ ∃ mask, HasMask m mask) ∧
    ∀ mask, m.isSynthetic → c.isKotlin → HasMask m mask → JumpsForward m mask →
      ∃ rejected outcome,
        (∀ last, rejected = some last ↔ Rejects m last) ∧
        Walks m mask (walkStart rejected) outcome ∧
        ((∃ pos, Visits m mask (walkStart rejected) pos ∧ MalformedAt m mask pos) →
          (Builtin.kotlinDefaultArguments.run m c scratch).findings = []) ∧
        ((¬ ∃ pos, Visits m mask (walkStart rejected) pos ∧ MalformedAt m mask pos) →
          ∃ jumps : List Nat,
            (Builtin.kotlinDefaultArguments.run m c scratch).findings =
              (rejected.map (Finding.ignore 0)).toList ++ jumps.map (fun pos => .ignore pos pos) ∧
            jumps.Pairwise (· < ·) ∧
            (∀ last, rejected = some last →
              m.opcode? last = some .athrow ∧ ∀ jump ∈ jumps, last < jump) ∧
            ∀ jump, jump ∈ jumps ↔ ∃ pos next,
              Visits m mask (walkStart rejected) pos ∧ TestAt m mask pos jump next) := by
  refine ⟨hasMask_of_findings, fun mask hsynthetic hkotlin hmask hforward => ?_⟩
  obtain ⟨outcome, hw⟩ :=
    exists_walks hforward (walkStart (m.matchFrom 0 rejection).matched?)
  have hfound : (Builtin.kotlinDefaultArguments.run m c scratch).findings = reported _ outcome :=
    findings_eq_reported hsynthetic hkotlin hmask hforward rfl hw
  refine ⟨_, outcome, fun last => matched?_rejection_iff, hw, fun hbroken => ?_, fun hgood => ?_⟩
  · rw [hfound, hw.eq_none_iff.2 hbroken]
    rfl
  · rw [← hw.eq_none_iff] at hgood
    obtain ⟨jumps, rfl⟩ := Option.ne_none_iff_exists'.1 hgood
    obtain ⟨hsorted, hbehind⟩ := hw.pairwise hforward jumps rfl
    refine ⟨jumps, hfound, hsorted, fun last hlast => ⟨?_, fun jump hjump => ?_⟩,
      hw.mem_iff jumps rfl⟩
    · exact (matched?_rejection_iff.1 hlast).opcode?
    · have := hbehind jump hjump
      rw [hlast] at this
      exact Nat.lt_of_succ_lt this

/-- A variant of a function with a `long` argument, which rejects calls through `super` and has
    defaults for the two other arguments. -/
def defaultingVariant : Method where
  name := "f$default"
  desc := "(LFoo;JZILjava/lang/Object;)V"
  access := ⟨0x1008⟩
  code := #[.var .aload 5, .jump .ifNull ⟨0⟩, .type .new "java/lang/UnsupportedOperationException",
    .plain .dup,
    .constant (.string
      "Super calls with default arguments not supported in this target, function: f"),
    .call .invokeSpecial "java/lang/UnsupportedOperationException" "<init>" "(Ljava/lang/String;)V"
      false,
    .plain .athrow, .label ⟨0⟩, .var .iload 4, .plain .iconst1, .plain .iand, .jump .ifEq ⟨1⟩,
    .plain .aconstNull, .var .astore 0, .label ⟨1⟩, .var .iload 4, .push 0x10 4, .plain .iand,
    .jump .ifEq ⟨2⟩, .plain .iconst0, .var .istore 3, .label ⟨2⟩, .plain .vreturn]
  placed_nodup := by decide
  mentioned_placed := by decide

/-- The rejection, and behind it the jumps of the two tests. -/
theorem mask_tests_all_or_none_defaulting :
    HasMask defaultingVariant 4 ∧ JumpsForward defaultingVariant 4 ∧
    (Builtin.kotlinDefaultArguments.run defaultingVariant
      { name := "Foo", annotations := ["Lkotlin/Metadata;"] } {}).findings =
        [.ignore 0 6, .ignore 11 11, .ignore 18 18] ∧
    Rejects defaultingVariant 6 ∧ ∃ outcome, Walks defaultingVariant 4 7 outcome := by
  have hmask : HasMask defaultingVariant 4 := maskSlot?_eq_some_iff.1 (by decide +kernel)
  have hforward : JumpsForward defaultingVariant 4 := by
    intro load jump next htest
    have hall : ∀ load < defaultingVariant.size, ∀ found ∈ maskTest? defaultingVariant load,
        found.1 < found.2 := by decide +kernel
    exact hall load (Method.lt_size_of_entry htest.loads) (jump, next)
      ((maskTest?_eq_some_iff htest.loads).2 htest)
  obtain ⟨-, h⟩ := mask_tests_all_or_none defaultingVariant
    { name := "Foo", annotations := ["Lkotlin/Metadata;"] } {}
  obtain ⟨rejected, outcome, hrejected, hw, -⟩ := h 4 (by decide) (by decide) hmask hforward
  have hrejects : Rejects defaultingVariant 6 := matched?_rejection_iff.1 (by decide +kernel)
  obtain rfl := (hrejected 6).2 hrejects
  exact ⟨hmask, hforward, by decide +kernel, hrejects, outcome, hw⟩

end Winnow
