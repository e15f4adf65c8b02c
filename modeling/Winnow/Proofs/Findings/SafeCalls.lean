/-
  Chains of safe calls.

  * `nullTests` are the tests for null that jump to a label.  Tests are collected in rows by
    label; `mem_testsByLabel_iff` says that the row of a label has all its tests, in order, so
    that the last one stands last in the code;
  * `IsSafeCallChain` says when these tests are a chain, and `isChain_iff` that this is what
    is checked;
  * `mem_findings_iff`: what is found about the method are the replaced branches of its chains.
-/
import Mathlib.Data.List.Induction
import Mathlib.Data.List.Nodup
import Mathlib.Data.Set.Subsingleton
import Winnow.Builtin
import Winnow.Proofs.Findings.Basic
import Winnow.Proofs.Navigation.Walk
import Winnow.Proofs.Sorted

namespace Winnow.Idiom.SafeCall

variable {m : Method} {c : ClassInfo} {l : Label} {pos place last target id : Nat}
  {ts : List Nat} {rows : List (Nat × List Nat)}

/-- The tests for null that jump to the label. -/
def nullTests (m : Method) (l : Label) : Set Nat :=
  {p | m.code[p]? = some (.jump .ifNull l)}

/-- The real instruction before `pos` has opcode `op`. -/
def Preceded (m : Method) (op : Opcode) (pos : Nat) : Prop :=
  ∃ p, m.realBefore? pos = some p ∧ m.hasOpcode op p

/-- The code that starts at `target` yields null: it drops the tested value, which was copied
    before each test, and loads null, or it just loads null and each test had its value from a
    variable. -/
def YieldsNull (m : Method) (l : Label) (target : Nat) : Prop :=
  (m.hasOpcode .pop target ∧ (∃ p, m.realAfter? target = some p ∧ m.hasOpcode .aconstNull p) ∧
      ∀ p ∈ nullTests m l, Preceded m .dup p) ∨
    m.hasOpcode .aconstNull target ∧ ∀ p ∈ nullTests m l, Preceded m .aload p

/-- The tests that jump to the label, which stands at `place`, are a chain of safe calls: there
    are several, they stand before the label, control jumps around it, and the code behind it
    yields null. -/
structure IsSafeCallChain (m : Method) (l : Label) (place target : Nat) : Prop where
  placed : m.code[place]? = some (.label l)
  several : (nullTests m l).Nontrivial
  before : ∀ p ∈ nullTests m l, p < place
  around : Preceded m .goto place
  first : m.realAfter? place = some target
  yieldsNull : YieldsNull m l target

/-! ## Tests by label -/

/-- The entry at `pos` jumps to the label. -/
def jumpsTo (m : Method) (l : Label) (pos : Nat) : Bool :=
  m.code[pos]?.bind Entry.jump? == some l

/-- The tests for null that jump to the label, in order. -/
def testsTo (m : Method) (l : Label) : List Nat :=
  (NullCheck.jumps m .ifNull).filter (jumpsTo m l)

theorem mem_jumps_iff {op : Opcode} :
    pos ∈ NullCheck.jumps m op ↔ ∃ l, m.code[pos]? = some (.jump op l) := by
  rw [NullCheck.jumps, List.mem_filter, Method.mem_positions]
  constructor
  · rintro ⟨-, hop⟩
    split at hop
    · next op' l he => exact ⟨l, by rw [he, beq_iff_eq.1 hop]⟩
    · cases hop
  · rintro ⟨l, he⟩
    exact ⟨Method.lt_size_of_entry he, by simp [he]⟩

theorem mem_testsTo : pos ∈ testsTo m l ↔ pos ∈ nullTests m l := by
  rw [testsTo, List.mem_filter, mem_jumps_iff]
  constructor
  · rintro ⟨⟨l', he⟩, hl⟩
    obtain rfl : l' = l := by simpa [jumpsTo, he, Entry.jump?] using hl
    exact he
  · intro he
    have he : m.code[pos]? = some (.jump .ifNull l) := he
    exact ⟨⟨l, he⟩, by simp [jumpsTo, he, Entry.jump?]⟩

theorem pairwise_testsTo (m : Method) (l : Label) : (testsTo m l).Pairwise (· < ·) :=
  (List.pairwise_lt_range.filter _).filter _

theorem lookup_addTest :
    (addTest m rows pos).lookup id =
      if jumpsTo m ⟨id⟩ pos then some ((rows.lookup id).getD [] ++ [pos]) else rows.lookup id := by
  unfold addTest jumpsTo
  cases m.code[pos]?.bind Entry.jump? with
  | none => rfl
  | some l =>
    by_cases h : id = l.id
    · subst h
      simp [Sorted.lookup_put_self]
    · have hne : l ≠ ⟨id⟩ := by rintro rfl; exact h rfl
      simp [Sorted.lookup_put_of_ne h, hne]

theorem pairwise_keys_addTest (h : (rows.map (·.1)).Pairwise (· < ·)) :
    ((addTest m rows pos).map (·.1)).Pairwise (· < ·) := by
  unfold addTest
  split
  · rw [Sorted.keys_put]
    exact Sorted.pairwise_insert h
  · exact h

theorem pairwise_keys_testsByLabel (m : Method) :
    ((testsByLabel m).map (·.1)).Pairwise (· < ·) :=
  List.foldlRecOn (motive := fun rows : List (Nat × List Nat) =>
    (rows.map (·.1)).Pairwise (· < ·)) _ _ .nil fun _ h _ _ => pairwise_keys_addTest h

/-- Invariant of collecting: a label has a row of its tests, if it has some. -/
theorem lookup_foldl_addTest (js : List Nat) (id : Nat) :
    (js.foldl (addTest m) []).lookup id =
      if js.filter (jumpsTo m ⟨id⟩) = [] then none else some (js.filter (jumpsTo m ⟨id⟩)) := by
  induction js using List.reverseRecOn with
  | nil => rfl
  | append_singleton js pos ih =>
    rw [List.foldl_concat, lookup_addTest, ih, List.filter_append]
    by_cases hjump : jumpsTo m ⟨id⟩ pos
    · rw [if_pos hjump, List.filter_singleton, hjump]
      split
      · next hnone => simp [hnone]
      · simp
    · rw [if_neg hjump, List.filter_singleton]
      simp [hjump]

/-- **Collecting by label gives each label all its tests.** -/
theorem mem_testsByLabel_iff :
    (id, ts) ∈ testsByLabel m ↔ ts = testsTo m ⟨id⟩ ∧ ts ≠ [] := by
  have hnodup := (pairwise_keys_testsByLabel m).imp (S := (· ≠ ·)) fun h => Nat.ne_of_lt h
  rw [Sorted.mem_iff_lookup hnodup, testsByLabel, lookup_foldl_addTest]
  show (if testsTo m ⟨id⟩ = [] then none else some (testsTo m ⟨id⟩)) = some ts ↔ _
  split
  · next hnone =>
    rw [hnone]
    exact ⟨fun h => (by cases h), fun ⟨h, hne⟩ => absurd h hne⟩
  · next hsome =>
    rw [Option.some.injEq, eq_comm]
    exact ⟨fun h => ⟨h, h ▸ hsome⟩, And.left⟩

/-! ## Chains -/

theorem one_lt_length_testsTo : 1 < (testsTo m l).length ↔ (nullTests m l).Nontrivial := by
  have hsorted := pairwise_testsTo m l
  have hmem : ∀ p, p ∈ testsTo m l ↔ p ∈ nullTests m l := fun _ => mem_testsTo
  match htests : testsTo m l with
  | [] =>
    rw [htests] at hmem
    refine iff_of_false (by simp) ?_
    rintro ⟨p, hp, -⟩
    exact List.not_mem_nil ((hmem p).2 hp)
  | [p] =>
    rw [htests] at hmem
    refine iff_of_false (by simp) ?_
    rintro ⟨q, hq, q', hq', hne⟩
    rw [List.mem_singleton.1 ((hmem q).2 hq), List.mem_singleton.1 ((hmem q').2 hq')] at hne
    exact hne rfl
  | p :: q :: rest =>
    rw [htests] at hmem hsorted
    have hlt : p < q := (List.pairwise_cons.1 hsorted).1 q List.mem_cons_self
    exact iff_of_true (by simp) ⟨p, (hmem p).1 (by simp), q, (hmem q).1 (by simp), by omega⟩

/-- The tests of a label are collected in order, so that the last one is the greatest. -/
theorem isGreatest_of_getLast? (h : (testsTo m l).getLast? = some last) :
    IsGreatest (nullTests m l) last := by
  obtain ⟨ts, hts⟩ := List.getLast?_eq_some_iff.1 h
  refine ⟨mem_testsTo.1 (by simp [hts]), fun p hp => ?_⟩
  have hmem : p ∈ ts ++ [last] := hts ▸ mem_testsTo.2 hp
  have hsorted := hts ▸ pairwise_testsTo m l
  rcases List.mem_append.1 hmem with hin | hin
  · exact Nat.le_of_lt
      ((List.pairwise_append.1 hsorted).2.2 p hin last (List.mem_singleton_self last))
  · rw [List.mem_singleton.1 hin]

theorem exists_last (h : (nullTests m l).Nontrivial) :
    ∃ last, (testsTo m l).getLast? = some last := by
  obtain ⟨p, hp, -⟩ := h
  have hne : testsTo m l ≠ [] := List.ne_nil_of_mem (mem_testsTo.2 hp)
  exact ⟨_, List.getLast?_eq_some_getLast hne⟩

theorem opcodeBefore?_eq_some_iff {op : Opcode} :
    opcodeBefore? m pos = some op ↔ Preceded m op pos := by
  rw [opcodeBefore?, Option.bind_eq_some_iff]
  simp only [Preceded, Method.hasOpcode, beq_iff_eq]

theorem all_opcodeBefore? {op : Opcode} :
    ((testsTo m l).all fun test => opcodeBefore? m test == some op) ↔
      ∀ p ∈ nullTests m l, Preceded m op p := by
  simp only [List.all_eq_true, beq_iff_eq, opcodeBefore?_eq_some_iff, mem_testsTo]

/-- Opcodes are matched by successive instructions. -/
theorem isActive_opcodes_iff {ops : List Opcode} :
    (m.matchFrom pos (ops.map .opcode)).isActive ↔
      ∃ places, m.Successive (m.realFrom? pos) places ∧
        List.Forall₂ (fun op p => m.hasOpcode op p) ops places := by
  have hextends : ({} : Bindings).assignment.Extends {} := Bindings.extends_assignment _
  rw [Method.matchFrom, Cursor.start, Cursor.isActive_run_iff]
  simp only [Method.Matches, List.forall₂_map_left_iff, Step.Holds, Method.hasOpcode_iff]
  constructor
  · rintro ⟨σ, places, -, hsucc, hmatches⟩
    exact ⟨places, hsucc, hmatches⟩
  · rintro ⟨places, hsucc, hmatches⟩
    exact ⟨_, places, hextends, hsucc, hmatches⟩

theorem isActive_pop_null_iff :
    (m.matchFrom pos [.opcode .pop, .opcode .aconstNull]).isActive ↔
      ∃ p q, m.realFrom? pos = some p ∧ m.hasOpcode .pop p ∧ m.realAfter? p = some q ∧
        m.hasOpcode .aconstNull q := by
  rw [show [Step.opcode .pop, .opcode .aconstNull] = [Opcode.pop, .aconstNull].map .opcode from rfl,
    isActive_opcodes_iff]
  constructor
  · rintro ⟨_, hsucc, ⟨⟩ | ⟨hp, ⟨⟩ | ⟨hq, ⟨⟩⟩⟩⟩
    exact ⟨_, _, hsucc.1, hp, hsucc.2.1, hq⟩
  · rintro ⟨p, q, hp, hpop, hq, hnull⟩
    exact ⟨[p, q], ⟨hp, hq, trivial⟩, .cons hpop (.cons hnull .nil)⟩

theorem isActive_null_iff :
    (m.matchFrom pos [.opcode .aconstNull]).isActive ↔
      ∃ p, m.realFrom? pos = some p ∧ m.hasOpcode .aconstNull p := by
  rw [show [Step.opcode .aconstNull] = [Opcode.aconstNull].map .opcode from rfl,
    isActive_opcodes_iff]
  constructor
  · rintro ⟨_, hsucc, ⟨⟩ | ⟨hp, ⟨⟩⟩⟩
    exact ⟨_, hsucc.1, hp⟩
  · rintro ⟨p, hp, hnull⟩
    exact ⟨[p], ⟨hp, trivial⟩, .cons hnull .nil⟩

theorem yieldsNull_iff :
    (if (m.matchFrom place [.opcode .pop, .opcode .aconstNull]).isActive then
        (testsTo m l).all fun test => opcodeBefore? m test == some .dup
      else
        (m.matchFrom place [.opcode .aconstNull]).isActive &&
          (testsTo m l).all fun test => opcodeBefore? m test == some .aload) = true ↔
      ∃ target, m.realFrom? place = some target ∧ YieldsNull m l target := by
  split
  · next hdrops =>
    obtain ⟨target, p, htarget, hpop, hp, hnull⟩ := isActive_pop_null_iff.1 hdrops
    rw [all_opcodeBefore?]
    constructor
    · exact fun hdup => ⟨target, htarget, Or.inl ⟨hpop, ⟨p, hp, hnull⟩, hdup⟩⟩
    · rintro ⟨_, htarget', ⟨-, -, hdup⟩ | ⟨hnull', -⟩⟩
      · exact hdup
      · -- one instruction cannot drop a value and load null
        cases htarget.symm.trans htarget'
        rw [Method.hasOpcode, beq_iff_eq] at hpop hnull'
        rw [hpop] at hnull'
        cases hnull'
  · next hdrops =>
    rw [Bool.and_eq_true, all_opcodeBefore?, isActive_null_iff]
    constructor
    · rintro ⟨⟨target, htarget, hnull⟩, hload⟩
      exact ⟨target, htarget, Or.inr ⟨hnull, hload⟩⟩
    · rintro ⟨target, htarget, ⟨hpop, ⟨p, hp, hnull⟩, -⟩ | ⟨hnull, hload⟩⟩
      · exact absurd (isActive_pop_null_iff.2 ⟨target, p, htarget, hpop, hp, hnull⟩) hdrops
      · exact ⟨⟨target, htarget, hnull⟩, hload⟩

theorem realFrom?_of_label (h : m.code[place]? = some (.label l)) :
    m.realFrom? place = m.realAfter? place := by
  have htarget := Method.target?_eq_bind_realAfter? (m := m) (l := l)
  rwa [Method.target?, Method.resolve?_eq_some_iff.2 h] at htarget

/-- What is checked of the tests of a label is that they are a chain. -/
theorem isChain_iff (hseveral : (nullTests m l).Nontrivial) :
    isChain m l (testsTo m l) ↔ ∃ place target, IsSafeCallChain m l place target := by
  unfold isChain
  split
  · next hnone =>
    refine iff_of_false (by simp) ?_
    rintro ⟨place, target, h⟩
    rw [Method.resolve?_eq_some_iff.2 h.placed] at hnone
    cases hnone
  · next place hplace =>
    have hlabel := Method.entry_of_resolve? hplace
    rw [Bool.and_eq_true, Bool.and_eq_true, yieldsNull_iff, beq_iff_eq, opcodeBefore?_eq_some_iff,
      realFrom?_of_label hlabel, List.all_eq_true]
    constructor
    · rintro ⟨⟨hle, haround⟩, target, hfirst, hnull⟩
      refine ⟨place, target, hlabel, hseveral, fun p hp => ?_, haround, hfirst, hnull⟩
      have hle : p ≤ place := of_decide_eq_true (hle p (mem_testsTo.2 hp))
      have hne : p ≠ place := by
        rintro rfl
        cases hlabel.symm.trans hp
      omega
    · rintro ⟨place', target, h⟩
      obtain rfl := Method.place_unique h.placed hlabel
      exact ⟨⟨fun p hp => decide_eq_true (Nat.le_of_lt (h.before p (mem_testsTo.1 hp))), h.around⟩,
        target, h.first, h.yieldsNull⟩

theorem mem_chains_iff :
    ts ∈ chains m ↔ ∃ l place target, IsSafeCallChain m l place target ∧ ts = testsTo m l := by
  simp only [chains, List.mem_map, List.mem_filter, Bool.and_eq_true, decide_eq_true_eq]
  constructor
  · rintro ⟨⟨id, ts⟩, ⟨hrow, hlength, hchain⟩, rfl⟩
    obtain ⟨rfl, -⟩ := mem_testsByLabel_iff.1 hrow
    obtain ⟨place, target, h⟩ := (isChain_iff (one_lt_length_testsTo.1 hlength)).1 hchain
    exact ⟨⟨id⟩, place, target, h, rfl⟩
  · rintro ⟨l, place, target, h, rfl⟩
    have hlength := one_lt_length_testsTo.2 h.several
    refine ⟨(l.id, testsTo m l), ⟨mem_testsByLabel_iff.2 ⟨rfl, ?_⟩, hlength, ?_⟩, rfl⟩
    · exact List.ne_nil_of_length_pos (by omega)
    · exact (isChain_iff h.several).2 ⟨place, target, h⟩

/-- A test belongs to one chain. -/
theorem nodup_flatten_chains (m : Method) : (chains m).flatten.Nodup := by
  rw [List.nodup_flatten]
  constructor
  · intro ts hts
    obtain ⟨l, -, -, -, rfl⟩ := mem_chains_iff.1 hts
    exact (pairwise_testsTo m l).imp fun h => Nat.ne_of_lt h
  · refine List.pairwise_map.2 (List.Pairwise.filter _ ?_)
    refine (List.pairwise_map.1 (pairwise_keys_testsByLabel m)).imp_of_mem fun hr hr' hlt => ?_
    rintro p hp hp'
    obtain ⟨hts, -⟩ := mem_testsByLabel_iff.1 hr
    obtain ⟨hts', -⟩ := mem_testsByLabel_iff.1 hr'
    rw [hts, mem_testsTo] at hp
    rw [hts', mem_testsTo] at hp'
    have heq := hp.symm.trans hp'
    simp only [Option.some.injEq, Entry.jump.injEq, Label.mk.injEq, true_and] at heq
    omega

/-! ## Findings -/

/-- The branches that the tests of a chain get. -/
def chainGroups (last target : Nat) : List Group :=
  [[⟨last, 0⟩], [⟨target, 0⟩]]

namespace IsSafeCallChain

theorem place_lt (h : IsSafeCallChain m l place target) : place < target :=
  (Method.realAfter?_eq_some_iff.1 h.first).1

theorem lt_target (h : IsSafeCallChain m l place target) (hlast : last ∈ nullTests m l) :
    last < target :=
  Nat.lt_trans (h.before last hlast) h.place_lt

theorem unique {place' target' : Nat} (h : IsSafeCallChain m l place target)
    (h' : IsSafeCallChain m l place' target') : target = target' := by
  obtain rfl := Method.place_unique h.placed h'.placed
  exact Option.some.inj (h.first.symm.trans h'.first)

theorem ofChain_eq (h : IsSafeCallChain m l place target)
    (hlast : (testsTo m l).getLast? = some last) :
    ofChain m (testsTo m l) =
      (testsTo m l).map fun test => .replace test (chainGroups last target) := by
  have htest := (isGreatest_of_getLast? hlast).1
  have hentry : m.code[last]? = some (.jump .ifNull l) := htest
  have htarget : m.target? l = some target := by
    rw [Method.target?_eq_bind_realAfter?, Method.resolve?_eq_some_iff.2 h.placed]
    exact h.first
  -- the last test stands before the target, so that there are two groups
  have hne : last ≠ target := Nat.ne_of_lt (h.lt_target htest)
  simp only [ofChain, hlast, hentry, Option.bind_some, Entry.jump?, htarget]
  simp [Grouping.ofList, Grouping.add, Grouping.addTo, Grouping.groups, hne, chainGroups]

end IsSafeCallChain

/-- **What is found are the replaced branches of the chains.** -/
theorem mem_findings_iff {x : Finding} :
    x ∈ findings m c ↔ c.isKotlin ∧ ∃ l place target last test,
      IsSafeCallChain m l place target ∧ IsGreatest (nullTests m l) last ∧
        test ∈ nullTests m l ∧ x = .replace test (chainGroups last target) := by
  unfold findings
  split
  · next hkotlin =>
    simp only [hkotlin, true_and, List.mem_flatMap]
    constructor
    · rintro ⟨ts, hts, hx⟩
      obtain ⟨l, place, target, h, rfl⟩ := mem_chains_iff.1 hts
      obtain ⟨last, hlast⟩ := exists_last h.several
      rw [h.ofChain_eq hlast] at hx
      obtain ⟨test, htest, rfl⟩ := List.mem_map.1 hx
      exact ⟨l, place, target, last, test, h, isGreatest_of_getLast? hlast, mem_testsTo.1 htest,
        rfl⟩
    · rintro ⟨l, place, target, last, test, h, hgreatest, htest, rfl⟩
      obtain ⟨last', hlast⟩ := exists_last h.several
      obtain rfl := hgreatest.unique (isGreatest_of_getLast? hlast)
      refine ⟨testsTo m l, mem_chains_iff.2 ⟨l, place, target, h, rfl⟩, ?_⟩
      rw [h.ofChain_eq hlast]
      exact List.mem_map.2 ⟨test, mem_testsTo.2 htest, rfl⟩
  · next hkotlin => simp [hkotlin]

theorem wellFormed_findings : ∀ x ∈ findings m c, x.WellFormed m := by
  intro x hx
  obtain ⟨-, l, place, target, last, test, h, hlast, htest, rfl⟩ := mem_findings_iff.1 hx
  have hlt := h.lt_target hlast.1
  have htarget : m.isReal target := (Method.realAfter?_eq_some_iff.1 h.first).2.1
  have hsize := Method.lt_size_of_isReal htarget
  refine ⟨Method.isReal_of_jump htest, ?_, ?_, ?_⟩
  · simp [chainGroups]
  · simp [chainGroups]
    omega
  · simp [chainGroups]
    omega

theorem jump_of_mem_findings {test : Nat} {gs : List Group} (h : .replace test gs ∈ findings m c) :
    ∃ l, m.code[test]? = some (.jump .ifNull l) := by
  obtain ⟨-, l, place, target, last, test', -, -, htest, heq⟩ := mem_findings_iff.1 h
  cases heq
  exact ⟨l, htest⟩

/-- All tests of a chain are rewritten alike, and a test belongs to one chain. -/
theorem unique {test : Nat} {gs gs' : List Group} (h : .replace test gs ∈ findings m c)
    (h' : .replace test gs' ∈ findings m c) : gs = gs' := by
  obtain ⟨-, l, place, target, last, test₁, hc, hlast, htest, heq⟩ := mem_findings_iff.1 h
  obtain ⟨-, l', place', target', last', test₂, hc', hlast', htest', heq'⟩ :=
    mem_findings_iff.1 h'
  cases heq
  cases heq'
  cases htest.symm.trans htest'
  rw [hlast.unique hlast', hc.unique hc']

theorem replace_injective :
    Function.Injective fun r : Nat × List Group => Finding.replace r.1 r.2 := by
  rintro ⟨test, gs⟩ ⟨test', gs'⟩ heq
  cases heq
  rfl

theorem exists_rows_of_chains {tss : List (List Nat)}
    (h : ∀ ts ∈ tss, ∃ gs, ofChain m ts = ts.map fun test => .replace test gs) :
    ∃ rows : List (Nat × List Group),
      tss.flatMap (ofChain m) = rows.map (fun r => .replace r.1 r.2) ∧
        rows.map (·.1) = tss.flatten := by
  induction tss with
  | nil => exact ⟨[], rfl, rfl⟩
  | cons ts tss ih =>
    obtain ⟨⟨gs, hts⟩, htss⟩ := List.forall_mem_cons.1 h
    obtain ⟨rows, hrows, hsources⟩ := ih htss
    refine ⟨ts.map (·, gs) ++ rows, ?_, ?_⟩
    · rw [List.flatMap_cons, hts, hrows, List.map_append, List.map_map]
      rfl
    · rw [List.map_append, List.map_map, hsources, List.flatten_cons]
      exact congrArg (· ++ _) (List.map_id ts)

/-- The findings replace the branches of each test of a chain once, and do nothing else. -/
theorem exists_rows (hkotlin : c.isKotlin) :
    ∃ rows : List (Nat × List Group),
      findings m c = rows.map (fun r => .replace r.1 r.2) ∧ (rows.map (·.1)).Nodup := by
  have hchains : ∀ ts ∈ chains m, ∃ gs, ofChain m ts = ts.map fun test => .replace test gs := by
    intro ts hts
    obtain ⟨l, place, target, h, rfl⟩ := mem_chains_iff.1 hts
    obtain ⟨last, hlast⟩ := exists_last h.several
    exact ⟨_, h.ofChain_eq hlast⟩
  obtain ⟨rows, hrows, hsources⟩ := exists_rows_of_chains hchains
  refine ⟨rows, ?_, hsources ▸ nodup_flatten_chains m⟩
  rw [findings, if_pos hkotlin, hrows]

end Winnow.Idiom.SafeCall

namespace Winnow

open Idiom.SafeCall

/-- **Chains of safe calls are rewritten as a whole.**  In a Kotlin class, the branches of each
    instruction are replaced at most once, and nothing else is found.

    * An instruction whose branches are replaced is a test for null.  All tests of the method
      that jump to the same label get the same two branches, and they are at least two: the way
      on of the last of them, and the first instruction behind the label.  All these tests stand
      before the label;
    * this happens for exactly the labels whose tests are a chain of safe calls. -/
theorem safe_call_chains_rewritten (m : Method) (c : ClassInfo) (scratch : ClassScratch)
    (hkotlin : c.isKotlin) :
    ∃ rows : List (Nat × List Group),
      (Builtin.kotlinSafeCallOperator.run m c scratch).findings =
        rows.map (fun r => .replace r.1 r.2) ∧
      (rows.map (·.1)).Nodup ∧
      (∀ test gs, (test, gs) ∈ rows → ∃ l place last target,
        test ∈ nullTests m l ∧ (∀ p ∈ nullTests m l, (p, gs) ∈ rows) ∧
        (nullTests m l).Nontrivial ∧ IsGreatest (nullTests m l) last ∧
        m.code[place]? = some (.label l) ∧ IsLeast {q ∈ m.instructions | place < q} target ∧
        (∀ p ∈ nullTests m l, p < place) ∧ place < target ∧
        gs = [[⟨last, 0⟩], [⟨target, 0⟩]]) ∧
      ∀ l, (∃ test ∈ nullTests m l, ∃ gs, (test, gs) ∈ rows) ↔
        ∃ place target, IsSafeCallChain m l place target := by
  obtain ⟨rows, hfindings, hnodup⟩ := exists_rows (m := m) hkotlin
  have hrow : ∀ test gs, (test, gs) ∈ rows ↔ ∃ l place target last,
      IsSafeCallChain m l place target ∧ IsGreatest (nullTests m l) last ∧
        test ∈ nullTests m l ∧ gs = chainGroups last target := by
    intro test gs
    have hmem : (test, gs) ∈ rows ↔ .replace test gs ∈ Idiom.SafeCall.findings m c := by
      rw [hfindings]
      exact (List.mem_map_of_injective replace_injective).symm
    rw [hmem, mem_findings_iff]
    constructor
    · rintro ⟨-, l, place, target, last, _, h, hlast, htest, ⟨⟩⟩
      exact ⟨l, place, target, last, h, hlast, htest, rfl⟩
    · rintro ⟨l, place, target, last, h, hlast, htest, rfl⟩
      exact ⟨hkotlin, l, place, target, last, test, h, hlast, htest, rfl⟩
  refine ⟨rows, hfindings, hnodup, fun test gs hmem => ?_, fun l => ⟨?_, ?_⟩⟩
  · obtain ⟨l, place, target, last, h, hlast, htest, rfl⟩ := (hrow test gs).1 hmem
    exact ⟨l, place, last, target, htest,
      fun p hp => (hrow p _).2 ⟨l, place, target, last, h, hlast, hp, rfl⟩, h.several, hlast,
      h.placed, Method.realFrom?_eq_some_iff_isLeast.1 h.first, h.before, h.place_lt, rfl⟩
  · rintro ⟨test, htest, gs, hmem⟩
    obtain ⟨l', place, target, last, h, -, htest', -⟩ := (hrow test gs).1 hmem
    cases htest.symm.trans htest'
    exact ⟨place, target, h⟩
  · rintro ⟨place, target, h⟩
    obtain ⟨last, hlast⟩ := exists_last h.several
    have hlast := isGreatest_of_getLast? hlast
    exact ⟨last, hlast.1, _, (hrow last _).2 ⟨l, place, target, last, h, hlast, hlast.1, rfl⟩⟩

/-- `a?.b?.c`, with a test of `a` that has nothing to do with the chain before it. -/
def safeCallMethod : Method where
  name := "example"
  desc := "(LA;)Ljava/lang/String;"
  code := #[.var .aload 1, .jump .ifNull ⟨1⟩, .var .aload 1, .plain .dup, .jump .ifNull ⟨0⟩,
    .call .invokeVirtual "A" "getB" "()LB;" false, .plain .dup, .jump .ifNull ⟨0⟩,
    .call .invokeVirtual "B" "getC" "()Ljava/lang/String;" false, .jump .goto ⟨1⟩,
    .label ⟨0⟩, .plain .pop, .plain .aconstNull, .label ⟨1⟩, .plain .areturn]
  placed_nodup := by decide
  mentioned_placed := by decide

def safeCallClass : ClassInfo where
  name := "ExampleKt"
  annotations := ["Lkotlin/Metadata;"]

/-- Both tests of the chain get the branches of the second one; the other test keeps its own. -/
theorem safe_call_chains_rewritten_example :
    ∃ rows : List (Nat × List Group),
      (Builtin.kotlinSafeCallOperator.run safeCallMethod safeCallClass {}).findings =
        rows.map (fun r => .replace r.1 r.2) ∧
      (rows.map (·.1)).Nodup ∧
      rows = [(4, [[⟨7, 0⟩], [⟨11, 0⟩]]), (7, [[⟨7, 0⟩], [⟨11, 0⟩]])] := by
  obtain ⟨rows, hrows, hnodup, -⟩ :=
    safe_call_chains_rewritten safeCallMethod safeCallClass {} (by decide)
  refine ⟨rows, hrows, hnodup, List.map_injective_iff.2 replace_injective ?_⟩
  have hfindings : (Builtin.kotlinSafeCallOperator.run safeCallMethod safeCallClass {}).findings =
      [.replace 4 [[⟨7, 0⟩], [⟨11, 0⟩]], .replace 7 [[⟨7, 0⟩], [⟨11, 0⟩]]] := by
    decide +kernel
  exact hrows.symm.trans hfindings

end Winnow
