/-
  Which filters replace the branches of the same instruction.

  Five filters replace branches.  Safe calls rewrite tests for null, the others switches.

  * A switch on a string is found from one place only (`preamble_unique`), and the dialects
    differ in the instruction there;
  * in the dialect that skips, the last comparison jumps to the default of the switch, so
    that the default is not an arm of its own (`not_dropped_of_kotlin`);
  * default arms are always dropped in the same way;
  * `Contested` is what is left: a switch on a string of the jumping dialect, whose default
    arm only throws.
-/
import Winnow.Proofs.Findings.Builtin
import Winnow.Proofs.Pattern.Spans

namespace Winnow.Idiom

variable {m : Method} {c : ClassInfo} {switch : Nat} {gs gs' : List Group}

/-! ## Switches on strings -/

namespace StringSwitch

/-- The instructions before a switch on a string. -/
theorem preamble {op : Opcode} {pos : Nat} (hpos : m.hasOpcode op pos)
    (h : (m.matchFrom pos [.var op "s", hashCode, .switch]).matched? = some switch) :
    ∃ mid, m.realAfter? pos = some mid ∧ m.isReal mid ∧ m.realAfter? mid = some switch := by
  obtain ⟨σ, places, hsucc, hmatches, hlast, -⟩ := Method.exists_matches h
  cases hmatches with
  | @cons _ p₁ _ _ _ ht =>
  cases ht with
  | @cons _ p₂ _ _ _ ht =>
  cases ht with
  | @cons _ p₃ _ _ _ ht =>
  cases ht
  obtain ⟨h₁, h₂, h₃, -⟩ := hsucc
  rw [Method.realFrom?_of_isReal (Method.isReal_of_hasOpcode hpos)] at h₁
  cases h₁
  cases hlast
  exact ⟨p₂, h₂, (Method.realAfter?_eq_some_iff.1 h₂).2.1, h₃⟩

/-- A switch on a string is found from one place only, whatever the dialect. -/
theorem preamble_unique {op op' : Opcode} {pos pos' : Nat} (hpos : m.hasOpcode op pos)
    (hpos' : m.hasOpcode op' pos')
    (h : (m.matchFrom pos [.var op "s", hashCode, .switch]).matched? = some switch)
    (h' : (m.matchFrom pos' [.var op' "s", hashCode, .switch]).matched? = some switch) :
    pos = pos' := by
  obtain ⟨mid, h₁, hmid, h₂⟩ := preamble hpos h
  obtain ⟨mid', h₁', hmid', h₂'⟩ := preamble hpos' h'
  obtain rfl := Method.realAfter?_injective hmid hmid' h₂ h₂'
  exact Method.realAfter?_injective (Method.isReal_of_hasOpcode hpos)
    (Method.isReal_of_hasOpcode hpos') h₁ h₁'

/-- What it takes for a dispatch that starts with `op` to have its branches replaced. -/
def Replaces (m : Method) (op : Opcode) (dialect : Label → Nat → Dialect m) (pos switch : Nat)
    (gs : List Group) : Prop :=
  m.hasOpcode op pos ∧
    (m.matchFrom pos [.var op "s", hashCode, .switch]).matched? = some switch ∧
    ∃ last, replaced? m (m.matchFrom pos [.var op "s", hashCode, .switch]) dialect =
      some [.ignore (switch + 1) last, .replace switch gs]

theorem replaces_of_replaced? {op : Opcode} {dialect : Label → Nat → Dialect m} {pos : Nat}
    {xs : List Finding} (hpos : m.hasOpcode op pos)
    (h : replaced? m (m.matchFrom pos [.var op "s", hashCode, .switch]) dialect = some xs)
    (hx : .replace switch gs ∈ xs) : Replaces m op dialect pos switch gs := by
  obtain ⟨switch', default, target, last, c', bs, hswitch, -, -, -, -, rfl⟩ := replaced?_eq_some h
  simp only [List.mem_cons, reduceCtorEq, Finding.replace.injEq, List.not_mem_nil, or_false,
    false_or] at hx
  obtain ⟨rfl, rfl⟩ := hx
  exact ⟨hpos, hswitch, last, h⟩

theorem Replaces.unique {op : Opcode} {dialect : Label → Nat → Dialect m} {pos pos' : Nat}
    (h : Replaces m op dialect pos switch gs) (h' : Replaces m op dialect pos' switch gs') :
    gs = gs' := by
  obtain ⟨hpos, hm, last, hr⟩ := h
  obtain ⟨hpos', hm', last', hr'⟩ := h'
  obtain rfl := preamble_unique hpos hpos' hm hm'
  rw [hr] at hr'
  simp only [Option.some.injEq, List.cons.injEq, Finding.replace.injEq] at hr'
  exact hr'.2.1.2

theorem Replaces.switch_entry {op : Opcode} {dialect : Label → Nat → Dialect m} {pos : Nat}
    (h : Replaces m op dialect pos switch gs) :
    ∃ e, m.code[switch]? = some e ∧ e.switch?.isSome := by
  obtain ⟨-, hswitch, last, hr⟩ := h
  obtain ⟨switch', default, target, last', c', bs, hswitch', ⟨e, cases, he, hs⟩, -⟩ :=
    replaced?_eq_some hr
  obtain rfl := Option.some.inj (hswitch.symm.trans hswitch')
  exact ⟨e, he, by rw [hs]; rfl⟩

/-- The default of the dispatch stays among the branches. -/
theorem Replaces.default_mem {op : Opcode} {dialect : Label → Nat → Dialect m} {pos : Nat}
    (h : Replaces m op dialect pos switch gs) : ⟨switch, 0⟩ ∈ gs.flatten := by
  obtain ⟨-, -, last, hr⟩ := h
  obtain ⟨switch', default, target, last', c', bs, -, -, -, -, -, hxs⟩ := replaced?_eq_some hr
  simp only [List.cons.injEq, Finding.replace.injEq] at hxs
  obtain ⟨-, ⟨rfl, rfl⟩, -⟩ := hxs
  exact (Grouping.flatten_groups_ofList _).mem_iff.2 (by simp)

theorem replaces_of_ecj (h : .replace switch gs ∈ ecjFindings m) :
    ∃ pos, Replaces m .astore (jumpDialect m) pos switch gs := by
  obtain ⟨pos, xs, hpos, h, hx, -⟩ := exists_dispatch (m := m) h
  exact ⟨pos, replaces_of_replaced? hpos h hx⟩

theorem replaces_of_kotlin (h : .replace switch gs ∈ kotlinFindings m) :
    ∃ pos, Replaces m .aload (skipDialect m) pos switch gs := by
  obtain ⟨pos, xs, hpos, h, hx, -⟩ := exists_dispatch (m := m) h
  exact ⟨pos, replaces_of_replaced? hpos h hx⟩

/-- The dialects start with a store and with a load. -/
theorem not_ecj_of_kotlin (h : .replace switch gs ∈ kotlinFindings m) :
    .replace switch gs' ∉ ecjFindings m := by
  intro h'
  obtain ⟨pos, hpos, hm, -⟩ := replaces_of_kotlin h
  obtain ⟨pos', hpos', hm', -⟩ := replaces_of_ecj h'
  obtain rfl := preamble_unique hpos hpos' hm hm'
  simp only [Method.hasOpcode, beq_iff_eq] at hpos hpos'
  rw [hpos] at hpos'
  cases hpos'

/-- Comparisons pass only instructions of comparisons. -/
theorem Reads.freeOf {d : Dialect m} (hd : d.Advancing) {op : Opcode}
    (hfree : ∀ {c r p p'}, d.read c = some r → c.place = some p → r.cursor.place = some p' →
      m.FreeOf op p.next p'.next)
    {c c' : Cursor} {bs : List (Nat × BranchRef)} (h : Reads d c c' bs) {p p' : Place}
    (hp : c.place = some p) (hp' : c'.place = some p') : m.FreeOf op p.next p'.next := by
  induction h generalizing p with
  | nil =>
    obtain rfl := Option.some.inj (hp.symm.trans hp')
    exact ⟨Nat.le_refl _, fun q _ _ => by omega⟩
  | @cons c c' r bs hr h ih =>
    have hactive : r.cursor.isActive := h.isActive hd (by simp [Cursor.isActive, hp'])
    obtain ⟨p₁, hp₁⟩ := Option.isSome_iff_exists.1 hactive
    exact (hfree hr hp hp₁).trans (ih hp₁ hp')

theorem freeOf_readSkip {default : Label} {target : Nat} {c : Cursor} {r : Comparison}
    {p p' : Place} (h : readSkip m default target c = some r) (hp : c.place = some p)
    (hp' : r.cursor.place = some p') : m.FreeOf .new p.next p'.next := by
  obtain ⟨-, -, -, -, -, -, hr, -⟩ := readSkip_cases h
  rw [hr, ← Cursor.run_append] at hp'
  exact Cursor.freeOf_run rfl hp hp'

/-- The last comparison of a dispatch in the skipping dialect jumps to the default, and
    the code up to there creates no object. -/
theorem exists_last_test {pos : Nat} (h : Replaces m .aload (skipDialect m) pos switch gs) :
    ∃ default cases e jump e', m.code[switch]? = some e ∧ e.switch? = some (default, cases) ∧
      switch < jump ∧ m.code[jump]? = some e' ∧ DefaultArm.testsFor default e' ∧
      m.FreeOf .new (switch + 1) (jump + 1) := by
  obtain ⟨-, hswitch, last, hreplaced⟩ := h
  obtain ⟨switch', default, target, last', c', bs, hswitch', ⟨e, cases, he, hs⟩, -, hreads,
    hlast, -⟩ := replaced?_eq_some hreplaced
  obtain rfl := Option.some.inj (hswitch.symm.trans hswitch')
  obtain ⟨-, -, -, -, -, hplace⟩ := Method.exists_matches hswitch
  obtain ⟨c₁, bs₁, r, hreads, hr, hislast, rfl, -⟩ := hreads
  obtain ⟨jump, next, goto, body, hjump, hnext, hcursor, hgoto, -, hcases⟩ := readSkip_cases hr
  have hd := advancing_skipDialect (m := m) default target
  obtain ⟨p₁, hp₁⟩ := Option.isSome_iff_exists.1 (hd.active hr)
  obtain ⟨p₂, hp₂, -⟩ := Option.bind_eq_some_iff.1 hgoto
  have hfrom : c₁.From (switch + 1) := by
    refine hreads.from hd fun p hp => ?_
    cases hplace.symm.trans hp
    exact Nat.le_refl _
  have hbounds := comparison_bounds (List.cons_ne_nil _ _) hfrom hjump (hcursor ▸ hgoto)
    (hcursor ▸ hp₂)
  have hfree := (hreads.freeOf hd freeOf_readSkip hplace hp₁).trans (freeOf_readSkip hr hp₁ hp₂)
  obtain ⟨σ, e', he', hop⟩ : ∃ σ e', m.code[jump]? = some e' ∧ Step.Holds σ e' (.opcode .ifEq) :=
    Cursor.holds_of_matched? hjump
  have hdefault : next = default := by
    rcases hcases with ⟨-, hdefault, -⟩ | ⟨hno, -⟩
    · exact hdefault
    · rw [hno] at hislast; cases hislast
  refine ⟨default, cases, e, jump, e', he, hs, hbounds.1, he', ?_, by omega, ?_⟩
  · rw [he', Option.bind_some, hdefault] at hnext
    have hop : e'.opcode? = some .ifEq := hop
    simp [DefaultArm.testsFor, Entry.hasOpcode, hop, hnext]
  · exact fun q hlo hhi => hfree.2 q hlo (by omega)

end StringSwitch

/-! ## Default arms -/

namespace DefaultArm

theorem drops_of_switch (h : .replace switch gs ∈ switchFindings m) :
    ∃ e default cases, m.code[switch]? = some e ∧ e.switch? = some (default, cases) ∧
      reachedOnlyFrom m switch default ∧ gs = m.withoutDefault switch := by
  obtain ⟨xs, hxs, hx⟩ := List.mem_flatten.1 h
  obtain ⟨⟨e, pos⟩, hmem, h⟩ := List.mem_filterMap.1 hxs
  have he := Method.entry_of_mem_zipIdx hmem
  obtain ⟨default, cases, start, last, hs, hreached, -, -, rfl⟩ := ofSwitch?_eq_some h
  simp only [List.mem_cons, reduceCtorEq, Finding.replace.injEq, List.not_mem_nil, or_false,
    false_or] at hx
  obtain ⟨rfl, rfl⟩ := hx
  exact ⟨e, default, cases, he, hs, hreached, rfl⟩

theorem drops_of_when (h : .replace switch gs ∈ whenFindings m) :
    ∃ pos l last e, m.code[switch]? = some e ∧ defaultsTo l e ∧ switch < pos ∧
      (m.matchFrom pos (throwNew "kotlin/NoWhenBranchMatchedException")).matched? = some last ∧
      (∀ q e', switch < q → q < pos → m.code[q]? = some e' → ¬ testsFor l e') ∧
      gs = m.withoutDefault switch := by
  obtain ⟨xs, hxs, hx⟩ := List.mem_flatten.1 h
  obtain ⟨⟨e, pos⟩, -, h⟩ := List.mem_filterMap.1 hxs
  obtain ⟨l, last, source, e', -, hlast, hsource, he', hcases⟩ := ofArm?_eq_some h
  obtain ⟨hbefore, -, hno⟩ := lastWhere_eq_some_iff.1 hsource
  rcases hcases with ⟨-, rfl⟩ | ⟨hd, rfl⟩
  · simp at hx
  · simp only [List.mem_cons, reduceCtorEq, Finding.replace.injEq, List.not_mem_nil,
      or_false] at hx
    obtain ⟨rfl, rfl⟩ := hx
    refine ⟨pos, l, last, e', he', hd, hbefore, hlast, fun q e'' hlo hhi hq ht => ?_, rfl⟩
    exact hno q hlo hhi (by simp [hq, ht])

/-- The last comparison of the dispatch leads to the default too. -/
theorem not_switch_of_kotlin (h : .replace switch gs ∈ StringSwitch.kotlinFindings m) :
    .replace switch gs' ∉ switchFindings m := by
  intro h'
  obtain ⟨pos, hr⟩ := StringSwitch.replaces_of_kotlin h
  obtain ⟨default, cases, e, jump, e', he, hs, hlt, he', htest, -⟩ :=
    StringSwitch.exists_last_test hr
  obtain ⟨e₁, default₁, cases₁, he₁, hs₁, hreached, -⟩ := drops_of_switch h'
  obtain rfl := Option.some.inj (he.symm.trans he₁)
  cases hs.symm.trans hs₁
  simp only [reachedOnlyFrom, Bool.and_eq_true, List.all_eq_true] at hreached
  have hmem : (e', jump) ∈ m.code.toList.zipIdx :=
    List.mem_zipIdx_iff_getElem?.2 (by simpa using he')
  have hno := hreached.1 _ hmem
  have htarget : e'.targets.contains default := by
    simp only [testsFor, Bool.and_eq_true, beq_iff_eq] at htest
    cases e' <;> simp [Entry.jump?, Entry.targets] at htest ⊢
    exact htest.2.symm
  simp only [htarget, Bool.not_true, Bool.or_false, beq_iff_eq] at hno
  omega

/-- The comparisons lead up to a test for the default, which is then closer to the arm than
    the switch, or the arm is a comparison. -/
theorem not_when_of_kotlin (h : .replace switch gs ∈ StringSwitch.kotlinFindings m) :
    .replace switch gs' ∉ whenFindings m := by
  intro h'
  obtain ⟨pos, hr⟩ := StringSwitch.replaces_of_kotlin h
  obtain ⟨default, cases, e, jump, e', he, hs, hlt, he', htest, hfree⟩ :=
    StringSwitch.exists_last_test hr
  obtain ⟨arm, l, last, e₁, he₁, hd, hbefore, hlast, hno, -⟩ := drops_of_when h'
  obtain rfl := Option.some.inj (he.symm.trans he₁)
  obtain rfl : default = l := by simpa [defaultsTo, hs] using hd
  have hle : arm ≤ jump := by
    rcases Nat.lt_or_ge jump arm with hj | hj
    · exact absurd htest (hno jump e' hlt hj he')
    · exact hj
  have hjump : m.isReal jump := by
    simp only [testsFor, Entry.hasOpcode, Bool.and_eq_true, beq_iff_eq] at htest
    exact Method.isReal_of_opcode he' htest.1
  -- the arm starts with the creation of the exception
  obtain ⟨σ, places, hsucc, hmatches, -⟩ := Method.exists_matches hlast
  cases hmatches with
  | @cons _ first _ _ hnew _ =>
  obtain ⟨e'', he'', d, rfl, -⟩ := hnew
  obtain ⟨hfirst, -, hleast⟩ := Method.realFrom?_eq_some_iff.1 hsucc.1
  have hwithin : first ≤ jump := by
    rcases Nat.lt_or_ge jump first with hj | hj
    · exact absurd hjump (hleast jump hle hj)
    · exact hj
  refine hfree.2 first (by omega) (by omega) ?_
  rw [Method.opcode?, he'']; rfl

/-- A switch that loses its default arm does so in one way. -/
theorem drops (h : .replace switch gs ∈ whenFindings m ∨ .replace switch gs ∈ switchFindings m) :
    gs = m.withoutDefault switch ∧ ∃ e, m.code[switch]? = some e ∧ e.switch?.isSome := by
  rcases h with h | h
  · obtain ⟨pos, l, last, e, he, hd, -, -, -, rfl⟩ := drops_of_when h
    exact ⟨rfl, e, he, isSome_switch?_of_defaultsTo hd⟩
  · obtain ⟨e, default, cases, he, hs, -, rfl⟩ := drops_of_switch h
    exact ⟨rfl, e, he, by rw [hs]; rfl⟩

theorem default_notMem_withoutDefault : ⟨switch, 0⟩ ∉ (m.withoutDefault switch).flatten := by
  rw [(Method.flatten_withoutDefault m switch).mem_iff]
  simp

end DefaultArm

end Winnow.Idiom

namespace Winnow

open Idiom

variable {m : Method} {c : ClassInfo} {source : Nat} {gs gs' : List Group}

/-- Two filters rewrite one switch in different ways: the comparisons of a switch on a
    string jump into the bodies, and its default arm only throws. -/
def Contested (m : Method) : Prop :=
  ∃ switch gs gs', .replace switch gs ∈ StringSwitch.ecjFindings m ∧
    (.replace switch gs' ∈ DefaultArm.whenFindings m ∨
      .replace switch gs' ∈ DefaultArm.switchFindings m)

/-- The ways to replace branches. -/
inductive Rewrite (m : Method) (c : ClassInfo) (source : Nat) (gs : List Group) : Prop
  | ecj (h : .replace source gs ∈ StringSwitch.ecjFindings m)
  | kotlin (h : .replace source gs ∈ StringSwitch.kotlinFindings m)
  | dropped (h : .replace source gs ∈ DefaultArm.whenFindings m ∨
      .replace source gs ∈ DefaultArm.switchFindings m)
  | safeCall (h : .replace source gs ∈ SafeCall.findings m c)

theorem rewrite_of_mem {f : Filter} (hf : f ∈ builtinFilters) {scratch : ClassScratch}
    (h : .replace source gs ∈ (f.run m c scratch).findings) : Rewrite m c source gs := by
  cases Builtin.kind_of_mem f hf with
  | marking hmarks => exact (hmarks m c _ h).elim
  | rewriting hf =>
    simp only [Builtin.rewriting, List.mem_cons, List.not_mem_nil, or_false] at hf
    rcases hf with rfl | rfl | rfl | rfl | rfl
    · exact .ecj h
    · exact .dropped (Or.inl h)
    · exact .kotlin h
    · exact .safeCall h
    · exact .dropped (Or.inr h)
  | inline => exact (InlinedCode.marks_run scratch _ h).elim
  | serializable => exact (Serialization.marks_run scratch _ h).elim

/-- Rewritten instructions are tests for null or switches. -/
theorem Rewrite.entry (h : Rewrite m c source gs) :
    .replace source gs ∈ SafeCall.findings m c ∨
      ∃ e, m.code[source]? = some e ∧ e.switch?.isSome := by
  cases h with
  | ecj h => obtain ⟨pos, hr⟩ := StringSwitch.replaces_of_ecj h; exact Or.inr hr.switch_entry
  | kotlin h => obtain ⟨pos, hr⟩ := StringSwitch.replaces_of_kotlin h; exact Or.inr hr.switch_entry
  | dropped h => exact Or.inr (DefaultArm.drops h).2
  | safeCall h => exact Or.inl h

theorem not_switch_of_safeCall (h : .replace source gs ∈ SafeCall.findings m c) {e : Entry}
    (he : m.code[source]? = some e) : e.switch? = none := by
  obtain ⟨l, hl⟩ := SafeCall.jump_of_mem_findings h
  cases he.symm.trans hl
  rfl

/-- A dispatch in the skipping dialect is not rewritten in another way. -/
theorem not_dropped_of_kotlin (h : .replace source gs ∈ StringSwitch.kotlinFindings m) :
    ¬ (.replace source gs' ∈ DefaultArm.whenFindings m ∨
      .replace source gs' ∈ DefaultArm.switchFindings m) :=
  not_or.2 ⟨DefaultArm.not_when_of_kotlin h, DefaultArm.not_switch_of_kotlin h⟩

/-- **Uncontested instructions are rewritten in one way.** -/
theorem Rewrite.unique (hm : ¬ Contested m) (h : Rewrite m c source gs)
    (h' : Rewrite m c source gs') : gs = gs' := by
  rcases h.entry with hsafe | ⟨e, he, hs⟩
  · rcases h'.entry with hsafe' | ⟨e, he, hs⟩
    · exact SafeCall.unique hsafe hsafe'
    · rw [not_switch_of_safeCall hsafe he] at hs; cases hs
  · have hsafe : ∀ {gs}, .replace source gs ∉ SafeCall.findings m c := fun hsafe => by
      rw [not_switch_of_safeCall hsafe he] at hs; cases hs
    cases h with
    | safeCall h => exact absurd h hsafe
    | ecj h =>
      cases h' with
      | safeCall h' => exact absurd h' hsafe
      | ecj h' =>
        obtain ⟨pos, hr⟩ := StringSwitch.replaces_of_ecj h
        obtain ⟨pos', hr'⟩ := StringSwitch.replaces_of_ecj h'
        exact hr.unique hr'
      | kotlin h' => exact absurd h (StringSwitch.not_ecj_of_kotlin h')
      | dropped h' => exact absurd ⟨source, gs, gs', h, h'⟩ hm
    | kotlin h =>
      cases h' with
      | safeCall h' => exact absurd h' hsafe
      | ecj h' => exact absurd h' (StringSwitch.not_ecj_of_kotlin h)
      | kotlin h' =>
        obtain ⟨pos, hr⟩ := StringSwitch.replaces_of_kotlin h
        obtain ⟨pos', hr'⟩ := StringSwitch.replaces_of_kotlin h'
        exact hr.unique hr'
      | dropped h' => exact absurd h' (not_dropped_of_kotlin h)
    | dropped h =>
      cases h' with
      | safeCall h' => exact absurd h' hsafe
      | ecj h' => exact absurd ⟨source, gs', gs, h', h⟩ hm
      | kotlin h' => exact absurd h (not_dropped_of_kotlin h')
      | dropped h' => rw [(DefaultArm.drops h).1, (DefaultArm.drops h').1]

end Winnow
