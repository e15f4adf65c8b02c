/-
  Runs over the built-in filters in another order.

  * `Agree` compares two runs: both fail, or their reports are related;
  * `runAfresh_perm`: permuting the filters permutes the findings, and a filter that fails
    does so in every order;
  * ranges and pairs never depend on the order (`sameMarks_of_order`), and the whole report
    does not depend on it exactly when no switch is contested
    (`sameSummary_of_not_contested`, `not_contested_of_agree`);
  * a dispatch on a string in the skipping dialect is rewritten by one filter only.  What a
    run makes of it is known from the filters that run (`lookup_runFilters`).
-/
import Winnow.Proofs.Findings.Competition
import Winnow.Proofs.Isolation
import Winnow.Proofs.Report.Order

namespace Winnow

variable {m : Method} {c : ClassInfo} {fs fs' : List Filter} {R : Report → Report → Prop}

/-- Both runs fail, or both give a report and the reports are related. -/
def Agree (R : Report → Report → Prop) : Except Stop Report → Except Stop Report → Prop
  | .ok r, .ok r' => R r r'
  | .error _, .error _ => True
  | _, _ => False

/-- The findings of filters that each find empty scratch cells. -/
def findingsOf (m : Method) (c : ClassInfo) (fs : List Filter) : List Finding :=
  fs.flatMap fun f => (f.run m c {}).findings

/-- A run that no filter ends gives the report of all findings. -/
theorem runAfresh_eq_ok (h : ∀ f ∈ fs, (f.run m c {}).failure = none) (report : Report) :
    runAfresh m c fs report = .ok ((findingsOf m c fs).foldl Report.add report) := by
  induction fs generalizing report with
  | nil => rfl
  | cons f fs ih =>
    obtain ⟨hf, hfs⟩ := List.forall_mem_cons.1 h
    rw [runAfresh, hf, findingsOf, List.flatMap_cons, List.foldl_append]
    exact ih hfs _

theorem runAfresh_eq_error (h : ¬ ∀ f ∈ fs, (f.run m c {}).failure = none) (report : Report) :
    ∃ stop, runAfresh m c fs report = .error stop := by
  induction fs generalizing report with
  | nil => exact absurd (by simp) h
  | cons f fs ih =>
    rw [runAfresh]
    cases hfail : (f.run m c {}).failure with
    | some cause => exact ⟨_, rfl⟩
    | none => exact ih (fun hfs => h (List.forall_mem_cons.2 ⟨hfail, hfs⟩)) _

/-- Two orders of the filters agree on all that does not depend on the order of the
    findings. -/
theorem runAfresh_perm (hp : fs.Perm fs')
    (hR : ∀ xs ys, xs.Perm ys → xs = findingsOf m c fs →
      R (xs.foldl Report.add {}) (ys.foldl Report.add {})) :
    Agree R (runAfresh m c fs {}) (runAfresh m c fs' {}) := by
  by_cases h : ∀ f ∈ fs, (f.run m c {}).failure = none
  · have h' : ∀ f ∈ fs', (f.run m c {}).failure = none := fun f hf => h f (hp.mem_iff.2 hf)
    rw [runAfresh_eq_ok h, runAfresh_eq_ok h']
    exact hR _ _ (hp.flatMap_right _) rfl
  · have h' : ¬ ∀ f ∈ fs', (f.run m c {}).failure = none :=
      fun h' => h fun f hf => h' f (hp.mem_iff.1 hf)
    obtain ⟨stop, hstop⟩ := runAfresh_eq_error h {}
    obtain ⟨stop', hstop'⟩ := runAfresh_eq_error h' {}
    rw [hstop, hstop']
    trivial

theorem runFilters_empty (hfs : ∀ f ∈ fs, f ∈ builtinFilters) :
    (runFilters m c fs {} {}).1 = runAfresh m c fs {} :=
  (runFilters_eq_runAfresh hfs (remembers_empty c) (fun _ _ => rfl) {}).1

/-- Some order runs a given filter last. -/
theorem exists_perm_last {f : Filter} (hf : f ∈ fs) : ∃ before, (before ++ [f]).Perm fs := by
  obtain ⟨before, after, rfl⟩ := List.append_of_mem hf
  exact ⟨before ++ after, (List.perm_append_singleton _ _).trans List.perm_middle.symm⟩

/-- The filter that runs last decides how the instructions that it rewrites are rewritten. -/
theorem lookup_last {f : Filter} {source : Nat} {gs : List Group}
    (h : .replace source gs ∈ (f.run m c {}).findings) (before : List Filter) :
    ∃ gs', .replace source gs' ∈ (f.run m c {}).findings ∧
      ((findingsOf m c (before ++ [f])).foldl Report.add {}).replacements.lookup source =
        some gs' := by
  have hsplit : findingsOf m c (before ++ [f]) =
      findingsOf m c before ++ (f.run m c {}).findings := by
    simp [findingsOf]
  rw [hsplit]
  exact Report.lookup_replacements h

/-- The reports agree in every respect that does not depend on the order of the findings. -/
def Report.SameSummary (r r' : Report) : Prop :=
  r.SameMarks r' ∧ r.replacements = r'.replacements

/-- If the order does not matter, any filter may have been the last. -/
theorem lookup_of_agree (hok : ∀ f ∈ builtinFilters, (f.run m c {}).failure = none)
    (hall : ∀ fs, fs.Perm builtinFilters → Agree Report.SameSummary (runFilters m c fs {} {}).1
      (runFilters m c builtinFilters {} {}).1)
    {f : Filter} (hf : f ∈ builtinFilters) {source : Nat} {gs : List Group}
    (h : .replace source gs ∈ (f.run m c {}).findings) :
    ∃ gs', .replace source gs' ∈ (f.run m c {}).findings ∧
      ((findingsOf m c builtinFilters).foldl Report.add {}).replacements.lookup source =
        some gs' := by
  obtain ⟨before, hp⟩ := exists_perm_last hf
  have hsub : ∀ f' ∈ before ++ [f], f' ∈ builtinFilters := fun f' hf' => hp.mem_iff.1 hf'
  have hagree := hall _ hp
  rw [runFilters_empty hsub, runFilters_empty fun _ h => h, runAfresh_eq_ok hok,
    runAfresh_eq_ok fun f' hf' => hok f' (hsub f' hf')] at hagree
  obtain ⟨gs', hgs', hlookup⟩ := lookup_last h before
  exact ⟨gs', hgs', hagree.2 ▸ hlookup⟩

/-- Both ways to rewrite a contested switch come out, each in some order. -/
theorem not_contested_of_agree (hok : ∀ f ∈ builtinFilters, (f.run m c {}).failure = none)
    (hall : ∀ fs, fs.Perm builtinFilters → Agree Report.SameSummary (runFilters m c fs {} {}).1
      (runFilters m c builtinFilters {} {}).1) : ¬ Contested m := by
  rintro ⟨switch, gs, gs', hecj, hdrop⟩
  obtain ⟨gs₁, h₁, hlookup₁⟩ := lookup_of_agree (f := Builtin.stringSwitchEcj) hok hall
    (by simp [builtinFilters]) hecj
  obtain ⟨gs₂, h₂, hlookup₂⟩ : ∃ gs₂, gs₂ = m.withoutDefault switch ∧
      ((findingsOf m c builtinFilters).foldl Report.add {}).replacements.lookup switch =
        some gs₂ := by
    rcases hdrop with h | h
    · obtain ⟨gs₂, h₂, hlookup⟩ := lookup_of_agree (f := Builtin.kotlinWhen) hok hall
        (by simp [builtinFilters]) h
      exact ⟨gs₂, (Idiom.DefaultArm.drops (Or.inl h₂)).1, hlookup⟩
    · obtain ⟨gs₂, h₂, hlookup⟩ := lookup_of_agree (f := Builtin.exhaustiveSwitch) hok hall
        (by simp [builtinFilters]) h
      exact ⟨gs₂, (Idiom.DefaultArm.drops (Or.inr h₂)).1, hlookup⟩
  obtain rfl := Option.some.inj (hlookup₁.symm.trans hlookup₂)
  -- one of them keeps the default among the branches, the other drops it
  obtain ⟨pos, hr⟩ := Idiom.StringSwitch.replaces_of_ecj h₁
  exact Idiom.DefaultArm.default_notMem_withoutDefault (h₂ ▸ hr.default_mem)

theorem sameMarks_of_order (hp : fs.Perm builtinFilters) :
    Agree Report.SameMarks (runFilters m c fs {} {}).1
      (runFilters m c builtinFilters {} {}).1 := by
  rw [runFilters_empty fun f hf => hp.mem_iff.1 hf, runFilters_empty fun _ h => h]
  exact runAfresh_perm hp fun xs ys h _ => Report.sameMarks_of_perm h

theorem sameSummary_of_not_contested (hm : ¬ Contested m) (hp : fs.Perm builtinFilters) :
    Agree Report.SameSummary (runFilters m c fs {} {}).1
      (runFilters m c builtinFilters {} {}).1 := by
  rw [runFilters_empty fun f hf => hp.mem_iff.1 hf, runFilters_empty fun _ h => h]
  refine runAfresh_perm hp fun xs ys h hxs => ⟨Report.sameMarks_of_perm h, ?_⟩
  refine Report.replacements_eq_of_perm h fun source gs gs' hgs hgs' => ?_
  rw [hxs] at hgs hgs'
  obtain ⟨f, hf, hfx⟩ := List.mem_flatMap.1 hgs
  obtain ⟨f', hf', hfx'⟩ := List.mem_flatMap.1 hgs'
  exact (rewrite_of_mem (hp.mem_iff.1 hf) hfx).unique hm
    (rewrite_of_mem (hp.mem_iff.1 hf') hfx')

/-- **When the order of the filters matters.**  Over every method and class, all orders of
    the built-in filters fail, or all give reports with the same coalesced ranges and, up
    to their order, the same merged pairs.  They also give the same replacements iff the
    runs fail or no switch of the method is contested. -/
theorem runFilters_agree_iff (m : Method) (c : ClassInfo) :
    (∀ fs, fs.Perm builtinFilters → Agree Report.SameMarks (runFilters m c fs {} {}).1
      (runFilters m c builtinFilters {} {}).1) ∧
    ((∀ fs, fs.Perm builtinFilters → Agree Report.SameSummary (runFilters m c fs {} {}).1
      (runFilters m c builtinFilters {} {}).1) ↔
        (∃ stop, (runFilters m c builtinFilters {} {}).1 = .error stop) ∨ ¬ Contested m) := by
  refine ⟨fun fs hp => sameMarks_of_order hp, fun hall => ?_, ?_⟩
  · by_cases hok : ∀ f ∈ builtinFilters, (f.run m c {}).failure = none
    · exact Or.inr (not_contested_of_agree hok hall)
    · rw [runFilters_empty fun _ h => h]
      exact Or.inl (runAfresh_eq_error hok {})
  · rintro (⟨stop, hstop⟩ | hm) fs hp
    · have hfails := sameMarks_of_order (m := m) (c := c) hp
      rw [hstop] at hfails ⊢
      cases hrun : (runFilters m c fs {} {}).1 with
      | error stop' => trivial
      | ok r => rw [hrun] at hfails; exact hfails.elim
    · exact sameSummary_of_not_contested hm hp

/-- A dispatch on the hash code of a string, whose default arm returns. -/
def plainDispatch : Method where
  name := "m"
  desc := "()V"
  code := #[.var .astore 1, .call .invokeVirtual "java/lang/String" "hashCode" "()I" false,
    .lookupSwitch ⟨0⟩ [120] [⟨1⟩], .label ⟨1⟩, .var .aload 1, .constant (.string "x"),
    .call .invokeVirtual "java/lang/String" "equals" "(Ljava/lang/Object;)Z" false,
    .jump .ifNe ⟨2⟩, .label ⟨0⟩, .plain .vreturn, .label ⟨2⟩, .plain .vreturn]
  placed_nodup := by decide
  mentioned_placed := by decide

/-- The order reversed: the same ranges and pairs where a switch is contested, and the same
    report where none is, although a switch is rewritten. -/
theorem runFilters_agree_iff_reversed :
    builtinFilters.reverse.Perm builtinFilters ∧
    Agree Report.SameMarks
      (runFilters stringDispatch { name := "C" } builtinFilters.reverse {} {}).1
      (runFilters stringDispatch { name := "C" } builtinFilters {} {}).1 ∧
    Finding.replace 2 [[⟨2, 0⟩, ⟨7, 0⟩], [⟨7, 1⟩]] ∈ Idiom.StringSwitch.ecjFindings plainDispatch ∧
    ¬ Contested plainDispatch ∧
    Agree Report.SameSummary
      (runFilters plainDispatch { name := "C" } builtinFilters.reverse {} {}).1
      (runFilters plainDispatch { name := "C" } builtinFilters {} {}).1 := by
  have hp := builtinFilters.reverse_perm
  have hplain : ¬ Contested plainDispatch := by
    rintro ⟨switch, gs, gs', -, h | h⟩
    · rw [show Idiom.DefaultArm.whenFindings plainDispatch = [] by decide +kernel] at h
      cases h
    · rw [show Idiom.DefaultArm.switchFindings plainDispatch = [] by decide +kernel] at h
      cases h
  exact ⟨hp, (runFilters_agree_iff stringDispatch { name := "C" }).1 _ hp, by decide +kernel,
    hplain, (runFilters_agree_iff plainDispatch { name := "C" }).2.2 (Or.inr hplain) _ hp⟩

/-- A contested switch: in one order the dispatch has the branches of its comparisons, in
    the other it loses its default. -/
theorem replacements_depend_on_order :
    builtinFilters.reverse.Perm builtinFilters ∧
    ¬ Agree Report.SameSummary
      (runFilters stringDispatch { name := "C" } builtinFilters.reverse {} {}).1
      (runFilters stringDispatch { name := "C" } builtinFilters {} {}).1 := by
  have hforward : (runFilters stringDispatch { name := "C" } builtinFilters {} {}).1 =
      .ok { ignored := [⟨3, 7⟩, ⟨8, 12⟩], replacements := [(2, [[⟨2, 1⟩]])] } :=
    eq_ok_of_toOption (by decide +kernel)
  have hreversed : (runFilters stringDispatch { name := "C" } builtinFilters.reverse {} {}).1 =
      .ok { ignored := [⟨8, 12⟩, ⟨3, 7⟩],
            replacements := [(2, [[⟨2, 0⟩, ⟨7, 0⟩], [⟨7, 1⟩]])] } :=
    eq_ok_of_toOption (by decide +kernel)
  rw [hforward, hreversed]
  exact ⟨builtinFilters.reverse_perm, fun h => absurd h.2 (by decide)⟩

/-! ## Switches that one filter has to itself -/

section
open Builtin

variable {f : Filter} {scratch : ClassScratch} {switch : Nat} {gs gs' : List Group}
  {before after : Report}

/-- No other filter rewrites a dispatch in the skipping dialect: those that rewrite switches
    do not, and safe calls are not switches. -/
theorem not_rewritten_by_other (h : .replace switch gs ∈ Idiom.StringSwitch.kotlinFindings m)
    (hf : f ∈ builtinFilters) (hid : f.id ≠ kotlinWhenString.id) :
    .replace switch gs' ∉ (f.run m c scratch).findings := by
  intro h'
  cases kind_of_mem f hf with
  | marking hmarks => exact hmarks m c _ h'
  | rewriting hf =>
    simp only [rewriting, List.mem_cons, List.not_mem_nil, or_false] at hf
    rcases hf with rfl | rfl | rfl | rfl | rfl
    · exact Idiom.StringSwitch.not_ecj_of_kotlin h h'
    · exact Idiom.DefaultArm.not_when_of_kotlin h h'
    · exact hid rfl
    · obtain ⟨pos, hr⟩ := Idiom.StringSwitch.replaces_of_kotlin h
      obtain ⟨e, he, hs⟩ := hr.switch_entry
      rw [not_switch_of_safeCall h' he] at hs
      cases hs
    · exact Idiom.DefaultArm.not_switch_of_kotlin h h'
  | inline => exact Idiom.InlinedCode.marks_run scratch _ h'
  | serializable => exact Idiom.Serialization.marks_run scratch _ h'

theorem whenString_unique (h : .replace switch gs ∈ Idiom.StringSwitch.kotlinFindings m)
    (h' : .replace switch gs' ∈ Idiom.StringSwitch.kotlinFindings m) : gs' = gs := by
  obtain ⟨pos, hr⟩ := Idiom.StringSwitch.replaces_of_kotlin h
  obtain ⟨pos', hr'⟩ := Idiom.StringSwitch.replaces_of_kotlin h'
  exact hr'.unique hr

/-- What one filter makes of the dispatch: its own filter records the groups, any other leaves
    what is recorded. -/
theorem lookup_findings (h : .replace switch gs ∈ Idiom.StringSwitch.kotlinFindings m)
    (hf : f ∈ builtinFilters) (before : Report) :
    ((f.run m c scratch).findings.foldl Report.add before).replacements.lookup switch =
      if f.id = kotlinWhenString.id then some gs else before.replacements.lookup switch := by
  split
  · next hid =>
    obtain rfl := eq_of_id hf (by simp [builtinFilters]) hid
    exact Report.lookup_foldl_of_mem h (fun gs' => whenString_unique h) before
  · next hid =>
    exact Report.lookup_foldl_of_notMem (fun gs' => not_rewritten_by_other h hf hid) before

/-- What a whole run makes of the dispatch, by induction on the filters that run. -/
theorem lookup_runFilters (h : .replace switch gs ∈ Idiom.StringSwitch.kotlinFindings m)
    (hfs : fs ⊆ builtinFilters) (hrun : (runFilters m c fs scratch before).1 = .ok after) :
    after.replacements.lookup switch =
      if ∃ f ∈ fs, f.id = kotlinWhenString.id then some gs
      else before.replacements.lookup switch := by
  induction fs generalizing scratch before with
  | nil =>
    cases hrun
    simp
  | cons f fs ih =>
    obtain ⟨hf, hfs⟩ := List.cons_subset.1 hfs
    rw [runFilters_cons (kind_of_mem f hf).sound] at hrun
    split at hrun
    · cases hrun
    · rw [ih hfs hrun, lookup_findings h hf]
      by_cases hid : f.id = kotlinWhenString.id
      · simp [hid]
      · simp [hid]

/-- **A dispatch in the skipping dialect is rewritten by one filter only.**  Whenever that
    filter replaces the branches of a switch, it does so in one way, and no other built-in
    filter replaces the branches of that switch.  So whatever built-in filters run, in
    whatever order and into whatever report: if that filter is one of them, the report ends
    with its groups for the switch, and if it is not, what the report had for the switch
    stays. -/
theorem whenString_uncontested (m : Method) (c : ClassInfo) (scratch : ClassScratch)
    (switch : Nat) (gs : List Group)
    (h : .replace switch gs ∈ (kotlinWhenString.run m c scratch).findings) :
    (∀ gs', .replace switch gs' ∈ (kotlinWhenString.run m c scratch).findings → gs' = gs) ∧
    (∀ f ∈ builtinFilters, f.id ≠ kotlinWhenString.id → ∀ scratch' gs',
      .replace switch gs' ∉ (f.run m c scratch').findings) ∧
    ∀ fs, fs ⊆ builtinFilters → ∀ scratch' before after,
      (runFilters m c fs scratch' before).1 = .ok after →
        after.replacements.lookup switch =
          if ∃ f ∈ fs, f.id = kotlinWhenString.id then some gs
          else before.replacements.lookup switch :=
  ⟨fun _ => whenString_unique h, fun _ hf hid _ _ => not_rewritten_by_other h hf hid,
    fun _ hfs _ _ _ => lookup_runFilters h hfs⟩

/-- A dispatch in the skipping dialect, whose default arm throws as that of an exhaustive
    `when` does. -/
def throwingDispatch : Method where
  name := "m"
  desc := "()V"
  code := #[.var .aload 1, .call .invokeVirtual "java/lang/String" "hashCode" "()I" false,
    .lookupSwitch ⟨0⟩ [120] [⟨1⟩], .label ⟨1⟩, .var .aload 1, .constant (.string "x"),
    .call .invokeVirtual "java/lang/String" "equals" "(Ljava/lang/Object;)Z" false,
    .jump .ifEq ⟨0⟩, .jump .goto ⟨2⟩, .label ⟨0⟩,
    .type .new "kotlin/NoWhenBranchMatchedException", .plain .dup,
    .call .invokeSpecial "kotlin/NoWhenBranchMatchedException" "<init>" "()V" false,
    .plain .athrow, .label ⟨2⟩, .plain .vreturn]
  placed_nodup := by decide
  mentioned_placed := by decide

/-- Two filters take up the arm, and one of them alone rewrites the switch.  In the reversed
    order its groups are recorded first, and stay. -/
theorem whenString_uncontested_throwing :
    .replace 2 [[⟨2, 0⟩, ⟨7, 1⟩], [⟨8, 1⟩]] ∈
      (kotlinWhenString.run throwingDispatch { name := "C" } {}).findings ∧
    .ignore 9 13 ∈ (kotlinWhen.run throwingDispatch { name := "C" } {}).findings ∧
    (∀ gs, .replace 2 gs ∉ (kotlinWhen.run throwingDispatch { name := "C" } {}).findings) ∧
    ∃ after, (runFilters throwingDispatch { name := "C" } builtinFilters.reverse {} {}).1 =
        .ok after ∧ after.replacements.lookup 2 = some [[⟨2, 0⟩, ⟨7, 1⟩], [⟨8, 1⟩]] := by
  have hgroups : .replace 2 [[⟨2, 0⟩, ⟨7, 1⟩], [⟨8, 1⟩]] ∈
      (kotlinWhenString.run throwingDispatch { name := "C" } {}).findings := by decide +kernel
  have hrun : (runFilters throwingDispatch { name := "C" } builtinFilters.reverse {} {}).1 =
      .ok { ignored := [⟨3, 8⟩, ⟨7, 7⟩, ⟨9, 13⟩],
            replacements := [(2, [[⟨2, 0⟩, ⟨7, 1⟩], [⟨8, 1⟩]])] } :=
    eq_ok_of_toOption (by decide +kernel)
  obtain ⟨-, hothers, hreport⟩ := whenString_uncontested _ _ _ _ _ hgroups
  refine ⟨hgroups, by decide +kernel, fun gs => ?_, _, hrun, ?_⟩
  · exact hothers kotlinWhen (by simp [builtinFilters]) (by decide) {} gs
  · have hamong : ∃ f ∈ builtinFilters.reverse, f.id = kotlinWhenString.id :=
      ⟨kotlinWhenString, by simp [builtinFilters], rfl⟩
    rw [hreport _ (fun f hf => List.mem_reverse.1 hf) _ _ _ hrun, if_pos hamong]

end

end Winnow
