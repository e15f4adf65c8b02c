/-
  The findings of the built-in filters.

  * `Kind` tells what a built-in filter can do, and `kind_of_mem` has one row for each;
  * `runFilters_cons` says what a run over filters with well-formed findings gives;
  * every finding of a built-in filter is well formed, so
    that no run over built-in filters ends with a refused finding.
-/
import Winnow.Registry
import Winnow.Proofs.Findings.Dispatches
import Winnow.Proofs.Findings.Handlers
import Winnow.Proofs.Findings.Ranges
import Winnow.Proofs.Findings.SafeCalls

namespace Winnow

namespace Builtin

open Idiom

/-- The filters that replace branches. -/
def rewriting : List Filter :=
  [stringSwitchEcj, kotlinWhen, kotlinWhenString, kotlinSafeCallOperator, exhaustiveSwitch]

/-- What a filter can do: mark code or replace branches, without a look at the scratch
    cells, or one of the two things that need them. -/
inductive Kind : Filter → Prop
  | marking {id name description : String} {findings : Method → ClassInfo → List Finding}
      (h : ∀ m c, ∀ x ∈ findings m c, x.Marks m) :
      Kind (Filter.ofFindings id name description findings)
  | rewriting {f : Filter} (h : f ∈ rewriting) : Kind f
  | inline : Kind kotlinInline
  | serializable : Kind kotlinSerializable

theorem kind_ofCondition {id name description : String} {condition : Method → ClassInfo → Bool} :
    Kind (Filter.ofCondition id name description condition) := by
  refine .marking fun m c x hx => ?_
  split at hx
  · exact Finding.marks_ignoreAll x hx
  · cases hx

theorem kind_of_mem : ∀ f ∈ builtinFilters, Kind f := by
  simp only [builtinFilters, List.forall_mem_cons]
  refine ⟨kind_ofCondition, kind_ofCondition, kind_ofCondition,
    .marking fun _ _ => Synchronized.marks_findings,
    .marking fun _ _ => TryWithResources.marks_javac11Findings,
    .marking fun _ _ => TryWithResources.marks_javacFindings,
    .marking fun _ _ => TryWithResources.marks_ecjFindings,
    .marking fun _ _ => Finally.marks_findings,
    kind_ofCondition,
    .marking fun _ _ => Assertion.marks_findings,
    .marking fun _ _ => StringSwitch.marks_javacFindings,
    .rewriting (by simp [rewriting]),
    kind_ofCondition, kind_ofCondition, kind_ofCondition, kind_ofCondition, kind_ofCondition,
    .marking fun _ _ => NullCheck.marks_skipped (by simp),
    .rewriting (by simp [rewriting]),
    .rewriting (by simp [rewriting]),
    .marking fun _ _ => NullCheck.marks_skipped (by simp [NullCheck.throwCastFailure]),
    .marking fun _ _ => NullCheck.marks_skipped (by simp),
    .marking fun _ _ => DefaultArguments.marks_findings,
    kind_ofCondition,
    .inline,
    .marking fun _ _ => Coroutine.marks_findings,
    kind_ofCondition, kind_ofCondition,
    .rewriting (by simp [rewriting]),
    .marking fun _ _ => Compose.marks_findings,
    .marking fun _ _ => CountingLoop.marks_findings,
    kind_ofCondition,
    .serializable,
    kind_ofCondition,
    .marking fun _ _ => Record.marks_patternFindings,
    .rewriting (by simp [rewriting]),
    .marking fun _ _ => Aspect.marks_memberFindings,
    .marking fun _ _ => Aspect.marks_advisedFindings,
    kind_ofCondition, by simp⟩

/-- Built-in filters are told apart by their identifiers. -/
theorem eq_of_id {f g : Filter} (hf : f ∈ builtinFilters) (hg : g ∈ builtinFilters)
    (h : f.id = g.id) : f = g := by
  have hnodup : (builtinFilters.map (·.id)).Nodup := by decide +kernel
  exact List.inj_on_of_nodup_map hnodup hf hg h

end Builtin

/-- The findings of the filter are well formed, whatever the scratch cells hold. -/
def Filter.Sound (f : Filter) : Prop :=
  ∀ m c scratch, ∀ x ∈ (f.run m c scratch).findings, x.WellFormed m

namespace Builtin

open Idiom

theorem sound_of_mem_rewriting {f : Filter} (hf : f ∈ rewriting) : f.Sound := by
  simp only [rewriting, List.mem_cons, List.not_mem_nil, or_false] at hf
  rcases hf with rfl | rfl | rfl | rfl | rfl
  · exact fun _ _ _ => StringSwitch.wellFormed_ecjFindings
  · exact fun _ _ _ => DefaultArm.wellFormed_whenFindings
  · exact fun _ _ _ => StringSwitch.wellFormed_kotlinFindings
  · exact fun _ _ _ => SafeCall.wellFormed_findings
  · exact fun _ _ _ => DefaultArm.wellFormed_switchFindings

theorem Kind.sound {f : Filter} (h : Kind f) : f.Sound := by
  cases h with
  | marking h => exact fun m c _ x hx => (h m c x hx).wellFormed
  | rewriting h => exact sound_of_mem_rewriting h
  | inline => exact fun m c scratch x hx => (InlinedCode.marks_run scratch x hx).wellFormed
  | serializable =>
    exact fun m c scratch x hx => (Serialization.marks_run scratch x hx).wellFormed

end Builtin

/-! ## Runs -/

variable {m : Method} {c : ClassInfo} {fs : List Filter}

/-- The first step of a run whose findings are well formed: all are recorded, and the run
    ends with the filter's failure or goes on. -/
theorem runFilters_cons {f : Filter} (hf : f.Sound) (scratch : ClassScratch) (report : Report) :
    runFilters m c (f :: fs) scratch report =
      match (f.run m c scratch).failure with
      | some cause => (.error (.failed f.id cause), (f.run m c scratch).scratch)
      | none => runFilters m c fs (f.run m c scratch).scratch
          ((f.run m c scratch).findings.foldl Report.add report) := by
  rewrite [runFilters, Report.recordAll_eq_ok (hf m c scratch)]
  rfl

theorem runFilters_ne_refused (h : ∀ f ∈ fs, f.Sound) (scratch : ClassScratch) (report : Report)
    (v : Violation) : (runFilters m c fs scratch report).1 ≠ .error (.refused v) := by
  induction fs generalizing scratch report with
  | nil => simp [runFilters]
  | cons f fs ih =>
    obtain ⟨hf, hfs⟩ := List.forall_mem_cons.1 h
    rw [runFilters_cons hf]
    split
    · simp
    · exact ih hfs _ _

/-- **Every finding of a built-in filter is well formed**: whatever the method, the class
    and the scratch cells, ranges lie in the method, pairs and sources are real
    instructions, and groups are not empty and share no branch.  Hence no run over
    built-in filters, in whatever order and into whatever report, has a finding refused. -/
theorem builtinFilters_wellFormed (m : Method) (c : ClassInfo) :
    (∀ f ∈ builtinFilters, ∀ scratch, ∀ x ∈ (f.run m c scratch).findings, x.WellFormed m) ∧
    ∀ fs, fs ⊆ builtinFilters → ∀ scratch report v,
      (runFilters m c fs scratch report).1 ≠ .error (.refused v) :=
  ⟨fun f hf => (Builtin.kind_of_mem f hf).sound m c, fun _ hfs =>
    runFilters_ne_refused fun f hf => (Builtin.kind_of_mem f (hfs hf)).sound⟩

/-- A dispatch on the hash code of a string with one constant, whose default arm throws. -/
def stringDispatch : Method where
  name := "m"
  desc := "()V"
  code := #[.var .astore 1, .call .invokeVirtual "java/lang/String" "hashCode" "()I" false,
    .lookupSwitch ⟨0⟩ [120] [⟨1⟩], .label ⟨1⟩, .var .aload 1, .constant (.string "x"),
    .call .invokeVirtual "java/lang/String" "equals" "(Ljava/lang/Object;)Z" false,
    .jump .ifNe ⟨2⟩, .label ⟨0⟩, .type .new "kotlin/NoWhenBranchMatchedException", .plain .dup,
    .call .invokeSpecial "kotlin/NoWhenBranchMatchedException" "<init>" "()V" false,
    .plain .athrow, .label ⟨2⟩, .plain .vreturn]
  placed_nodup := by decide
  mentioned_placed := by decide

/-- Both filters that rewrite the dispatch do so with branches of the method. -/
theorem builtinFilters_wellFormed_stringDispatch :
    Finding.replace 2 [[⟨2, 0⟩, ⟨7, 0⟩], [⟨7, 1⟩]] ∈
      (Builtin.stringSwitchEcj.run stringDispatch { name := "C" } {}).findings ∧
    (Finding.replace 2 [[⟨2, 0⟩, ⟨7, 0⟩], [⟨7, 1⟩]]).WellFormed stringDispatch ∧
    Finding.replace 2 [[⟨2, 1⟩]] ∈
      (Builtin.kotlinWhen.run stringDispatch { name := "C" } {}).findings ∧
    (Finding.replace 2 [[⟨2, 1⟩]]).WellFormed stringDispatch ∧
    (runFilters stringDispatch { name := "C" } builtinFilters {} {}).1 ≠
      .error (.refused (.sharedBranch 2)) := by
  obtain ⟨hfindings, hrun⟩ := builtinFilters_wellFormed stringDispatch { name := "C" }
  have hecj : Finding.replace 2 [[⟨2, 0⟩, ⟨7, 0⟩], [⟨7, 1⟩]] ∈
      (Builtin.stringSwitchEcj.run stringDispatch { name := "C" } {}).findings := by
    decide +kernel
  have hwhen : Finding.replace 2 [[⟨2, 1⟩]] ∈
      (Builtin.kotlinWhen.run stringDispatch { name := "C" } {}).findings := by
    decide +kernel
  exact ⟨hecj, hfindings _ (by simp [builtinFilters]) {} _ hecj,
    hwhen, hfindings _ (by simp [builtinFilters]) {} _ hwhen,
    hrun builtinFilters (List.Subset.refl _) {} {} _⟩

end Winnow
