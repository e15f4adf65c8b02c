/-
  Which code counts as inlined.

  * `generatedStarts` are the output lines at which a source map puts code other than a line
    of the source file at its own place; the first generated line is the least of them
    (`firstGenerated?_eq_some_iff`);
  * `Filter.Leaves` says that a filter never writes a cell.  Runs of the built-in filters, and
    of others that leave its cell, keep the cache of the first generated line right
    (`cached_scratchAfter`);
  * hence the ranges that are ignored are those of the lines from the first generated on.
-/
import Mathlib.Order.Bounds.Basic
import Winnow.Proofs.GeneratedLines
import Winnow.Proofs.Isolation

namespace Winnow

/-- The filter never writes the cell. -/
def Filter.Leaves (f : Filter) (key : String) : Prop :=
  ∀ m c s t, (f.run m c s).scratch.get? t key = s.get? t key

namespace Idiom.InlinedCode

open Range (Covered Canonical)

variable {m : Method} {c : ClassInfo} {s s' : ClassScratch} {source text : String}
  {map : SourceMap} {first : Nat} {f : Filter}

/-! ## The first generated line -/

/-- The output lines of the mappings that do not map a line of the source file to itself. -/
def generatedStarts (source : String) (map : SourceMap) : Set Nat :=
  {n | ∃ x ∈ map, (x.file ≠ source ∨ x.input ≠ x.output) ∧ x.output = n}

theorem mem_generatedStarts {n : Nat} :
    n ∈ generatedStarts source map ↔
      n ∈ (map.filter fun x => x.file != source || x.input != x.output).map (·.output) := by
  simp only [generatedStarts, Set.mem_ofPred_eq, List.mem_map, List.mem_filter, Bool.or_eq_true,
    bne_iff_ne, and_assoc]

theorem firstGenerated?_eq_some_iff :
    firstGenerated? source map = some first ↔ IsLeast (generatedStarts source map) first := by
  rw [firstGenerated?, List.min?_eq_some_iff]
  simp only [IsLeast, lowerBounds, Set.mem_ofPred_eq, mem_generatedStarts]

theorem firstGenerated?_eq_none_iff :
    firstGenerated? source map = none ↔ generatedStarts source map = ∅ := by
  rw [firstGenerated?, List.min?_eq_none_iff, Set.eq_empty_iff_forall_notMem,
    List.eq_nil_iff_forall_not_mem]
  simp only [mem_generatedStarts]

/-! ## The cache after earlier runs -/

theorem Cached.of_get? (h : Cached c s) (hget : s'.get? .line cell = s.get? .line cell) :
    Cached c s' :=
  fun text ht v hv => h text ht v (hget.symm.trans hv)

/-- A run of a built-in filter keeps the cache right, whatever line is noted. -/
theorem Cached.step (h : Cached c s) (hf : f ∈ builtinFilters) :
    Cached c (f.run m c s).scratch :=
  (Remembers.step ⟨h, rfl⟩ hf).cached

theorem cached_scratchAfter {earlier : List (Filter × Method)}
    (h : ∀ r ∈ earlier, r.1 ∈ builtinFilters ∨ r.1.Leaves cell) :
    Cached c (scratchAfter c earlier) := by
  induction earlier with
  | nil => exact (remembers_empty c).cached
  | cons r earlier ih =>
    obtain ⟨f, m⟩ := r
    obtain ⟨hf, hearlier⟩ := List.forall_mem_cons.1 h
    rcases hf with hf | hf
    · exact (ih hearlier).step hf
    · exact (ih hearlier).of_get? (hf m c _ .line)

/-- A run shows what it makes of the first generated line, computed afresh. -/
theorem observe_eq_outcome (h : Cached c s) (ht : c.sourceMap = some text) (hk : c.isKotlin) :
    Builtin.kotlinInline.observe m c s =
      ((outcome m c (generatedLine c text) {}).findings,
        (outcome m c (generatedLine c text) {}).failure) := by
  show ((run m c s).findings, (run m c s).failure) = _
  rw [run_of_sourceMap ht hk, Scratch.getOrInit_fst (h text ht)]
  exact Prod.ext (outcome_eq _).1 (outcome_eq _).2

end Idiom.InlinedCode

open Idiom.InlinedCode Range

/-- **The code of generated lines is ignored.**  In a Kotlin class with a source map, after any
    runs of built-in filters and of others that leave the cell of the first generated line:

    * if the map can be read and `first` is the least line at which it puts code other than a
      line of the source file at its own place, the ranges that are ignored cover the positions
      of the method whose line, 0 before all line entries, is `first` or a later one.  They
      increase and neither overlap nor touch, so that they are their own coalesced form, if the
      size of the method is a 64-bit word, as it is for positions that can be told;
    * if the map has no such line, nothing is ignored;
    * if the map cannot be read, the filter fails and nothing is ignored. -/
theorem inlined_ranges_generated (m : Method) (c : ClassInfo) (text : String)
    (earlier : List (Filter × Method)) (hkotlin : c.isKotlin) (htext : c.sourceMap = some text)
    (hearlier : ∀ r ∈ earlier, r.1 ∈ builtinFilters ∨ r.1.Leaves cell) :
    (∀ map first, SourceMap.parse (c.source.getD "") text = .ok map →
      IsLeast (generatedStarts (c.source.getD "") map) first →
      ∃ rs : List Range,
        Builtin.kotlinInline.observe m c (scratchAfter c earlier) =
          (rs.map fun r => .ignore r.first r.last, none) ∧
        (∀ pos, Covered rs pos ↔ pos < m.size ∧ first ≤ (m.lineAt? pos).getD 0) ∧
        Canonical rs ∧
        (m.size ≤ lastPosition →
          ∀ report : Report, report.ignored = rs → report.coalesced = .ok rs)) ∧
    (∀ map, SourceMap.parse (c.source.getD "") text = .ok map →
      generatedStarts (c.source.getD "") map = ∅ →
      Builtin.kotlinInline.observe m c (scratchAfter c earlier) = ([], none)) ∧
    ∀ e, SourceMap.parse (c.source.getD "") text = .error e →
      Builtin.kotlinInline.observe m c (scratchAfter c earlier) =
        ([], some (.sourceMap c.name e)) := by
  rw [observe_eq_outcome (cached_scratchAfter hearlier) htext hkotlin, generatedLine]
  refine ⟨fun map first hparse hfirst => ?_, fun map hparse hnone => ?_, fun e hparse => ?_⟩
  · obtain ⟨rs, hrs, hcanonical, hcovered⟩ := generatedRanges_eq m first
    rw [hparse, Except.map, firstGenerated?_eq_some_iff.2 hfirst]
    refine ⟨rs, congrArg (·, none) hrs, hcovered, hcanonical, ?_⟩
    rintro hsize report rfl
    have hbounded : Bounded report.ignored := by
      intro r hr
      have hle := hcanonical.le r hr
      have := ((hcovered r.last).1 ⟨r, hr, hle, Nat.le_refl _⟩).1
      exact ⟨hle, by omega⟩
    exact (Report.coalesced_eq_ok_iff hbounded).2 ⟨hcanonical, fun _ => Report.mem_positions.symm⟩
  · rw [hparse, Except.map, firstGenerated?_eq_none_iff.2 hnone]
    rfl
  · rw [hparse]
    rfl

/-- A method with code of line 11 between code of lines 4 and 5. -/
def inliningMethod : Method where
  name := "example"
  desc := "()V"
  code := #[.label ⟨0⟩, .line 4 ⟨0⟩, .plain .iconst0, .label ⟨1⟩, .line 11 ⟨1⟩, .plain .pop,
    .label ⟨2⟩, .line 5 ⟨2⟩, .plain .vreturn]
  placed_nodup := by decide
  mentioned_placed := by decide

/-- A class whose source map puts lines of another file at lines 11 to 13. -/
def inliningClass : ClassInfo where
  name := "ExampleKt"
  annotations := ["Lkotlin/Metadata;"]
  source := some "Example.kt"
  sourceMap := some ("SMAP\nExample.kt\nKotlin\n*S Kotlin\n*F\n+ 1 Example.kt\nExampleKt\n" ++
    "+ 2 Stdlib.kt\nkotlin/StdlibKt\n*L\n1#1,10:1\n20#2,3:11\n*E\n")

/-- The second run, which finds the first generated line in its cell, ignores the code of
    line 11, up to the line entry behind it. -/
theorem inlined_ranges_generated_example :
    ∃ rs : List Range,
      Builtin.kotlinInline.observe inliningMethod inliningClass
          (scratchAfter inliningClass [(Builtin.kotlinInline, inliningMethod)]) =
        (rs.map fun r => .ignore r.first r.last, none) ∧
      ¬ Covered rs 3 ∧ Covered rs 4 ∧ Covered rs 6 ∧ ¬ Covered rs 7 := by
  obtain ⟨hok, -⟩ := inlined_ranges_generated inliningMethod inliningClass _
    [(Builtin.kotlinInline, inliningMethod)] (by decide) rfl (by simp [builtinFilters])
  have hparse : SourceMap.parse (inliningClass.source.getD "")
      (inliningClass.sourceMap.getD "") =
        .ok [⟨"Example.kt", "ExampleKt", 1, 10, 1⟩, ⟨"Stdlib.kt", "kotlin/StdlibKt", 20, 3, 11⟩] :=
    eq_ok_of_toOption (by decide +kernel)
  obtain ⟨rs, hrs, hcovered, -⟩ := hok _ 11 hparse (firstGenerated?_eq_some_iff.1 (by decide))
  refine ⟨rs, hrs, ?_⟩
  simp only [hcovered]
  decide +kernel

end Winnow
