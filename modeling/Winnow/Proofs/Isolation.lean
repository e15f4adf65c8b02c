/-
  What filters remember.

  Two built-in filters use the scratch cells of a class: one caches the first generated
  line, one notes the line of the companion's constructor.

  * `Filter.observe` is what can be seen of a run: its findings and its failure;
  * `scratchAfter` are the cells after earlier runs, and `companionLine?` is the one value
    of these runs that a later one can tell;
  * `Remembers` is the invariant of the cells: the cache holds what would be computed, and
    the note is a given line.  `Remembers.step` keeps it for one run, `remembers_runs` for
    all;
  * hence runs show the same as on empty cells, with one exception that depends on
    `companionLine?` alone.
-/
import Winnow.Proofs.Findings.Builtin
import Winnow.Proofs.Scratch

namespace Winnow

/-- What can be seen of a run of the filter. -/
def Filter.observe (f : Filter) (m : Method) (c : ClassInfo) (scratch : ClassScratch) :
    List Finding × Option Failure :=
  ((f.run m c scratch).findings, (f.run m c scratch).failure)

variable {m : Method} {c : ClassInfo} {s s' : ClassScratch} {f : Filter} {line : Option Nat}

/-! ## The cache of the first generated line -/

namespace Idiom.InlinedCode

/-- The first generated line of the class. -/
def generatedLine (c : ClassInfo) (text : String) : Except SourceMapError (Option Nat) :=
  (SourceMap.parse (c.source.getD "") text).map (firstGenerated? (c.source.getD ""))

/-- The cache is empty or right. -/
def Cached (c : ClassInfo) (s : ClassScratch) : Prop :=
  ∀ text, c.sourceMap = some text → s.Caches .line cell fun _ => generatedLine c text

/-- What a run makes of the first generated line. -/
def outcome (m : Method) (c : ClassInfo) (first : Except SourceMapError (Option Nat))
    (s : ClassScratch) : Outcome :=
  match first with
  | .error e => { findings := [], scratch := s, failure := some (.sourceMap c.name e) }
  | .ok none => { findings := [], scratch := s }
  | .ok (some first) => { findings := generatedRanges m first, scratch := s }

theorem outcome_scratch (first : Except SourceMapError (Option Nat)) :
    (outcome m c first s).scratch = s := by
  rcases first with _ | _ | _ <;> rfl

theorem outcome_eq (first : Except SourceMapError (Option Nat)) :
    (outcome m c first s).findings = (outcome m c first s').findings ∧
      (outcome m c first s).failure = (outcome m c first s').failure := by
  rcases first with _ | _ | _ <;> exact ⟨rfl, rfl⟩

theorem run_of_sourceMap {text : String} (ht : c.sourceMap = some text) (hk : c.isKotlin) :
    run m c s = outcome m c (s.getOrInit .line cell fun _ => generatedLine c text).1
      (s.getOrInit .line cell fun _ => generatedLine c text).2 := by
  simp only [run, ht, hk, ↓reduceIte]
  split
  all_goals
    next h => exact (congrArg (fun x => outcome m c x.1 x.2) h).symm

theorem scratch_run {text : String} (ht : c.sourceMap = some text) (hk : c.isKotlin) :
    (run m c s).scratch = (s.getOrInit .line cell fun _ => generatedLine c text).2 :=
  (congrArg Outcome.scratch (run_of_sourceMap ht hk)).trans (outcome_scratch _)

theorem run_of_no_map (h : c.sourceMap = none ∨ c.isKotlin = false) (s : ClassScratch) :
    run m c s = { findings := [], scratch := s } := by
  unfold run
  rcases h with h | h
  · simp only [h]
  · cases c.sourceMap <;> simp [h]

/-- Either the class has a source map to read, or nothing happens. -/
theorem sourceMap_cases (c : ClassInfo) :
    (∃ text, c.sourceMap = some text ∧ c.isKotlin) ∨
      (c.sourceMap = none ∨ c.isKotlin = false) := by
  cases c.sourceMap with
  | none => exact Or.inr (Or.inl rfl)
  | some text =>
    cases c.isKotlin with
    | false => exact Or.inr (Or.inr rfl)
    | true => exact Or.inl ⟨text, rfl, rfl⟩

/-- **The cache cannot be told from computing afresh.** -/
theorem observe_of_cached (h : Cached c s) :
    Builtin.kotlinInline.observe m c s = Builtin.kotlinInline.observe m c {} := by
  show ((run m c s).findings, (run m c s).failure) = ((run m c {}).findings, (run m c {}).failure)
  rcases sourceMap_cases c with ⟨text, ht, hk⟩ | hno
  · have hempty : ({} : ClassScratch).Caches .line cell fun _ => generatedLine c text :=
      fun v hv => by cases hv
    rw [run_of_sourceMap ht hk, run_of_sourceMap ht hk, Scratch.getOrInit_fst (h text ht),
      Scratch.getOrInit_fst hempty]
    exact Prod.ext (outcome_eq _).1 (outcome_eq _).2
  · rw [run_of_no_map hno, run_of_no_map hno]

theorem cached_run (h : Cached c s) : Cached c (run m c s).scratch := by
  rcases sourceMap_cases c with ⟨text, ht, hk⟩ | hno
  · rw [scratch_run ht hk]
    intro text' ht'
    obtain rfl := Option.some.inj (ht.symm.trans ht')
    exact Scratch.caches_getOrInit (h text ht)
  · rw [run_of_no_map hno]
    exact h

theorem get?_run {key : String} (hkey : key ≠ cell) (t : CellType) :
    (run m c s).scratch.get? t key = s.get? t key := by
  rcases sourceMap_cases c with ⟨text, ht, hk⟩ | hno
  · rw [scratch_run ht hk]
    exact Scratch.get?_getOrInit_of_ne hkey
  · rw [run_of_no_map hno]

end Idiom.InlinedCode

/-! ## The line of the companion's constructor -/

namespace Idiom.Serialization

/-- The class is a companion compiled from Kotlin. -/
def isCompanion (c : ClassInfo) : Bool :=
  c.isKotlin && Text.endsWith "$Companion" c.name

/-- The method is a constructor without parameters. -/
def isConstructor (m : Method) : Bool :=
  m.name == "<init>" && m.desc == "()V"

/-- The method returns a serializer. -/
def isSerializer (m : Method) : Bool :=
  m.name == "serializer" && m.desc == "()L" ++ serializerClass ++ ";"

/-- The class that the companion belongs to. -/
def companionOf (c : ClassInfo) : String :=
  (Text.stripEnd? "$Companion" c.name).getD ""

/-- The line that was noted, if it is known. -/
def notedLine? (s : ClassScratch) : Option Nat :=
  Option.join (α := Nat) (s.get? .line cell)

theorem isConstructor_of_isSerializer (h : isSerializer m) : isConstructor m = false := by
  simp only [isSerializer, Bool.and_eq_true, beq_iff_eq] at h
  simp [isConstructor, h.1]

theorem generated_of_isSerializer (h : isSerializer m) :
    (isWriter m || isReadingConstructor m) = false := by
  have hstart : Text.startsWith "write$Self" "serializer" = false := by decide
  simp only [isSerializer, Bool.and_eq_true, beq_iff_eq] at h
  simp [isWriter, isReadingConstructor, h.1, hstart]

theorem generated_of_isConstructor (h : isConstructor m) :
    (isWriter m || isReadingConstructor m) = false := by
  have hstart : Text.startsWith "write$Self" "<init>" = false := by decide
  have hend : Text.endsWith "Lkotlinx/serialization/internal/SerializationConstructorMarker;)V"
      "()V" = false := by decide
  simp only [isConstructor, Bool.and_eq_true, beq_iff_eq] at h
  simp [isWriter, isReadingConstructor, h.1, h.2, hstart, hend]

/-- A constructor of a companion is noted; all else leaves the cells alone, and only the
    method of a companion that returns the serializer looks at the note. -/
theorem run_eq (m : Method) (c : ClassInfo) (s : ClassScratch) :
    run m c s =
      if isCompanion c && isConstructor m then
        { findings := [], scratch := s.set .line cell (firstLine? m) }
      else
        { findings :=
            if (c.isKotlin && (isWriter m || isReadingConstructor m)) ||
              (isCompanion c && isSerializer m &&
                isWholeBody m (returnSerializer (companionOf c)) &&
                ((notedLine? s).isNone || notedLine? s == firstLine? m))
            then m.ignoreAll else []
          scratch := s } := by
  cases hk : c.isKotlin with
  | false => simp [run, isCompanion, hk]
  | true =>
    cases hg : isWriter m || isReadingConstructor m with
    | true =>
      have hm : isConstructor m = false := by
        cases hm : isConstructor m with
        | false => rfl
        | true => rw [generated_of_isConstructor hm] at hg; cases hg
      simp [run, hk, hg, hm]
    | false =>
      cases he : Text.endsWith "$Companion" c.name with
      | false => simp [run, isCompanion, Text.stripEnd?, hk, hg, he]
      | true =>
        have hbase : Text.stripEnd? "$Companion" c.name = some (companionOf c) := by
          simp [companionOf, Text.stripEnd?, he]
        simp only [run, hk, hg, hbase, isCompanion, he, Bool.not_true, Bool.false_eq_true,
          ↓reduceIte, Bool.and_self, Bool.true_and, Bool.and_false, Bool.false_or]
        show (if isConstructor m then
            ({ findings := [], scratch := s.set .line cell (firstLine? m) } : Outcome)
          else if isSerializer m && isWholeBody m (returnSerializer (companionOf c)) then
            if (notedLine? s).isNone || notedLine? s == firstLine? m then
              { findings := m.ignoreAll, scratch := s }
            else { findings := [], scratch := s }
          else { findings := [], scratch := s }) = _
        cases isSerializer m && isWholeBody m (returnSerializer (companionOf c)) with
        | false => simp
        | true => cases (notedLine? s).isNone || notedLine? s == firstLine? m <;> simp

theorem get?_run {key : String} (hkey : key ≠ cell) (t : CellType) :
    (run m c s).scratch.get? t key = s.get? t key := by
  rw [run_eq]
  split
  · exact Scratch.get?_set_of_ne hkey
  · rfl

theorem notedLine?_run (m : Method) (c : ClassInfo) (s : ClassScratch) :
    notedLine? (run m c s).scratch =
      if isCompanion c && isConstructor m then firstLine? m else notedLine? s := by
  rw [run_eq]
  split
  · have hget : (s.set .line cell (firstLine? m)).get? .line cell = some (firstLine? m) :=
      Scratch.get?_set_self
    exact congrArg (Option.join (α := Nat)) hget
  · rfl

/-- The findings depend on the note alone, and this only in one case. -/
theorem findings_run_eq (h : isCompanion c → isSerializer m → notedLine? s = notedLine? s') :
    (run m c s).findings = (run m c s').findings := by
  rw [run_eq, run_eq]
  split
  · rfl
  · cases hc : isCompanion c && isSerializer m with
    | false => rfl
    | true =>
      rw [Bool.and_eq_true] at hc
      rw [h hc.1 hc.2]

theorem failure_run (m : Method) (c : ClassInfo) (s : ClassScratch) :
    (run m c s).failure = none := by
  rw [run_eq]
  split <;> rfl

end Idiom.Serialization

/-! ## Earlier runs -/

open Idiom

/-- The scratch cells after runs of filters over methods of the class, the latest run
    first. -/
def scratchAfter (c : ClassInfo) : List (Filter × Method) → ClassScratch
  | [] => {}
  | (f, m) :: earlier => (f.run m c (scratchAfter c earlier)).scratch

/-- The line of the constructor that serialization has seen last. -/
def companionLine? (earlier : List (Filter × Method)) : Option Nat :=
  (earlier.find? fun (f, m) =>
    f.id == Builtin.kotlinSerializable.id && Serialization.isConstructor m).bind
      fun (_, m) => Serialization.firstLine? m

/-- The run that can tell an earlier one: serialization on the method of a companion that
    returns the serializer. -/
def tellsLine (f : Filter) (m : Method) (c : ClassInfo) : Bool :=
  f.id == Builtin.kotlinSerializable.id && Serialization.isCompanion c &&
    Serialization.isSerializer m

/-- The cells hold the first generated line of the class, if any, and the noted line. -/
structure Remembers (c : ClassInfo) (line : Option Nat) (s : ClassScratch) : Prop where
  cached : InlinedCode.Cached c s
  noted : Serialization.notedLine? s = line

theorem remembers_empty (c : ClassInfo) : Remembers c none {} :=
  ⟨fun _ _ v hv => (by cases hv), rfl⟩

namespace Builtin

theorem eq_kotlinSerializable (hf : f ∈ builtinFilters) (h : f.id = kotlinSerializable.id) :
    f = kotlinSerializable :=
  eq_of_id hf (by simp [builtinFilters]) h

/-- A filter that does not use the scratch cells. -/
def Stateless (f : Filter) : Prop :=
  ∃ findings : Method → ClassInfo → List Finding,
    ∀ m c s, f.run m c s = { findings := findings m c, scratch := s }

theorem Kind.cases_scratch (h : Kind f) :
    f = kotlinInline ∨ f = kotlinSerializable ∨ Stateless f := by
  cases h with
  | @marking _ _ _ findings _ => exact Or.inr (Or.inr ⟨findings, fun _ _ _ => rfl⟩)
  | rewriting h =>
    simp only [Builtin.rewriting, List.mem_cons, List.not_mem_nil, or_false] at h
    rcases h with rfl | rfl | rfl | rfl | rfl
    all_goals exact Or.inr (Or.inr ⟨_, fun _ _ _ => rfl⟩)
  | inline => exact Or.inl rfl
  | serializable => exact Or.inr (Or.inl rfl)

end Builtin

/-- The noted line after a run. -/
def lineAfter (f : Filter) (m : Method) (c : ClassInfo) (line : Option Nat) : Option Nat :=
  if f.id == Builtin.kotlinSerializable.id && Serialization.isCompanion c &&
    Serialization.isConstructor m then Serialization.firstLine? m else line

theorem lineAfter_of_ne (h : f.id ≠ Builtin.kotlinSerializable.id) :
    lineAfter f m c line = line := by
  simp [lineAfter, h]

/-- The method that can tell the line is not the one that is noted. -/
theorem lineAfter_of_isSerializer (h : Serialization.isSerializer m) :
    lineAfter f m c line = line := by
  simp [lineAfter, Serialization.isConstructor_of_isSerializer h]

theorem Remembers.step_inline (h : Remembers c line s) :
    Remembers c line (Builtin.kotlinInline.run m c s).scratch := by
  refine ⟨InlinedCode.cached_run h.cached, ?_⟩
  have hget := InlinedCode.get?_run (m := m) (c := c) (s := s)
    (show Serialization.cell ≠ InlinedCode.cell by decide) .line
  exact (congrArg (Option.join (α := Nat)) hget).trans h.noted

theorem Remembers.step_serializable (h : Remembers c line s) :
    Remembers c (lineAfter Builtin.kotlinSerializable m c line)
      (Builtin.kotlinSerializable.run m c s).scratch := by
  refine ⟨fun text ht v hv => ?_, ?_⟩
  · have hget := Serialization.get?_run (m := m) (c := c) (s := s)
      (show InlinedCode.cell ≠ Serialization.cell by decide) .line
    exact h.cached text ht v (hget.symm.trans hv)
  · refine (Serialization.notedLine?_run m c s).trans ?_
    rw [h.noted]
    simp [lineAfter]

/-- One run keeps the invariant. -/
theorem Remembers.step (h : Remembers c line s) (hf : f ∈ builtinFilters) :
    Remembers c (lineAfter f m c line) (f.run m c s).scratch := by
  by_cases hid : f.id = Builtin.kotlinSerializable.id
  · obtain rfl := Builtin.eq_kotlinSerializable hf hid
    exact h.step_serializable
  · rw [lineAfter_of_ne hid]
    rcases (Builtin.kind_of_mem f hf).cases_scratch with rfl | rfl | ⟨findings, hrun⟩
    · exact h.step_inline
    · exact absurd rfl hid
    · rw [hrun]; exact h

/-- What a run shows depends on the noted line alone, and this only in one case. -/
theorem Remembers.observe_eq {line' : Option Nat} (h : Remembers c line s)
    (h' : Remembers c line' s') (hf : f ∈ builtinFilters)
    (hline : tellsLine f m c → line = line') : f.observe m c s = f.observe m c s' := by
  rcases (Builtin.kind_of_mem f hf).cases_scratch with rfl | rfl | ⟨findings, hrun⟩
  · exact (InlinedCode.observe_of_cached h.cached).trans
      (InlinedCode.observe_of_cached h'.cached).symm
  · refine Prod.ext (Serialization.findings_run_eq fun hc hm => ?_) ?_
    · rw [h.noted, h'.noted]
      exact hline (by simp [tellsLine, hc, hm])
    · exact (Serialization.failure_run m c s).trans (Serialization.failure_run m c s').symm
  · simp only [Filter.observe, hrun]

/-- What serialization shows for the method of a companion that returns the serializer. -/
theorem Remembers.observe_of_tellsLine (h : Remembers c line s) (hf : f ∈ builtinFilters)
    (ht : tellsLine f m c) :
    f.observe m c s =
      (if Serialization.isWholeBody m
            (Serialization.returnSerializer (Serialization.companionOf c)) ∧
          (line = none ∨ line = Serialization.firstLine? m)
        then m.ignoreAll else [], none) := by
  simp only [tellsLine, Bool.and_eq_true, beq_iff_eq] at ht
  obtain ⟨⟨hid, hc⟩, hm⟩ := ht
  obtain rfl := Builtin.eq_kotlinSerializable hf hid
  refine Prod.ext ?_ (Serialization.failure_run m c s)
  refine (congrArg Outcome.findings (Serialization.run_eq m c s)).trans ?_
  rw [h.noted]
  simp [hc, hm, Serialization.generated_of_isSerializer hm,
    Serialization.isConstructor_of_isSerializer hm]

/-- The invariant holds after every sequence of runs. -/
theorem remembers_runs {earlier : List (Filter × Method)}
    (h : ∀ r ∈ earlier, r.1 ∈ builtinFilters) :
    Remembers c (if Serialization.isCompanion c then companionLine? earlier else none)
      (scratchAfter c earlier) := by
  induction earlier with
  | nil => simpa [companionLine?, scratchAfter] using remembers_empty c
  | cons r earlier ih =>
    obtain ⟨f, m⟩ := r
    obtain ⟨hf, hearlier⟩ := List.forall_mem_cons.1 h
    have hstep := (ih hearlier).step (m := m) hf
    have hline : lineAfter f m c
        (if Serialization.isCompanion c then companionLine? earlier else none) =
        if Serialization.isCompanion c then companionLine? ((f, m) :: earlier) else none := by
      cases hc : Serialization.isCompanion c with
      | false => simp [lineAfter, hc]
      | true =>
        cases hn : f.id == Builtin.kotlinSerializable.id && Serialization.isConstructor m with
        | false => simp [lineAfter, companionLine?, hc, hn]
        | true => simp [lineAfter, companionLine?, hc, hn]
    rw [hline] at hstep
    exact hstep

/-! ## Whole methods and classes -/

/-- A run over filters that each find empty scratch cells, without a look at what is
    recorded. -/
def runAfresh (m : Method) (c : ClassInfo) : List Filter → Report → Except Stop Report
  | [], report => .ok report
  | f :: fs, report =>
    match (f.run m c {}).failure with
    | some cause => .error (.failed f.id cause)
    | none => runAfresh m c fs ((f.run m c {}).findings.foldl Report.add report)

/-- Filters that run over one method do not tell that they share scratch cells. -/
theorem runFilters_eq_runAfresh {fs : List Filter} (hfs : ∀ f ∈ fs, f ∈ builtinFilters)
    (h : Remembers c line s)
    (hline : Serialization.isCompanion c → Serialization.isSerializer m → line = none)
    (report : Report) :
    (runFilters m c fs s report).1 = runAfresh m c fs report ∧
      ∃ line', Remembers c line' (runFilters m c fs s report).2 := by
  induction fs generalizing s line report with
  | nil => exact ⟨rfl, line, h⟩
  | cons f fs ih =>
    obtain ⟨hf, hfs⟩ := List.forall_mem_cons.1 hfs
    have hobserve : f.observe m c s = f.observe m c {} := by
      refine h.observe_eq (remembers_empty c) hf fun ht => ?_
      simp only [tellsLine, Bool.and_eq_true] at ht
      exact hline ht.1.2 ht.2
    have hfindings : (f.run m c s).findings = (f.run m c {}).findings := congrArg Prod.fst hobserve
    have hfailure : (f.run m c s).failure = (f.run m c {}).failure := congrArg Prod.snd hobserve
    have hstep := h.step (m := m) hf
    rw [runFilters_cons (Builtin.kind_of_mem f hf).sound, runAfresh, hfindings, hfailure]
    cases (f.run m c {}).failure with
    | some cause => exact ⟨rfl, _, hstep⟩
    | none =>
      refine ih hfs hstep (fun hc hm => ?_) _
      rw [lineAfter_of_isSerializer hm]
      exact hline hc hm

/-- Once loaded, the extension filters stay the same. -/
theorem Extension.Loader.filters_filters {l : Extension.Loader}
    {read : String → Extension.FileContent} {fs : List Filter} (h : (l.filters read).1 = .ok fs) :
    ((l.filters read).2.filters read).1 = .ok fs := by
  unfold filters at h ⊢
  cases hl : l.loaded with
  | some fs' => simp only [hl] at h ⊢; exact h
  | none =>
    cases hr : l.load read with
    | error e => simp [hl, hr] at h
    | ok fs' => simpa [hl, hr] using h

namespace Registry

variable {r : Registry} {read : String → Extension.FileContent}

theorem filters_extensionFilters (r : Registry) (read : String → Extension.FileContent) :
    (r.extensionFilters read).2.filters = r.filters := rfl

theorem extensionFilters_extensionFilters {fs : List Filter}
    (h : (r.extensionFilters read).1 = .ok fs) :
    ((r.extensionFilters read).2.extensionFilters read).1 = .ok fs :=
  Extension.Loader.filters_filters h

/-- A registry without extensions analyses a method as if the scratch cells were empty,
    and is left as it was. -/
theorem analyzeMethod_eq (hfs : r.filters ⊆ builtinFilters)
    (hext : (r.extensionFilters read).1 = .ok []) (h : Remembers c line s)
    (hline : Serialization.isCompanion c → Serialization.isSerializer m → line = none) :
    (r.analyzeMethod read m c s).1 = (runAfresh m c r.filters {}).mapError (describeStop m c) ∧
      (∃ line', Remembers c line' (r.analyzeMethod read m c s).2.1) ∧
      (r.analyzeMethod read m c s).2.2.filters = r.filters ∧
      ((r.analyzeMethod read m c s).2.2.extensionFilters read).1 = .ok [] := by
  obtain ⟨hrun, hremembers⟩ := runFilters_eq_runAfresh hfs h hline {}
  have hagain := extensionFilters_extensionFilters hext
  have hsame := r.filters_extensionFilters read
  unfold analyzeMethod
  rw [← hrun]
  generalize runFilters m c r.filters s {} = x at hremembers ⊢
  obtain ⟨_ | report, s'⟩ := x
  · exact ⟨rfl, hremembers, rfl, hext⟩
  · generalize r.extensionFilters read = y at hext hagain hsame ⊢
    obtain ⟨extensions, r'⟩ := y
    cases hext
    exact ⟨rfl, hremembers, hsame, hagain⟩

/-- The report of a method on empty cells. -/
def methodReport (r : Registry) (read : String → Extension.FileContent) (c : ClassInfo)
    (m : Method) : Except AnalysisError MethodReport :=
  (r.analyzeMethod read m c {}).1.map fun report => ⟨m.name, m.desc, report⟩

theorem methodReport_eq (hfs : r.filters ⊆ builtinFilters)
    (hext : (r.extensionFilters read).1 = .ok []) :
    r.methodReport read c m =
      ((runAfresh m c r.filters {}).mapError (describeStop m c)).map
        fun report => ⟨m.name, m.desc, report⟩ := by
  rw [methodReport, (analyzeMethod_eq hfs hext (remembers_empty c) fun _ _ => rfl).1]

/-- The methods of a class that is no companion have the reports that they have on empty
    cells; the induction carries that the registry and the cells tell no difference. -/
theorem analyzeMethods_eq (hc : Serialization.isCompanion c = false)
    (hfs : r.filters ⊆ builtinFilters) (hext : (r.extensionFilters read).1 = .ok [])
    (h : Remembers c line s) (ms : List Method) :
    (r.analyzeMethods read c s ms).1 = ms.mapM (r.methodReport read c) := by
  induction ms generalizing r s line with
  | nil => rfl
  | cons m ms ih =>
    obtain ⟨hm, ⟨line', h'⟩, hfilters, hext'⟩ :=
      analyzeMethod_eq (m := m) hfs hext h fun hc' => absurd hc' (by simp [hc])
    have hrest := ih (hfilters ▸ hfs) hext' h'
    have hsame : (r.analyzeMethod read m c s).2.2.methodReport read c = r.methodReport read c := by
      funext m'
      rw [methodReport_eq (hfilters ▸ hfs) hext', methodReport_eq hfs hext, hfilters]
    rw [hsame] at hrest
    rw [List.mapM_cons, methodReport_eq hfs hext, analyzeMethods]
    rw [← hm, ← hrest]
    generalize r.analyzeMethod read m c s = x
    obtain ⟨_ | report, s', r'⟩ := x
    · rfl
    · dsimp only
      generalize r'.analyzeMethods read c s' ms = y
      obtain ⟨_ | reports, r''⟩ := y <;> rfl

theorem analyzeClass_eq (hc : Serialization.isCompanion c = false)
    (hfs : r.filters ⊆ builtinFilters) (hext : (r.extensionFilters read).1 = .ok [])
    (ms : List Method) :
    (r.analyzeClass read ⟨c, ms⟩).1 = (ms.mapM (r.methodReport read c)).map (⟨c.name, ·⟩) := by
  rw [← analyzeMethods_eq hc hfs hext (remembers_empty c) ms, analyzeClass]
  generalize r.analyzeMethods read c {} ms = x
  obtain ⟨_ | reports, r'⟩ := x <;> rfl

end Registry

/-- Permuting the methods of a class that is no companion permutes the reports. -/
theorem Registry.analyzeClass_perm {r : Registry} {read : String → Extension.FileContent}
    (hc : Serialization.isCompanion c = false) (hfs : r.filters ⊆ builtinFilters)
    (hext : (r.extensionFilters read).1 = .ok []) {ms ms' : List Method} (hp : ms.Perm ms')
    {reports : List MethodReport} (h : (r.analyzeClass read ⟨c, ms⟩).1 = .ok ⟨c.name, reports⟩) :
    ∃ reports', (r.analyzeClass read ⟨c, ms'⟩).1 = .ok ⟨c.name, reports'⟩ ∧
      reports.Perm reports' := by
  rw [r.analyzeClass_eq hc hfs hext ms] at h
  rw [r.analyzeClass_eq hc hfs hext ms']
  cases hreports : ms.mapM (r.methodReport read c) with
  | error e => rw [hreports] at h; cases h
  | ok bs =>
    rw [hreports] at h
    cases h
    obtain ⟨bs', hbs', hperm⟩ := List.perm_of_mapM hp hreports
    refine ⟨bs', ?_, hperm⟩
    rewrite [hbs']
    rfl

/-- **Filters remember one line at most.**  After any runs of built-in filters over methods
    of a class, a run shows what it shows on empty scratch cells, so that cached and failed
    readings of the source map cannot be told from fresh ones.  The exception is
    serialization on the method of a Kotlin companion that returns the serializer, which
    depends on the line of the constructor that serialization has seen last.  Running a
    filter again shows the same again.

    Hence the methods of a class that is no companion have the reports that they have on
    empty cells, if there are no extension filters, and permuting the methods permutes
    the reports. -/
theorem builtinFilters_isolated (c : ClassInfo) :
    (∀ earlier f m, (∀ r ∈ earlier, r.1 ∈ builtinFilters) → f ∈ builtinFilters →
      f.observe m c (scratchAfter c earlier) =
        (if tellsLine f m c then
          (if Serialization.isWholeBody m
                (Serialization.returnSerializer (Serialization.companionOf c)) ∧
              (companionLine? earlier = none ∨
                companionLine? earlier = Serialization.firstLine? m)
            then m.ignoreAll else [], none)
        else f.observe m c {}) ∧
      f.observe m c (scratchAfter c ((f, m) :: earlier)) =
        f.observe m c (scratchAfter c earlier)) ∧
    ∀ (r : Registry) read, Text.endsWith "$Companion" c.name = false →
      r.filters ⊆ builtinFilters → (r.extensionFilters read).1 = .ok [] →
      ∀ ms, (r.analyzeClass read ⟨c, ms⟩).1 =
          (ms.mapM (r.methodReport read c)).map (⟨c.name, ·⟩) ∧
        ∀ ms' reports, ms.Perm ms' → (r.analyzeClass read ⟨c, ms⟩).1 = .ok ⟨c.name, reports⟩ →
          ∃ reports', (r.analyzeClass read ⟨c, ms'⟩).1 = .ok ⟨c.name, reports'⟩ ∧
            reports.Perm reports' := by
  constructor
  · intro earlier f m hearlier hf
    have h := remembers_runs (c := c) hearlier
    constructor
    · split
      · next ht =>
        have hc : Serialization.isCompanion c := by
          simp only [tellsLine, Bool.and_eq_true] at ht; exact ht.1.2
        rw [h.observe_of_tellsLine hf ht, if_pos hc]
      · next ht => exact h.observe_eq (remembers_empty c) hf fun h => absurd h ht
    · refine (h.step hf).observe_eq h hf fun ht => ?_
      simp only [tellsLine, Bool.and_eq_true] at ht
      exact lineAfter_of_isSerializer ht.2
  · intro r read hname hfs hext
    have hc : Serialization.isCompanion c = false := by simp [Serialization.isCompanion, hname]
    intro ms
    exact ⟨r.analyzeClass_eq hc hfs hext ms, fun ms' reports hp hok =>
      Registry.analyzeClass_perm hc hfs hext hp hok⟩

/-- The constructor of a companion, on line 3. -/
def companionConstructor : Method where
  name := "<init>"
  desc := "()V"
  code := #[.label ⟨0⟩, .line 3 ⟨0⟩, .plain .vreturn]
  placed_nodup := by decide
  mentioned_placed := by decide

/-- A method that returns the serializer of class `A`, on line 5. -/
def serializerMethod : Method where
  name := "serializer"
  desc := "()Lkotlinx/serialization/KSerializer;"
  code := #[.label ⟨0⟩, .line 5 ⟨0⟩,
    .field .getStatic "A$$serializer" "INSTANCE" "LA$$serializer;",
    .type .checkCast "kotlinx/serialization/KSerializer", .plain .areturn]
  placed_nodup := by decide
  mentioned_placed := by decide

theorem eq_ok_of_toOption {ε α : Type} {x : Except ε α} {a : α} (h : x.toOption = some a) :
    x = .ok a := by
  cases x with
  | error e => cases h
  | ok b => cases h; rfl

/-- The method is ignored as generated as long as no constructor with another line was
    seen; in a class that is no companion the order of the methods does not matter. -/
theorem builtinFilters_isolated_companion :
    Builtin.kotlinSerializable.observe serializerMethod
        { name := "A$Companion", annotations := ["Lkotlin/Metadata;"] }
        (scratchAfter { name := "A$Companion", annotations := ["Lkotlin/Metadata;"] }
          [(Builtin.kotlinInline, companionConstructor)]) = ([.ignore 0 4], none) ∧
    Builtin.kotlinSerializable.observe serializerMethod
        { name := "A$Companion", annotations := ["Lkotlin/Metadata;"] }
        (scratchAfter { name := "A$Companion", annotations := ["Lkotlin/Metadata;"] }
          [(Builtin.kotlinInline, serializerMethod),
            (Builtin.kotlinSerializable, companionConstructor)]) = ([], none) ∧
    ∃ reports, (Registry.builtin.analyzeClass (fun _ => .absent)
        ⟨{ name := "A", annotations := ["Lkotlin/Metadata;"] },
          [serializerMethod, companionConstructor]⟩).1 = .ok ⟨"A", reports⟩ ∧
      [⟨"<init>", "()V", {}⟩, ⟨"serializer", "()Lkotlinx/serialization/KSerializer;", {}⟩].Perm
        reports := by
  have hmem : Builtin.kotlinSerializable ∈ builtinFilters := by simp [builtinFilters]
  obtain ⟨hruns, -⟩ := builtinFilters_isolated
    { name := "A$Companion", annotations := ["Lkotlin/Metadata;"] }
  obtain ⟨-, hclass⟩ := builtinFilters_isolated
    { name := "A", annotations := ["Lkotlin/Metadata;"] }
  refine ⟨?_, ?_, ?_⟩
  · rw [(hruns _ _ serializerMethod (by simp [builtinFilters]) hmem).1]
    decide +kernel
  · rw [(hruns _ _ serializerMethod (by simp [builtinFilters]) hmem).1]
    decide +kernel
  · obtain ⟨-, hperm⟩ := hclass Registry.builtin (fun _ => .absent) (by decide +kernel)
      (List.Subset.refl _) rfl [companionConstructor, serializerMethod]
    exact hperm [serializerMethod, companionConstructor] _ (.swap _ _ _)
      (eq_ok_of_toOption (by decide +kernel))

end Winnow
