/-
  Extension filters over a whole session.

  A session is a registry together with the files that can be read.  Its events are calls for
  the extension filters, by themselves or within the analysis of a method, resets, and
  changes of the files.

  * `Session.AllFailed` and `Session.FirstLoad` look at a history only, at what the files
    were when the filters were asked for: no load has succeeded since the last reset, or the
    first to succeed gave these filters;
  * `Session.loaded_next` says what one event does to the loaded filters, and
    `Session.loaded_after` what a history does: they are those of the first load.
-/
import Winnow.Registry
import Winnow.Proofs.Extension.Loading

namespace Winnow

namespace Registry

variable {r : Registry} {read : String → Extension.FileContent} {m : Method} {c : ClassInfo}
  {scratch : ClassScratch}

/-- Whether the analysis of a method gets to the extension filters. -/
def reachesExtensions (filters : List Filter) (m : Method) (c : ClassInfo)
    (scratch : ClassScratch) : Bool :=
  (runFilters m c filters scratch {}).1.isOk

/-- The report of a method, with this answer to the call for the extension filters. -/
def reportWith (r : Registry) (m : Method) (c : ClassInfo) (scratch : ClassScratch)
    (extensions : Except SetupError (List Filter)) : Except AnalysisError Report :=
  match runFilters m c r.filters scratch {}, extensions with
  | (.error stop, _), _ => .error (describeStop m c stop)
  | (.ok _, _), .error e =>
    .error (.failed extensionIdentity.id c.name m.name m.desc (.setup e))
  | (.ok report, scratch), .ok fs =>
    (runFilters m c fs scratch report).1.mapError (describeExtensionStop m c)

/-- What the analysis of a method reports, and the registry that it leaves. -/
theorem analyzeMethod_parts :
    (r.analyzeMethod read m c scratch).1 =
        r.reportWith m c scratch (r.extensionFilters read).1 ∧
      (r.analyzeMethod read m c scratch).2.2 =
        if reachesExtensions r.filters m c scratch then (r.extensionFilters read).2 else r := by
  unfold analyzeMethod reportWith reachesExtensions
  rcases runFilters m c r.filters scratch {} with ⟨_ | report, scratch'⟩
  · exact ⟨rfl, rfl⟩
  · rcases r.extensionFilters read with ⟨_ | fs, r'⟩
    · exact ⟨rfl, rfl⟩
    · dsimp only
      rcases runFilters m c fs scratch' report with ⟨_ | _, _⟩
      · exact ⟨rfl, rfl⟩
      · exact ⟨rfl, rfl⟩

end Registry

namespace Extension

/-! ## Sessions -/

inductive Event where
  /-- A call for the extension filters. -/
  | ask
  /-- The analysis of a method. -/
  | analyze (m : Method) (c : ClassInfo) (scratch : ClassScratch)
  | reset
  /-- From now on the files are these. -/
  | change (read : String → FileContent)

/-- Whether the event calls for the extension filters of a registry with these filters. -/
def Event.asks (filters : List Filter) : Event → Bool
  | ask => true
  | analyze m c scratch => Registry.reachesExtensions filters m c scratch
  | reset => false
  | change _ => false

structure Session where
  registry : Registry
  read : String → FileContent

namespace Session

/-- A session in which nothing has happened yet. -/
def start (filters : List Filter) (config : Config) (catalog : Catalog)
    (read : String → FileContent) : Session where
  registry := { filters, extensions := { path := config.listPath?, catalog } }
  read := read

/-- The registry of a configuration starts such a session. -/
theorem start_ofConfig {config : Config} {catalog : Catalog} {r : Registry}
    (h : Registry.ofConfig config catalog = .ok r) (read : String → FileContent) :
    start r.filters config catalog read = ⟨r, read⟩ := by
  unfold Registry.ofConfig at h
  split at h
  · cases h
  · cases h; rfl

def next (s : Session) : Event → Session
  | .ask => { s with registry := (s.registry.extensionFilters s.read).2 }
  | .analyze m c scratch =>
    { s with registry := (s.registry.analyzeMethod s.read m c scratch).2.2 }
  | .reset => { s with registry := s.registry.reset }
  | .change read => { s with read }

/-- The session after a history. -/
def after (s : Session) (events : List Event) : Session :=
  events.foldl next s

variable {s : Session} {e : Event} {events : List Event} {fs : List Filter}

theorem after_concat (s : Session) (events : List Event) (e : Event) :
    s.after (events ++ [e]) = (s.after events).next e := by
  simp [after]

/-! ### One event -/

/-- The answer to a call for the extension filters. -/
theorem extensionFilters_eq (r : Registry) (read : String → FileContent) :
    r.extensionFilters read =
      match r.extensions.loaded, r.extensions.load read with
      | some fs, _ => (.ok fs, r)
      | none, .error e => (.error e, r)
      | none, .ok fs => (.ok fs, { r with extensions := { r.extensions with loaded := some fs } }) := by
  unfold Registry.extensionFilters Loader.filters
  cases r.extensions.loaded with
  | some fs => rfl
  | none => cases r.extensions.load read <;> rfl

theorem answer_of_loaded {r : Registry} {read : String → FileContent}
    (h : r.extensions.loaded = some fs) : (r.extensionFilters read).1 = .ok fs := by
  rw [extensionFilters_eq, h]

theorem answer_of_not_loaded {r : Registry} (h : r.extensions.loaded = none)
    (read : String → FileContent) : (r.extensionFilters read).1 = r.extensions.load read := by
  rw [extensionFilters_eq, h]
  cases r.extensions.load read <;> rfl

/-- An event that calls for the extension filters does what a call does, and one that is no
    reset and does not call leaves the registry alone. -/
theorem registry_next (hreset : e ≠ .reset) :
    (s.next e).registry =
      if e.asks s.registry.filters then (s.registry.extensionFilters s.read).2
      else s.registry := by
  cases e with
  | ask => rfl
  | analyze m c scratch => exact Registry.analyzeMethod_parts.2
  | reset => exact absurd rfl hreset
  | change read => rfl

/-- What stays the same for a whole session. -/
structure SameSetup (s s' : Session) : Prop where
  filters : s'.registry.filters = s.registry.filters
  path : s'.registry.extensions.path = s.registry.extensions.path
  catalog : s'.registry.extensions.catalog = s.registry.extensions.catalog

theorem sameSetup_next (s : Session) (e : Event) : SameSetup s (s.next e) := by
  by_cases hreset : e = .reset
  · subst hreset
    exact ⟨rfl, rfl, rfl⟩
  · constructor
    all_goals
      rw [registry_next hreset, extensionFilters_eq]
      split
      · rcases s.registry.extensions.loaded with _ | fs
        · rcases s.registry.extensions.load s.read with _ | fs <;> rfl
        · rfl
      · rfl

theorem sameSetup_after (s : Session) (events : List Event) : SameSetup s (s.after events) := by
  induction events using List.reverseRecOn with
  | nil => exact ⟨rfl, rfl, rfl⟩
  | append_singleton events e ih =>
    rw [after_concat]
    have h := sameSetup_next (s.after events) e
    exact ⟨h.filters.trans ih.filters, h.path.trans ih.path, h.catalog.trans ih.catalog⟩

theorem loads_after (s : Session) (events : List Event) (read : String → FileContent)
    (result : Except SetupError (List Filter)) :
    (s.after events).registry.extensions.load read = result ↔
      s.registry.extensions.Loads read result := by
  have h := sameSetup_after s events
  rw [Loader.load_eq_iff, Loader.Loads, Loader.Loads, h.path, h.catalog]

/-- What one event does to the loaded filters. -/
theorem loaded_next (s : Session) (e : Event) :
    (s.next e).registry.extensions.loaded = some fs ↔
      e ≠ .reset ∧ (s.registry.extensions.loaded = some fs ∨
        s.registry.extensions.loaded = none ∧ e.asks s.registry.filters ∧
          s.registry.extensions.load s.read = .ok fs) := by
  by_cases hreset : e = .reset
  · subst hreset
    simp [next, Registry.reset, Loader.reset]
  · rw [registry_next hreset, extensionFilters_eq]
    cases hasks : e.asks s.registry.filters with
    | false => simp [hreset]
    | true =>
      cases hloaded : s.registry.extensions.loaded with
      | some fs' => simp [hreset, hloaded]
      | none => cases hload : s.registry.extensions.load s.read <;> simp [hreset, hloaded]

theorem loaded_next_eq_none (s : Session) (e : Event) :
    (s.next e).registry.extensions.loaded = none ↔
      e = .reset ∨ s.registry.extensions.loaded = none ∧ (e.asks s.registry.filters →
        ∃ err, s.registry.extensions.load s.read = .error err) := by
  simp only [Option.eq_none_iff_forall_ne_some, ne_eq, loaded_next]
  by_cases hreset : e = .reset
  · simp [hreset]
  · cases s.registry.extensions.loaded with
    | some fs => simp [hreset]
    | none => cases s.registry.extensions.load s.read <;> simp [hreset]

/-! ### Histories -/

/-- Every load that was tried since the last reset failed. -/
def AllFailed (s : Session) (events : List Event) : Prop :=
  ∀ before e later, events = before ++ e :: later → .reset ∉ later →
    e.asks s.registry.filters →
    ∃ err, s.registry.extensions.Loads (s.after before).read (.error err)

/-- The first load to succeed since the last reset gave these filters, by what the files
    were then. -/
def FirstLoad (s : Session) (events : List Event) (fs : List Filter) : Prop :=
  ∃ before e later, events = before ++ e :: later ∧ .reset ∉ later ∧
    e.asks s.registry.filters ∧ s.registry.extensions.Loads (s.after before).read (.ok fs) ∧
    AllFailed s before

theorem allFailed_concat :
    AllFailed s (events ++ [e]) ↔
      e = .reset ∨ AllFailed s events ∧ (e.asks s.registry.filters →
        ∃ err, s.registry.extensions.Loads (s.after events).read (.error err)) := by
  constructor
  · intro h
    by_cases hreset : e = .reset
    · exact Or.inl hreset
    · refine Or.inr ⟨fun before x later hevents hlater hx => ?_, fun he => ?_⟩
      · refine h before x (later ++ [e]) (by simp [hevents]) ?_ hx
        simpa [hlater] using Ne.symm hreset
      · exact h events e [] rfl List.not_mem_nil he
  · intro h before x later hevents hlater hx
    rcases List.cut_append_singleton hevents with ⟨-, rfl, rfl⟩ | ⟨later', rfl, rfl⟩
    · rcases h with rfl | ⟨-, h⟩
      · cases hx
      · exact h hx
    · rw [List.mem_append, not_or] at hlater
      rcases h with rfl | ⟨h, -⟩
      · exact absurd (List.mem_singleton.2 rfl) hlater.2
      · exact h before x later' rfl hlater.1 hx

theorem firstLoad_concat :
    FirstLoad s (events ++ [e]) fs ↔
      e ≠ .reset ∧ (FirstLoad s events fs ∨
        AllFailed s events ∧ e.asks s.registry.filters ∧
          s.registry.extensions.Loads (s.after events).read (.ok fs)) := by
  constructor
  · rintro ⟨before, x, later, hevents, hlater, hx, hload, hfailed⟩
    rcases List.cut_append_singleton hevents with ⟨-, rfl, rfl⟩ | ⟨later', rfl, rfl⟩
    · refine ⟨?_, Or.inr ⟨hfailed, hx, hload⟩⟩
      rintro rfl
      cases hx
    · rw [List.mem_append, not_or] at hlater
      refine ⟨?_, Or.inl ⟨before, x, later', rfl, hlater.1, hx, hload, hfailed⟩⟩
      rintro rfl
      exact hlater.2 (List.mem_singleton.2 rfl)
  · rintro ⟨hreset, ⟨before, x, later, rfl, hlater, hx, hload, hfailed⟩ | ⟨hfailed, he, hload⟩⟩
    · refine ⟨before, x, later ++ [e], by simp, ?_, hx, hload, hfailed⟩
      simpa [hlater] using Ne.symm hreset
    · exact ⟨events, e, [], rfl, List.not_mem_nil, he, hload, hfailed⟩

/-- **The loaded filters are those of the first load.**  The induction is on the history,
    from its end; it carries with it when nothing is loaded. -/
theorem loaded_after (h : s.registry.extensions.loaded = none) (events : List Event) :
    ((s.after events).registry.extensions.loaded = none ↔ AllFailed s events) ∧
    ∀ fs, (s.after events).registry.extensions.loaded = some fs ↔ FirstLoad s events fs := by
  induction events using List.reverseRecOn with
  | nil =>
    refine ⟨iff_of_true h fun before e later hevents => ?_, fun fs => iff_of_false ?_ ?_⟩
    · simp at hevents
    · simp [after, h]
    · rintro ⟨before, e, later, hevents, -⟩
      simp at hevents
  | append_singleton events e ih =>
    obtain ⟨hnone, hsome⟩ := ih
    have hfilters := (sameSetup_after s events).filters
    have hloads := loads_after s events (s.after events).read
    rw [after_concat]
    constructor
    · rw [loaded_next_eq_none, allFailed_concat, hnone, hfilters]
      simp only [hloads]
    · intro fs
      rw [loaded_next, firstLoad_concat, hsome, hnone, hfilters, hloads]

end Session

open Session

/-- **Extension filters are loaded once.**  After any history of a session, a call for the
    extension filters, by itself or within the analysis of a method, gives the filters of
    the first load that has succeeded since the last reset, whatever has become of the files.
    While no load has succeeded, nothing is kept, and a call gives what the list gives as it
    is now; if that is an error, still nothing is kept.  Without a directory for the list
    there are never any extension filters. -/
theorem extensions_loaded_once (filters : List Filter) (config : Config) (catalog : Catalog)
    (read : String → FileContent) (events : List Event) :
    let start := Session.start filters config catalog read
    let now := start.after events
    let answer := (now.registry.extensionFilters now.read).1
    (∀ m c scratch, (now.registry.analyzeMethod now.read m c scratch).1 =
      now.registry.reportWith m c scratch answer) ∧
    (∀ fs, start.FirstLoad events fs → answer = .ok fs) ∧
    ((∀ fs, ¬ start.FirstLoad events fs) →
      now.registry.extensions.loaded = none ∧
      start.registry.extensions.Loads now.read answer ∧
      ∀ err, answer = .error err → ∀ e, (now.next e).registry.extensions.loaded = none) ∧
    (config.extensionRoot = none → answer = .ok []) := by
  intro start now answer
  obtain ⟨-, hsome⟩ := loaded_after (s := start) rfl events
  refine ⟨fun m c scratch => Registry.analyzeMethod_parts.1,
    fun fs hfs => answer_of_loaded ((hsome fs).2 hfs), fun hno => ?_, fun hroot => ?_⟩
  · have hloaded : now.registry.extensions.loaded = none := by
      rw [Option.eq_none_iff_forall_ne_some]
      exact fun fs h => hno fs ((hsome fs).1 h)
    have hload := answer_of_not_loaded hloaded now.read
    refine ⟨hloaded, (loads_after start events now.read answer).1 hload.symm, fun err herr e => ?_⟩
    exact (loaded_next_eq_none now e).2
      (Or.inr ⟨hloaded, fun _ => ⟨err, hload.symm.trans herr⟩⟩)
  · -- every load, also the first to succeed, gives no filters
    have hloads : ∀ read result, start.registry.extensions.Loads read result → result = .ok [] := by
      intro read result h
      simpa [Loader.Loads, start, Session.start, Config.listPath?, hroot] using h
    cases hloaded : now.registry.extensions.loaded with
    | some fs =>
      obtain ⟨before, e, later, -, -, -, hload, -⟩ := (hsome fs).1 hloaded
      exact (answer_of_loaded hloaded).trans (hloads _ _ hload)
    | none =>
      have hload := answer_of_not_loaded hloaded now.read
      exact hloads _ _ ((loads_after start events now.read answer).1 hload.symm)

/-- A catalog that builds one filter. -/
def markFirst : Filter :=
  Filter.ofMethod "MARK_FIRST" "Mark first" "Ignores the first instruction" fun _ => [.ignore 0 0]

def markFirstCatalog : Catalog :=
  ({} : Catalog).register "com.example.MarkFirst" (.ok markFirst)

/-- A failed call, a list that names the filter twice, a call, and an empty list. -/
def editedList : List Event :=
  [.ask, .change fun _ => .text "com.example.MarkFirst # first\ncom.example.MarkFirst\n", .ask,
    .change fun _ => .text "# nothing\n"]

/-- The first call fails on a name that the catalog does not have.  The filter that the
    second one loads is there still after the list has changed, and gone after a reset. -/
theorem extensions_loaded_once_editedList :
    let start := Session.start builtinFilters { extensionRoot := some "ext" } markFirstCatalog
      fun _ => .text "com.example.Missing"
    start.FirstLoad editedList [markFirst] ∧
    ((start.after editedList).registry.extensionFilters (start.after editedList).read).1 =
      .ok [markFirst] ∧
    (∀ fs, ¬ start.FirstLoad (editedList ++ [.reset]) fs) ∧
    ((start.after (editedList ++ [.reset])).registry.extensionFilters
      (start.after (editedList ++ [.reset])).read).1 = .ok [] := by
  intro start
  have hload : ∀ {text} names, parseList text = .ok names →
      start.registry.extensions.load (fun _ => .text text) = markFirstCatalog.constructAll names := by
    intro text names h
    simp [start, Session.start, Config.listPath?, Loader.load, Catalog.load, h]
  have hfirst : start.FirstLoad editedList [markFirst] := by
    refine ⟨editedList.take 2, .ask, editedList.drop 3, rfl, by simp [editedList], rfl, ?_, ?_⟩
    · rw [← Loader.load_eq_iff]
      exact hload ["com.example.MarkFirst"] (by decide +kernel)
    · rw [show editedList.take 2 = [] ++ [.ask] ++ [editedList[1]] from rfl]
      refine allFailed_concat.2 (Or.inr ⟨?_, fun h => (by cases h)⟩)
      refine allFailed_concat.2 (Or.inr ⟨?_, fun _ => ⟨.unknownFilter "com.example.Missing", ?_⟩⟩)
      · exact (loaded_after (s := start) rfl []).1.1 rfl
      · rw [← Loader.load_eq_iff]
        exact hload ["com.example.Missing"] (by decide +kernel)
  have hnever : ∀ fs, ¬ start.FirstLoad (editedList ++ [.reset]) fs :=
    fun fs h => (firstLoad_concat.1 h).1 rfl
  obtain ⟨-, hcached, -⟩ := extensions_loaded_once builtinFilters { extensionRoot := some "ext" }
    markFirstCatalog (fun _ => .text "com.example.Missing") editedList
  obtain ⟨-, -, hfresh, -⟩ := extensions_loaded_once builtinFilters
    { extensionRoot := some "ext" } markFirstCatalog (fun _ => .text "com.example.Missing")
    (editedList ++ [.reset])
  obtain ⟨-, hloads, -⟩ := hfresh hnever
  refine ⟨hfirst, hcached _ hfirst, hnever, ?_⟩
  rw [← Loader.load_eq_iff.2 hloads]
  exact hload [] (by decide +kernel)

end Extension

end Winnow
