/-
  What a list of extension filters loads.

  * `Catalog.Builds` and `Catalog.Refuses` are the two answers of a catalog to a name;
  * `InFirstOrder` relates the names on the lines of a list, which may come again, to the
    distinct ones;
  * `Catalog.Yields` and `Loader.Loads` say what a load gives by the names on the list, and
    `Catalog.load_eq_iff` and `Loader.load_eq_iff` that loading gives just that.
-/
import Winnow.Extension.Loader
import Winnow.Proofs.Lists

namespace Winnow.Extension

/-! ## Distinct names -/

/-- The names of a list, each once and in the order in which they come first. -/
structure InFirstOrder (listed names : List String) : Prop where
  mem_iff : ∀ n, n ∈ names ↔ n ∈ listed
  ordered : names.Pairwise fun a b => listed.idxOf a < listed.idxOf b

variable {listed names names' : List String} {text name path : String} {e : SetupError}

theorem inFirstOrder_eraseDups (listed : List String) :
    InFirstOrder listed listed.eraseDups where
  mem_iff _ := List.mem_eraseDups
  ordered := List.pairwise_idxOf_eraseDups listed

/-- Only one list has the names in this order. -/
theorem InFirstOrder.unique (h : InFirstOrder listed names) (h' : InFirstOrder listed names') :
    names = names' :=
  List.eq_of_pairwise_idxOf (fun n => (h.mem_iff n).trans (h'.mem_iff n).symm)
    h.ordered h'.ordered

/-! ## Catalogs -/

namespace Catalog

variable {c : Catalog} {f : Filter} {fs : List Filter}

/-- The catalog builds the filter for the name. -/
def Builds (c : Catalog) (name : String) (f : Filter) : Prop :=
  c.entries.lookup name = some (.ok f)

/-- The catalog cannot build a filter for the name: it has no such name, or building it
    fails. -/
inductive Refuses (c : Catalog) (name : String) : SetupError → Prop
  | unknown (h : c.entries.lookup name = none) : Refuses c name (.unknownFilter name)
  | failing {reason : String} (h : c.entries.lookup name = some (.error reason)) :
      Refuses c name (.construction name reason)

theorem construct_eq_ok_iff : c.construct name = .ok f ↔ c.Builds name f := by
  unfold construct Builds
  rcases c.entries.lookup name with _ | _ | _ <;> simp

theorem construct_eq_error_iff : c.construct name = .error e ↔ c.Refuses name e := by
  unfold construct
  constructor
  · intro h
    split at h
    · next hn => cases h; exact .unknown hn
    · next hr => cases h; exact .failing hr
    · cases h
  · rintro (h | h) <;> simp [h]

/-- The error of a name. -/
def refusal? (c : Catalog) (name : String) : Option SetupError :=
  match c.construct name with
  | .error e => some e
  | .ok _ => none

theorem refusal?_eq_some_iff : c.refusal? name = some e ↔ c.Refuses name e := by
  rw [← construct_eq_error_iff, refusal?]
  cases c.construct name <;> simp

theorem refusal?_eq_none_iff : c.refusal? name = none ↔ ∃ f, c.Builds name f := by
  simp only [← construct_eq_ok_iff, refusal?]
  cases c.construct name <;> simp

theorem constructAll_eq_ok_iff :
    c.constructAll names = .ok fs ↔ List.Forall₂ c.Builds names fs := by
  induction names generalizing fs with
  | nil => simp [constructAll, eq_comm]
  | cons name names ih =>
    rw [constructAll, List.forall₂_cons_left_iff]
    cases hc : c.construct name with
    | error e =>
      simp only [reduceCtorEq, false_iff, not_exists, not_and]
      intro f fs' hf
      rw [← construct_eq_ok_iff, hc] at hf
      cases hf
    | ok f =>
      have hf := construct_eq_ok_iff.1 hc
      cases hall : c.constructAll names with
      | error e =>
        simp only [Except.map, reduceCtorEq, false_iff, not_exists, not_and]
        intro f' fs' _ hfs
        rw [← ih, hall] at hfs
        cases hfs
      | ok fs' =>
        simp only [Except.map, Except.ok.injEq]
        constructor
        · rintro rfl
          exact ⟨f, fs', hf, ih.1 hall, rfl⟩
        · rintro ⟨f', fs'', hf', hfs, rfl⟩
          rw [← ih, hall] at hfs
          cases hfs
          cases hf.symm.trans hf'
          rfl

theorem constructAll_eq_error_iff :
    c.constructAll names = .error e ↔ names.findSome? c.refusal? = some e := by
  induction names with
  | nil => simp [constructAll]
  | cons name names ih =>
    rw [constructAll, List.findSome?_cons, refusal?]
    cases c.construct name with
    | error e' => simp
    | ok f =>
      rw [← ih]
      cases c.constructAll names <;> simp [Except.map]

/-! ## Lists -/

/-- What the list at `path` gives.  A text with an illegal line gives the error of that
    line; of the other texts, one with a name that the catalog cannot build gives the error
    of the first such name, and one without gives the filters of the distinct names. -/
inductive Yields (c : Catalog) (path : String) :
    FileContent → Except SetupError (List Filter) → Prop
  | absent : Yields c path .absent (.ok [])
  | unreadable : Yields c path .unreadable (.error (.unreadable path))
  | illegal {text : String} {e : SetupError} (hlist : parseList text = .error e) :
      Yields c path (.text text) (.error e)
  | refused {text : String} {before after : List String} {name : String} {e : SetupError}
      (hlist : namesFrom 1 (Text.lines text) = .ok (before ++ name :: after))
      (hbefore : ∀ n ∈ before, ∃ f, c.Builds n f) (hname : c.Refuses name e) :
      Yields c path (.text text) (.error e)
  | built {text : String} {listed names : List String} {fs : List Filter}
      (hlist : namesFrom 1 (Text.lines text) = .ok listed) (hnames : InFirstOrder listed names)
      (hfs : List.Forall₂ c.Builds names fs) :
      Yields c path (.text text) (.ok fs)

theorem load_of_listed (hlist : namesFrom 1 (Text.lines text) = .ok listed) :
    c.load path (.text text) = c.constructAll listed.eraseDups := by
  simp [load, parseList, hlist, Except.map]

theorem yields_load (c : Catalog) (path : String) (content : FileContent) :
    c.Yields path content (c.load path content) := by
  cases content with
  | absent => exact .absent
  | unreadable => exact .unreadable
  | text text =>
    cases hlist : namesFrom 1 (Text.lines text) with
    | error e =>
      have hparse : parseList text = .error e := by simp [parseList, hlist, Except.map]
      simp only [load, hparse]
      exact .illegal hparse
    | ok listed =>
      rw [load_of_listed hlist]
      cases hall : c.constructAll listed.eraseDups with
      | error e =>
        rw [constructAll_eq_error_iff, List.findSome?_eraseDups, List.findSome?_eq_some_iff] at hall
        obtain ⟨before, name, after, rfl, hname, hbefore⟩ := hall
        exact .refused hlist (fun n hn => refusal?_eq_none_iff.1 (hbefore n hn))
          (refusal?_eq_some_iff.1 hname)
      | ok fs => exact .built hlist (inFirstOrder_eraseDups listed) (constructAll_eq_ok_iff.1 hall)

theorem load_eq_iff {content : FileContent} {result : Except SetupError (List Filter)} :
    c.load path content = result ↔ c.Yields path content result := by
  refine ⟨fun h => h ▸ yields_load c path content, fun h => ?_⟩
  cases h with
  | absent => rfl
  | unreadable => rfl
  | illegal hlist => simp only [load, hlist]
  | refused hlist hbefore hname =>
    rw [load_of_listed hlist, constructAll_eq_error_iff, List.findSome?_eraseDups,
      List.findSome?_eq_some_iff]
    exact ⟨_, _, _, rfl, refusal?_eq_some_iff.2 hname,
      fun n hn => refusal?_eq_none_iff.2 (hbefore n hn)⟩
  | built hlist hnames hfs =>
    rw [load_of_listed hlist, constructAll_eq_ok_iff,
      (inFirstOrder_eraseDups _).unique hnames]
    exact hfs

end Catalog

namespace Loader

/-- What a load gives, whatever was loaded before: without a path, no filters. -/
def Loads (l : Loader) (read : String → FileContent) (result : Except SetupError (List Filter)) :
    Prop :=
  match l.path with
  | none => result = .ok []
  | some path => l.catalog.Yields path (read path) result

theorem load_eq_iff {l : Loader} {read : String → FileContent}
    {result : Except SetupError (List Filter)} : l.load read = result ↔ l.Loads read result := by
  unfold load Loads
  cases l.path with
  | none => exact eq_comm
  | some path => exact Catalog.load_eq_iff

end Loader

end Winnow.Extension
