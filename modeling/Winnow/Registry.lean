/-
  Registries: the filters that run over the methods of classes.

  * `runFilters` runs filters in order into one report; the first failure ends the run;
  * a `Registry` holds the built-in filters that are not disabled and a loader for the
    extension filters, which run last and under one identity;
  * `Registry.analyzeMethod`, `Registry.analyzeClass` and `Registry.analyzeClasses` give
    the reports of a method, of a class and of several classes.  The methods of a class
    share its scratch cells, and all of them share the loaded extension filters.
-/
import Winnow.Builtin
import Winnow.Config
import Winnow.Extension.Loader
import Winnow.Report.Json

namespace Winnow

/-! ## Running filters -/

/-- Why a run over the filters ends early. -/
inductive Stop where
  /-- The filter `id` failed. -/
  | failed (id : String) (cause : Failure)
  /-- A finding was refused. -/
  | refused (cause : Violation)
deriving DecidableEq

/-- Runs filters one after the other and collects their findings. -/
def runFilters (m : Method) (c : ClassInfo) : List Filter → ClassScratch → Report →
    Except Stop Report × ClassScratch
  | [], scratch, report => (.ok report, scratch)
  | f :: fs, scratch, report =>
    let outcome := f.run m c scratch
    match report.recordAll outcome.findings with
    | .error v => (.error (.refused v), outcome.scratch)
    | .ok report =>
      match outcome.failure with
      | some cause => (.error (.failed f.id cause), outcome.scratch)
      | none => runFilters m c fs outcome.scratch report

/-- Why a method has no report. -/
inductive AnalysisError where
  /-- A filter failed on the method. -/
  | failed (id className name desc : String) (cause : Failure)
  | refused (cause : Violation)
deriving DecidableEq

namespace AnalysisError

def message : AnalysisError → String
  | failed id className name desc cause =>
    "filter " ++ id ++ " failed on " ++ className ++ "." ++ name ++ desc ++ ": " ++ cause.message
  | refused cause => cause.message

end AnalysisError

/-! ## Registries -/

structure Registry where
  filters : List Filter
  extensions : Extension.Loader

namespace Registry

/-- The identity of all extension filters together. -/
def extensionIdentity : Identity where
  id := "EXTENSIONS"
  name := "Extension filters"
  description := "Filters discovered from the extension list"

/-- The registry of a configuration.  Only built-in filters can be disabled. -/
def ofConfig (config : Config) (catalog : Extension.Catalog) : Except SetupError Registry :=
  match config.disabledFilters.find? fun id => !builtinFilters.any (·.id == id) with
  | some id => .error (.unknownFilter id)
  | none => .ok
    { filters := builtinFilters.filter fun f => !config.disabledFilters.contains f.id
      extensions := { path := config.listPath?, catalog } }

/-- All built-in filters and no extensions. -/
def builtin : Registry where
  filters := builtinFilters
  extensions := { path := none, catalog := {} }

/-- The identities in the order in which the filters run. -/
def identities (r : Registry) : List Identity :=
  r.filters.map (·.toIdentity) ++ [extensionIdentity]

/-- The extension filters loaded now or before. -/
def extensionFilters (r : Registry) (read : String → Extension.FileContent) :
    Except SetupError (List Filter) × Registry :=
  let (result, extensions) := r.extensions.filters read
  (result, { r with extensions })

/-- Forgets the loaded extension filters. -/
def reset (r : Registry) : Registry :=
  { r with extensions := r.extensions.reset }

/-- The error for a run that stopped at a filter of its own identity. -/
def describeStop (m : Method) (c : ClassInfo) : Stop → AnalysisError
  | .failed id cause => .failed id c.name m.name m.desc cause
  | .refused v => .refused v

/-- The error for a run that stopped at an extension filter. -/
def describeExtensionStop (m : Method) (c : ClassInfo) : Stop → AnalysisError
  | .failed id cause =>
    .failed extensionIdentity.id c.name m.name m.desc (.extension id cause)
  | .refused v => .refused v

/-- Runs every filter over a method.  The scratch cells and the loaded extensions are
    kept also when the run fails. -/
def analyzeMethod (r : Registry) (read : String → Extension.FileContent) (m : Method)
    (c : ClassInfo) (scratch : ClassScratch) :
    Except AnalysisError Report × ClassScratch × Registry :=
  match runFilters m c r.filters scratch {} with
  | (.error stop, scratch) => (.error (describeStop m c stop), scratch, r)
  | (.ok report, scratch) =>
    match r.extensionFilters read with
    | (.error e, r) =>
      (.error (.failed extensionIdentity.id c.name m.name m.desc (.setup e)), scratch, r)
    | (.ok extensions, r) =>
      match runFilters m c extensions scratch report with
      | (.error stop, scratch) => (.error (describeExtensionStop m c stop), scratch, r)
      | (.ok report, scratch) => (.ok report, scratch, r)

end Registry

/-! ## Classes -/

/-- A class with its methods. -/
structure ClassUnit where
  info : ClassInfo
  methods : List Method

structure MethodReport where
  name : String
  desc : String
  report : Report
deriving DecidableEq

structure ClassReport where
  className : String
  methods : List MethodReport
deriving DecidableEq

namespace Registry

/-- Reports of methods of one class, in order, up to the first failure. -/
def analyzeMethods (r : Registry) (read : String → Extension.FileContent) (c : ClassInfo)
    (scratch : ClassScratch) : (methods : List Method) →
    Except AnalysisError (List MethodReport) × Registry
  | [] => (.ok [], r)
  | m :: ms =>
    match r.analyzeMethod read m c scratch with
    | (.error e, _, r) => (.error e, r)
    | (.ok report, scratch, r) =>
      match r.analyzeMethods read c scratch ms with
      | (.error e, r) => (.error e, r)
      | (.ok reports, r) => (.ok (⟨m.name, m.desc, report⟩ :: reports), r)

/-- The report of a class. -/
def analyzeClass (r : Registry) (read : String → Extension.FileContent) (u : ClassUnit) :
    Except AnalysisError ClassReport × Registry :=
  match r.analyzeMethods read u.info {} u.methods with
  | (.error e, r) => (.error e, r)
  | (.ok methods, r) => (.ok ⟨u.info.name, methods⟩, r)

/-- Reports of classes, in order, up to the first failure. -/
def analyzeClasses (r : Registry) (read : String → Extension.FileContent) :
    (units : List ClassUnit) → Except AnalysisError (List ClassReport) × Registry
  | [] => (.ok [], r)
  | u :: us =>
    match r.analyzeClass read u with
    | (.error e, r) => (.error e, r)
    | (.ok report, r) =>
      match r.analyzeClasses read us with
      | (.error e, r) => (.error e, r)
      | (.ok reports, r) => (.ok (report :: reports), r)

end Registry

namespace ClassReport

def toJson (r : ClassReport) : Json :=
  .object
    [("class_name", .string r.className),
      ("methods", .array (r.methods.map fun m => .object
        [("name", .string m.name), ("desc", .string m.desc), ("report", m.report.toJson)]))]

end ClassReport

end Winnow
