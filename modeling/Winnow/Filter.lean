/-
  Filters: recognisers of compiler idioms.

  A filter looks at one method of a class and states findings.  It may keep values
  in the scratch cells of the class, and it may fail; the findings it stated before
  failing stand.
-/
import Winnow.Method.Basic
import Winnow.ClassInfo
import Winnow.Scratch
import Winnow.Report.Basic
import Winnow.SourceMap.Basic

namespace Winnow

/-- Why the list of extension filters, or the choice of filters, cannot be honoured. -/
inductive SetupError where
  | illegalName (line : Nat) (name : String)
  | unknownFilter (name : String)
  | construction (name reason : String)
  | unreadable (path : String)
deriving DecidableEq

namespace SetupError

def message : SetupError → String
  | illegalName line name => "illegal filter name on line " ++ line.repr ++ ": " ++ name
  | unknownFilter name => "unknown filter: " ++ name
  | construction name reason => "filter " ++ name ++ " cannot be constructed: " ++ reason
  | unreadable path => "failed to read " ++ path

end SetupError

/-- Why a filter fails on a method. -/
inductive Failure where
  /-- The source map of the class cannot be read. -/
  | sourceMap (className : String) (cause : SourceMapError)
  /-- The extension filters cannot be set up. -/
  | setup (cause : SetupError)
  /-- The extension filter `id` failed. -/
  | extension (id : String) (cause : Failure)
  /-- A reason of an extension filter's own. -/
  | other (reason : String)
deriving DecidableEq

namespace Failure

/-- The causes from the outermost to the innermost, joined by colons. -/
def message : Failure → String
  | sourceMap className cause =>
    "failed to parse SMAP of " ++ className ++ ": " ++ cause.message
  | setup cause => cause.message
  | extension id cause => "extension filter " ++ id ++ " failed: " ++ cause.message
  | other reason => reason

end Failure

/-- What a filter makes of a method. -/
structure Outcome where
  findings : List Finding
  scratch : ClassScratch
  failure : Option Failure := none

/-- How a filter is referred to and described. -/
structure Identity where
  id : String
  name : String
  description : String
deriving DecidableEq

/-- A recogniser with its identity. -/
structure Filter extends Identity where
  run : Method → ClassInfo → ClassScratch → Outcome

namespace Method

/-- Ignores every entry of the method. -/
def ignoreAll (m : Method) : List Finding :=
  if m.size = 0 then [] else [.ignore 0 (m.size - 1)]

end Method

namespace Filter

/-- A filter that never fails and keeps nothing in the scratch cells. -/
def ofFindings (id name description : String) (findings : Method → ClassInfo → List Finding) :
    Filter :=
  { id, name, description
    run := fun m c scratch => { findings := findings m c, scratch } }

/-- A filter of the first kind that looks at the method alone. -/
def ofMethod (id name description : String) (findings : Method → List Finding) : Filter :=
  ofFindings id name description fun m _ => findings m

/-- A filter that ignores the methods for which a condition holds. -/
def ofCondition (id name description : String) (condition : Method → ClassInfo → Bool) :
    Filter :=
  ofFindings id name description fun m c => if condition m c then m.ignoreAll else []

end Filter

end Winnow
