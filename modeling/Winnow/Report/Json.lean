/-
  The JSON form of reports.
-/
import Winnow.Report.Basic
import Winnow.Json.Printer

namespace Winnow

namespace Range

def toJson (r : Range) : Json :=
  .object [("from", .ofNat r.first), ("to", .ofNat r.last)]

end Range

namespace MergedPair

def toJson (p : MergedPair) : Json :=
  .object [("first", .ofNat p.first), ("second", .ofNat p.second)]

end MergedPair

namespace BranchRef

def toJson (b : BranchRef) : Json :=
  .object [("instruction", .ofNat b.instruction), ("branch", .ofNat b.branch)]

end BranchRef

namespace Report

/-- Replacements are members of an object, with the sources as keys. -/
def toJson (r : Report) : Json :=
  .object
    [("ignored", .array (r.ignored.map Range.toJson)),
      ("merged", .array (r.merged.map MergedPair.toJson)),
      ("replacements", .object (r.replacements.map fun (source, groups) =>
        (source.repr, .array (groups.map fun g => .array (g.map BranchRef.toJson)))))]

end Report

end Winnow
