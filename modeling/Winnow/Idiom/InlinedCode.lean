/-
  Code inlined from other functions.

  The Kotlin compiler gives inlined code line numbers behind the end of the source
  file and tells in the source map of the class where they start.  Everything with
  such a line is ignored.  The first generated line is computed once per class.
-/
import Winnow.Method.Navigation
import Winnow.Filter

namespace Winnow.Idiom.InlinedCode

/-- The smallest output line of a mapping, other than those that map a line of the
    source file to itself. -/
def firstGenerated? (source : String) (map : SourceMap) : Option Nat :=
  ((map.filter fun x => x.file != source || x.input != x.output).map (·.output)).min?

/-- The maximal ranges of entries with lines from `first` on, among entries that stand
    from `pos` on.  `line` is the line in effect before them, and `run` a range of such
    entries that reaches up to `pos`. -/
def scan (first pos line : Nat) (run : Option Range) : List Entry → List Range
  | [] => run.toList
  | e :: es =>
    let line := e.line?.getD line
    if line < first then run.toList ++ scan first (pos + 1) line none es
    else scan first (pos + 1) line (some ⟨(run.map (·.first)).getD pos, pos⟩) es

/-- The findings when lines from `first` on are generated; code before the first line
    entry has line 0. -/
def generatedRanges (m : Method) (first : Nat) : List Finding :=
  (scan first 0 0 none m.code.toList).map fun r => .ignore r.first r.last

/-- The scratch cell with the first generated line of the class. -/
def cell : String := "kotlin-inline.first-generated-line"

def run (m : Method) (c : ClassInfo) (scratch : ClassScratch) : Outcome :=
  match c.sourceMap with
  | none => { findings := [], scratch }
  | some text =>
    if c.isKotlin then
      let source := c.source.getD ""
      let compute (_ : Unit) : Except SourceMapError (Option Nat) :=
        (SourceMap.parse source text).map (firstGenerated? source)
      match scratch.getOrInit .line cell compute with
      | (.error e, scratch) =>
        { findings := [], scratch, failure := some (.sourceMap c.name e) }
      | (.ok none, scratch) => { findings := [], scratch }
      | (.ok (some first), scratch) => { findings := generatedRanges m first, scratch }
    else { findings := [], scratch }

end Winnow.Idiom.InlinedCode
