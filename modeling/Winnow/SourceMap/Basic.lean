/-
  Source maps of inlined code.

  The text (a source debug extension) starts with a fixed header that names the
  source file.  The file section lists numbered files, each with a class on the
  next line; a number given again replaces the earlier file.  The line section maps
  lines of the listed files to lines of the output.  Reading ends at the end mark or
  at the debug section; what follows is not looked at.
-/
import Winnow.Text.Basic

namespace Winnow

/-- `count` lines of a file, from `input` on, appear at the lines from `output` on. -/
structure Mapping where
  file : String
  className : String
  input : Nat
  count : Nat
  output : Nat
deriving DecidableEq

/-- Why a source map cannot be read. -/
inductive SourceMapError where
  | unexpectedLine (line : String)
  | unexpectedEnd
deriving DecidableEq

namespace SourceMapError

def message : SourceMapError → String
  | unexpectedLine line => "Unexpected SMAP line: " ++ line
  | unexpectedEnd => "Unexpected end of SMAP"

end SourceMapError

/-- The mappings of the primary section, in order. -/
abbrev SourceMap := List Mapping

namespace SourceMap

/-- A file of the file section and its class. -/
structure File where
  name : String
  className : String
deriving DecidableEq

/-! ## Lines -/

/-- The value of a sequence of decimal digits. -/
def digitsValue (ds : List Char) : Nat :=
  ds.foldl (fun n d => 10 * n + (d.toNat - '0'.toNat)) 0

/-- A non-empty sequence of digits whose value fits in 32 bits. -/
def number? (ds : List Char) : Option Nat :=
  if !ds.isEmpty && digitsValue ds < Nat.pow 2 32 then some (digitsValue ds) else none

/-- Digits and what follows them. -/
def splitDigits (cs : List Char) : List Char × List Char :=
  (cs.takeWhile Char.isDigit, cs.dropWhile Char.isDigit)

/-- Reads `+ id name`. -/
def fileLine? (line : String) : Option (Nat × String) :=
  match line.toList with
  | '+' :: ' ' :: rest =>
    let (ds, rest) := splitDigits rest
    match rest with
    | ' ' :: c :: cs => (number? ds).map (·, String.ofList (c :: cs))
    | _ => none
  | _ => none

/-- An entry of the line section. -/
structure LineEntry where
  input : Nat
  file : Nat
  count : Nat
  output : Nat
deriving DecidableEq

/-- Reads `,digits` at the end of a line, or nothing there. -/
def increment? (cs : List Char) : Option Unit :=
  match cs with
  | [] => some ()
  | ',' :: ds => if !ds.isEmpty && ds.all Char.isDigit then some () else none
  | _ => none

/-- Reads `:output` with an optional increment. -/
def outputPart? (cs : List Char) : Option Nat :=
  match cs with
  | ':' :: cs =>
    let (ds, rest) := splitDigits cs
    match number? ds, increment? rest with
    | some output, some () => some output
    | _, _ => none
  | _ => none

/-- Reads an optional `,count`, which is 1 when absent, and gives the rest. -/
def countPart? (cs : List Char) : Option (Nat × List Char) :=
  match cs with
  | ',' :: cs =>
    let (ds, rest) := splitDigits cs
    (number? ds).map (·, rest)
  | cs => some (1, cs)

/-- Reads `input#file,count:output,increment`, where count and increment may be
    missing. -/
def lineEntry? (line : String) : Option LineEntry :=
  let (inputDigits, rest) := splitDigits line.toList
  match rest with
  | '#' :: rest =>
    let (fileDigits, rest) := splitDigits rest
    match number? inputDigits, number? fileDigits, countPart? rest with
    | some input, some file, some (count, rest) =>
      (outputPart? rest).map fun output => ⟨input, file, count, output⟩
    | _, _, _ => none
  | _ => none

/-! ## Sections -/

/-- Passes the lines `expected`, which must come first. -/
def header : (expected : List String) → (lines : List String) →
    Except SourceMapError (List String)
  | [], lines => .ok lines
  | _ :: _, [] => .error .unexpectedEnd
  | e :: es, line :: lines => if line = e then header es lines else .error (.unexpectedLine line)

/-- Reads the file section up to its end mark; `files` are those read before, the
    latest first. -/
def fileSection (files : List (Nat × File)) : (lines : List String) →
    Except SourceMapError (List (Nat × File) × List String)
  | [] => .error .unexpectedEnd
  | [line] =>
    if line = "*L" then .ok (files, [])
    else
      match fileLine? line with
      | none => .error (.unexpectedLine line)
      | some _ => .error .unexpectedEnd
  | line :: className :: lines =>
    if line = "*L" then .ok (files, className :: lines)
    else
      match fileLine? line with
      | none => .error (.unexpectedLine line)
      | some (id, name) => fileSection ((id, ⟨name, className⟩) :: files) lines

/-- The mapping that a line of the line section describes. -/
def mapping? (files : List (Nat × File)) (line : String) : Option Mapping :=
  match lineEntry? line with
  | none => none
  | some e =>
    (files.lookup e.file).map fun f => ⟨f.name, f.className, e.input, e.count, e.output⟩

/-- Reads the line section up to the end of the primary section. -/
def lineSection (files : List (Nat × File)) : (lines : List String) →
    Except SourceMapError SourceMap
  | [] => .error .unexpectedEnd
  | line :: lines =>
    if line = "*E" ∨ line = "*S KotlinDebug" then .ok []
    else
      match mapping? files line with
      | none => .error (.unexpectedLine line)
      | some mapping => (lineSection files lines).map (mapping :: ·)

/-- Reads the lines of the source map of a class compiled from `source`. -/
def ofLines (source : String) (lines : List String) : Except SourceMapError SourceMap :=
  match header ["SMAP", source, "Kotlin", "*S Kotlin", "*F"] lines with
  | .error e => .error e
  | .ok rest =>
    match fileSection [] rest with
    | .error e => .error e
    | .ok (files, rest) => lineSection files rest

/-- Reads the source map of a class compiled from `source`. -/
def parse (source text : String) : Except SourceMapError SourceMap :=
  ofLines source (Text.lines text)

end SourceMap

end Winnow
