/-
  Reading a source map undoes writing it.

  A `Document` is a source map as it is written: its file table, where a number may be
  given more than once, its line table, whose rows name listed files only, and the mark
  after it.  Reading it gives one mapping for each row of the line table, in order, and
  `Describes` says which one; what follows the mark has no effect.

  `FileText` and `RowText` are rows in all the forms that can be written, also those that are
  not read: a number of them may be too large (`Digits.Overflows`), or the file may be missing
  or not listed (`RowText.Faulty`).
-/
import Mathlib.Data.List.Forall2
import Winnow.SourceMap.Basic
import Winnow.Proofs.Text

namespace Winnow.SourceMap

open Text (Line LineEnd)

/-! ## Documents -/

/-- At least one digit, of a number of any size. -/
structure Digits where
  text : String
  nonempty : text.toList ≠ []
  digits : ∀ c ∈ text.toList, c.isDigit = true

namespace Digits

/-- A number in decimal. -/
def decimal (n : UInt32) : Digits where
  text := n.toNat.repr
  nonempty := by
    rw [Nat.toList_repr]
    exact Nat.toDigits_ne_nil
  digits c hc := by
    rw [Nat.toList_repr] at hc
    exact Nat.isDigit_of_mem_toDigits (by decide) (by decide) hc

def line (d : Digits) : Line where
  text := d.text
  noFeed h := absurd (d.digits _ h) (by decide)
  noReturn h := absurd (d.digits _ (List.mem_of_getLast? h)) (by decide)

@[simp] theorem text_line (d : Digits) : d.line.text = d.text := rfl

end Digits

/-- A file of the table, with its class on the line below. -/
structure FileRow where
  id : UInt32
  name : Line
  className : Line
  named : name.text.toList ≠ []

/-- `+ id name` -/
def FileRow.line (f : FileRow) : Line :=
  { text := "+ " } ++ (Digits.decimal f.id).line ++ { text := " " } ++ f.name

structure LineRow where
  input : UInt32
  file : UInt32
  count : Option UInt32
  output : UInt32
  increment : Option Digits

/-- A part of a row that is left out together with its comma. -/
def optional : Option Digits → Line
  | none => { text := "" }
  | some d => { text := "," } ++ d.line

/-- `input#file,count:output,increment` -/
def LineRow.line (r : LineRow) : Line :=
  (Digits.decimal r.input).line ++ { text := "#" } ++ (Digits.decimal r.file).line ++
    optional (r.count.map Digits.decimal) ++ { text := ":" } ++ (Digits.decimal r.output).line ++
    optional r.increment

/-- What ends the line table. -/
inductive Terminator where
  | endMark
  | debugSection

def Terminator.line : Terminator → Line
  | endMark => { text := "*E" }
  | debugSection => { text := "*S KotlinDebug" }

structure Document where
  source : Line
  files : List FileRow
  rows : List LineRow
  terminator : Terminator
  listed : ∀ r ∈ rows, ∃ f ∈ files, f.id = r.file

namespace Document

def head (d : Document) : List Line :=
  [{ text := "SMAP" }, d.source, { text := "Kotlin" }, { text := "*S Kotlin" }, { text := "*F" }]

def lines (d : Document) : List Line :=
  d.head ++ d.files.flatMap (fun f => [f.line, f.className]) ++ [{ text := "*L" }] ++
    d.rows.map LineRow.line ++ [d.terminator.line]

end Document

/-! ## Rows with numbers of any size -/

namespace Digits

def value (d : Digits) : Nat :=
  digitsValue d.text.toList

/-- The number does not fit in 32 bits. -/
def Overflows (d : Digits) : Prop :=
  Nat.pow 2 32 ≤ d.value

end Digits

/-- A file and its class as they are written. -/
structure FileText where
  id : Digits
  name : Line
  className : Line
  named : name.text.toList ≠ []

/-- `+ id name` -/
def FileText.line (f : FileText) : Line :=
  { text := "+ " } ++ f.id.line ++ { text := " " } ++ f.name

/-- A row of the line section as it is written. -/
structure RowText where
  input : Digits
  file : Option Digits
  count : Option Digits
  output : Digits
  increment : Option Digits

namespace RowText

/-- The file's number with its mark. -/
def fileMark : Option Digits → Line
  | none => { text := "" }
  | some d => { text := "#" } ++ d.line

/-- `input#file,count:output,increment` -/
def line (r : RowText) : Line :=
  r.input.line ++ fileMark r.file ++ optional r.count ++ { text := ":" } ++ r.output.line ++
    optional r.increment

/-- The numbers that are read.  The increment is passed over. -/
def numbers (r : RowText) : List Digits :=
  r.input :: r.output :: (r.file.toList ++ r.count.toList)

/-- A number is too large, there is no file, or it is none of the files. -/
def Faulty (files : List FileText) (r : RowText) : Prop :=
  (∃ d ∈ r.numbers, d.Overflows) ∨ r.file = none ∨
    ∃ id, r.file = some id ∧ ∀ f ∈ files, f.id.value ≠ id.value

end RowText

/-- The lines up to the rows of the files, these included. -/
def untilFiles (source : Line) (files : List FileText) : List Line :=
  [{ text := "SMAP" }, source, { text := "Kotlin" }, { text := "*S Kotlin" }, { text := "*F" }] ++
    files.flatMap fun f => [f.line, f.className]

/-- The lines up to these of the line section. -/
def untilRows (source : Line) (files : List FileText) (rows : List Line) : List Line :=
  untilFiles source files ++ { text := "*L" } :: rows

/-! ## What a row means -/

/-- `f` is the last file of the table with this number. -/
def LastWith (id : UInt32) (files : List FileRow) (f : FileRow) : Prop :=
  f.id = id ∧ ∃ before after, files = before ++ f :: after ∧ ∀ g ∈ after, g.id ≠ id

/-- The mapping that a row stands for, given the file table. -/
structure Describes (files : List FileRow) (r : LineRow) (m : Mapping) : Prop where
  file : ∃ f, LastWith r.file files f ∧ m.file = f.name.text ∧ m.className = f.className.text
  input : m.input = r.input.toNat
  count : m.count = r.count.elim 1 UInt32.toNat
  output : m.output = r.output.toNat

/-! ## Numbers -/

theorem splitDigits_append (d : Digits) (rest : List Char)
    (h : ∀ c ∈ rest.head?, c.isDigit = false) :
    splitDigits (d.text.toList ++ rest) = (d.text.toList, rest) := by
  have hrest : rest.takeWhile Char.isDigit = [] ∧ rest.dropWhile Char.isDigit = rest := by
    cases rest with
    | nil => exact ⟨rfl, rfl⟩
    | cons c rest =>
      have hc : c.isDigit = false := h c rfl
      exact ⟨by simp [hc], by simp [hc]⟩
  rw [splitDigits, List.takeWhile_append_of_pos d.digits, List.dropWhile_append_of_pos d.digits,
    hrest.1, hrest.2, List.append_nil]

theorem digitsValue_decimal (n : UInt32) :
    digitsValue (Digits.decimal n).text.toList = n.toNat := by
  have h : (Digits.decimal n).text.toList = Nat.toDigits 10 n.toNat := Nat.toList_repr
  rw [h]
  exact Nat.ofDigitChars_toDigits (by decide) (by decide)

theorem number?_decimal (n : UInt32) : number? (Digits.decimal n).text.toList = some n.toNat := by
  have hne := (Digits.decimal n).nonempty
  have hlt : n.toNat < Nat.pow 2 32 := n.toNat_lt
  simp [number?, digitsValue_decimal, hne, hlt]

namespace Digits

theorem number?_eq_some_iff {d : Digits} {n : Nat} :
    number? d.text.toList = some n ↔ ¬ d.Overflows ∧ n = d.value := by
  have hempty : d.text.toList.isEmpty = false := by simpa using d.nonempty
  simp [number?, hempty, Overflows, value, eq_comm]

theorem number?_eq_none_iff {d : Digits} : number? d.text.toList = none ↔ d.Overflows := by
  have hempty : d.text.toList.isEmpty = false := by simpa using d.nonempty
  simp [number?, hempty, Overflows, value]

end Digits

/-! ## Rows -/

theorem fileLine?_digits {line : String} (id : Digits) {name : String} (hname : name.toList ≠ [])
    (hline : line.toList = '+' :: ' ' :: (id.text.toList ++ ' ' :: name.toList)) :
    fileLine? line = (number? id.text.toList).map (·, name) := by
  obtain ⟨c, cs, hcs⟩ := List.exists_cons_of_ne_nil hname
  have hsplit := splitDigits_append id (' ' :: c :: cs) (by simp)
  rw [fileLine?, hline, hcs]
  simp only [hsplit]
  rw [← hcs, String.ofList_toList]

theorem fileLine?_line (f : FileRow) : fileLine? f.line.text = some (f.id.toNat, f.name.text) := by
  have htext : f.line.text.toList =
      '+' :: ' ' :: ((Digits.decimal f.id).text.toList ++ ' ' :: f.name.text.toList) := by
    simp [FileRow.line]
  rw [fileLine?_digits _ f.named htext, number?_decimal, Option.map_some]

theorem toList_optional_some (d : Digits) :
    (optional (some d)).text.toList = ',' :: d.text.toList := by
  simp [optional]

theorem head_optional_append (d : Option Digits) (rest : List Char)
    (h : ∀ c ∈ rest.head?, c.isDigit = false) :
    ∀ c ∈ ((optional d).text.toList ++ rest).head?, c.isDigit = false := by
  cases d with
  | none => exact h
  | some d =>
    intro c hc
    rw [toList_optional_some] at hc
    cases hc
    rfl

theorem increment?_optional (d : Option Digits) :
    increment? (optional d).text.toList = some () := by
  cases d with
  | none => rfl
  | some d =>
    have hdigits : d.text.toList.all Char.isDigit = true := List.all_eq_true.2 d.digits
    rw [toList_optional_some]
    simp [increment?, d.nonempty, hdigits]

theorem outputPart?_digits (output : Digits) (increment : Option Digits) :
    outputPart? (':' :: (output.text.toList ++ (optional increment).text.toList)) =
      number? output.text.toList := by
  have hhead := head_optional_append increment [] (by simp)
  rw [List.append_nil] at hhead
  have hsplit := splitDigits_append output _ hhead
  rw [outputPart?]
  simp only [hsplit, increment?_optional]
  cases number? output.text.toList <;> rfl

/-- A missing count is 1. -/
def count? (count : Option Digits) : Option Nat :=
  count.elim (some 1) fun d => number? d.text.toList

theorem countPart?_digits (count : Option Digits) (rest : List Char) :
    countPart? ((optional count).text.toList ++ ':' :: rest) =
      (count? count).map (·, ':' :: rest) := by
  cases count with
  | none => rfl
  | some n =>
    have hsplit := splitDigits_append n (':' :: rest) (by simp)
    rw [toList_optional_some, List.cons_append, countPart?]
    simp only [hsplit, count?, Option.elim_some]

/-- A row is read if each of its numbers is. -/
theorem lineEntry?_digits {line : String} (input file : Digits) (count : Option Digits)
    (output : Digits) (increment : Option Digits)
    (hline : line.toList = input.text.toList ++ '#' :: (file.text.toList ++
      ((optional count).text.toList ++
        ':' :: (output.text.toList ++ (optional increment).text.toList)))) :
    lineEntry? line = (number? input.text.toList).bind fun i =>
      (number? file.text.toList).bind fun f => (count? count).bind fun c =>
        (number? output.text.toList).map fun o => ⟨i, f, c, o⟩ := by
  let outputs := ':' :: (output.text.toList ++ (optional increment).text.toList)
  let counts := (optional count).text.toList ++ outputs
  have hinput := splitDigits_append input ('#' :: (file.text.toList ++ counts)) (by simp)
  have hfile := splitDigits_append file counts (head_optional_append _ outputs (by simp [outputs]))
  have hcount : countPart? counts = (count? count).map (·, outputs) := countPart?_digits count _
  have houtput : outputPart? outputs = number? output.text.toList := outputPart?_digits output _
  have htext : line.toList = input.text.toList ++ '#' :: (file.text.toList ++ counts) := hline
  unfold lineEntry?
  rw [htext]
  simp only [hinput, hfile, hcount]
  cases number? input.text.toList <;> cases number? file.text.toList <;> cases count? count <;>
    simp [houtput]

theorem lineEntry?_line (r : LineRow) :
    lineEntry? r.line.text =
      some ⟨r.input.toNat, r.file.toNat, r.count.elim 1 UInt32.toNat, r.output.toNat⟩ := by
  have hcount : count? (r.count.map Digits.decimal) = some (r.count.elim 1 UInt32.toNat) := by
    cases r.count with
    | none => rfl
    | some n => exact number?_decimal n
  rw [lineEntry?_digits (Digits.decimal r.input) (Digits.decimal r.file)
    (r.count.map Digits.decimal) (Digits.decimal r.output) r.increment (by simp [LineRow.line])]
  simp only [number?_decimal, hcount, Option.bind_some, Option.map_some]

/-! ## The file table -/

/-- How the file is listed once its row has been read. -/
def FileRow.listing (f : FileRow) : Nat × File :=
  (f.id.toNat, ⟨f.name.text, f.className.text⟩)

theorem fileSection_end (files : List (Nat × File)) (lines : List String) :
    fileSection files ("*L" :: lines) = .ok (files, lines) := by
  cases lines <;> simp [fileSection]

theorem fileSection_row (files : List (Nat × File)) (f : FileRow) (lines : List String) :
    fileSection files (f.line.text :: f.className.text :: lines) =
      fileSection (f.listing :: files) lines := by
  have hne : f.line.text ≠ "*L" := by
    intro h
    have hhead := congrArg (fun s => s.toList.head?) h
    simp [FileRow.line] at hhead
  rw [fileSection, if_neg hne, fileLine?_line]
  rfl

/-- The class lines are passed without being looked at, so one that spells the end mark
    does not end the table. -/
theorem fileSection_rows (files : List (Nat × File)) (fs : List FileRow) (lines : List String) :
    fileSection files ((fs.flatMap fun f => [f.line.text, f.className.text]) ++ "*L" :: lines) =
      .ok ((fs.map FileRow.listing).reverse ++ files, lines) := by
  induction fs generalizing files with
  | nil => exact fileSection_end files lines
  | cons f fs ih =>
    rw [List.flatMap_cons, List.append_assoc]
    exact (fileSection_row files f _).trans ((ih _).trans (by simp))

theorem exists_lastWith {id : UInt32} {files : List FileRow} (h : ∃ f ∈ files, f.id = id) :
    ∃ f, LastWith id files f := by
  induction files with
  | nil => obtain ⟨f, hf, _⟩ := h; cases hf
  | cons f files ih =>
    by_cases hlater : ∃ g ∈ files, g.id = id
    · obtain ⟨g, hg, before, after, rfl, hafter⟩ := ih hlater
      exact ⟨g, hg, f :: before, after, rfl, hafter⟩
    · obtain ⟨g, hg, hid⟩ := h
      rcases List.mem_cons.1 hg with rfl | hg
      · exact ⟨g, hid, [], files, rfl, fun g' hg' hid' => hlater ⟨g', hg', hid'⟩⟩
      · exact absurd ⟨g, hg, hid⟩ hlater

/-- The latest row stands first among those read, so it hides the earlier ones. -/
theorem LastWith.lookup {id : UInt32} {files : List FileRow} {f : FileRow}
    (h : LastWith id files f) :
    (files.map FileRow.listing).reverse.lookup id.toNat =
      some ⟨f.name.text, f.className.text⟩ := by
  obtain ⟨rfl, before, after, rfl, hafter⟩ := h
  refine List.lookup_eq_some_iff.2
    ⟨(after.map FileRow.listing).reverse, (before.map FileRow.listing).reverse, ?_, ?_⟩
  · simp [FileRow.listing]
  · intro entry hentry
    obtain ⟨g, hg, rfl⟩ := List.mem_map.1 (List.mem_reverse.1 hentry)
    have hid : f.id.toNat ≠ g.id.toNat := fun hid => hafter g hg (UInt32.toNat_inj.1 hid.symm)
    simpa [FileRow.listing] using hid

/-! ## The line table -/

theorem lineSection_end (files : List (Nat × File)) (t : Terminator) (lines : List String) :
    lineSection files (t.line.text :: lines) = .ok [] := by
  cases t <;> rfl

theorem lineSection_row {files : List (Nat × File)} {r : LineRow} {m : Mapping}
    (h : mapping? files r.line.text = some m) (lines : List String) :
    lineSection files (r.line.text :: lines) = (lineSection files lines).map (m :: ·) := by
  have hne : ¬(r.line.text = "*E" ∨ r.line.text = "*S KotlinDebug") := by
    rintro (hend | hend)
    · rw [hend] at h; cases h
    · rw [hend] at h; cases h
  rw [lineSection, if_neg hne, h]

theorem exists_describes {files : List FileRow} {r : LineRow} (h : ∃ f ∈ files, f.id = r.file) :
    ∃ m, mapping? (files.map FileRow.listing).reverse r.line.text = some m ∧
      Describes files r m := by
  obtain ⟨f, hf⟩ := exists_lastWith h
  refine ⟨⟨f.name.text, f.className.text, r.input.toNat, r.count.elim 1 UInt32.toNat,
    r.output.toNat⟩, ?_, ⟨f, hf, rfl, rfl⟩, rfl, rfl, rfl⟩
  rw [mapping?, lineEntry?_line]
  simp only [hf.lookup, Option.map_some]

theorem lineSection_rows {files : List FileRow} {rows : List LineRow}
    (h : ∀ r ∈ rows, ∃ f ∈ files, f.id = r.file) (t : Terminator) (lines : List String) :
    ∃ ms, lineSection (files.map FileRow.listing).reverse
        (rows.map (·.line.text) ++ t.line.text :: lines) = .ok ms ∧
      List.Forall₂ (Describes files) rows ms := by
  induction rows with
  | nil => exact ⟨[], lineSection_end _ t lines, .nil⟩
  | cons r rows ih =>
    obtain ⟨m, hm, hr⟩ := exists_describes (h r List.mem_cons_self)
    obtain ⟨ms, hms, hrows⟩ := ih fun r' hr' => h r' (List.mem_cons_of_mem _ hr')
    refine ⟨m :: ms, ?_, .cons hr hrows⟩
    rw [List.map_cons, List.cons_append, lineSection_row hm, hms]
    rfl

/-! ## Whole documents -/

theorem header_append (expected lines : List String) :
    header expected (expected ++ lines) = .ok lines := by
  induction expected with
  | nil => rfl
  | cons e es ih => rw [List.cons_append, header, if_pos rfl, ih]

namespace Document

theorem lines_written (d : Document) (ends : Nat → LineEnd) (rest : String) :
    Text.lines (Text.written ends d.lines ++ rest) =
      ["SMAP", d.source.text, "Kotlin", "*S Kotlin", "*F"] ++
        ((d.files.flatMap fun f => [f.line.text, f.className.text]) ++
          "*L" :: (d.rows.map (·.line.text) ++ d.terminator.line.text :: Text.lines rest)) := by
  rw [Text.lines_written]
  simp [lines, head, List.map_flatMap, Function.comp_def]

/-- However its lines are ended and whatever follows it, a document is read back: one
    mapping for each row, in order. -/
theorem parse_written (d : Document) (ends : Nat → LineEnd) (rest : String) :
    ∃ ms, parse d.source.text (Text.written ends d.lines ++ rest) = .ok ms ∧
      List.Forall₂ (Describes d.files) d.rows ms := by
  obtain ⟨ms, hms, hrows⟩ := lineSection_rows d.listed d.terminator (Text.lines rest)
  refine ⟨ms, ?_, hrows⟩
  rw [parse, ofLines, lines_written, header_append]
  simp only [fileSection_rows, List.append_nil]
  exact hms

/-- A number given twice, a class that is spelled like the end of the table, and an
    increment with zeros in front. -/
def renumbered : Document where
  source := { text := "B.kt" }
  files :=
    [{ id := 1, name := { text := "A.kt" }, className := { text := "a/A" }, named := by decide },
      { id := 7, name := { text := " B.kt" }, className := { text := "*L" }, named := by decide },
      { id := 1, name := { text := "C.kt" }, className := { text := "" }, named := by decide }]
  rows :=
    [{ input := 3, file := 1, count := some 4, output := 10, increment := none },
      { input := 4294967295, file := 7, count := none, output := 0,
        increment :=
          some { text := "007", nonempty := by decide, digits := List.all_eq_true.1 (by decide) } }]
  terminator := .debugSection
  listed := by decide

example : Text.written (fun _ => .feed) renumbered.lines =
    "SMAP\nB.kt\nKotlin\n*S Kotlin\n*F\n+ 1 A.kt\na/A\n+ 7  B.kt\n*L\n+ 1 C.kt\n\n*L\n" ++
      "3#1,4:10\n4294967295#7:0,007\n*S KotlinDebug\n" := by
  decide +kernel

end Document

end Winnow.SourceMap
