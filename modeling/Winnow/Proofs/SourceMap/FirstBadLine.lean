/-
  The line for which a source map is refused.

  * `next` takes a single line, and `outcome` one line after the other.  `ofLines_eq_outcome` says
    that the sections are read so;
  * `Leads` are the runs over lines that leave the source map unfinished, and `Decides` says that a
    line ends the run, one way or the other.  The lines behind it are not looked at;
  * `Reading.Completable` is what keeps an unfinished source map one that can be finished
    (`exists_completion`): the lines that the header still waits for can be written;
  * `fileText_refused_iff` and `rowText_refused_iff` say which rows are refused.
-/
import Mathlib.Tactic.SplitIfs
import Winnow.Proofs.SourceMap.RoundTrip

namespace Winnow.SourceMap

open Text (Line)

/-! ## One line at a time -/

/-- What a source map waits for: a line of its header, the next file, the class of a file, or the
    next row of the line section. -/
inductive Reading where
  | header (expected : String) (later : List String)
  | files (listed : List (Nat × File))
  | className (listed : List (Nat × File)) (id : Nat) (name : String)
  | rows (listed : List (Nat × File)) (ms : SourceMap)

inductive Verdict where
  | goesOn (s : Reading)
  | accepts (ms : SourceMap)
  | refuses

def Reading.ofHeader : (expected : List String) → Reading
  | [] => .files []
  | e :: es => .header e es

def start (source : String) : Reading :=
  .ofHeader ["SMAP", source, "Kotlin", "*S Kotlin", "*F"]

/-- What a line does to a source map. -/
def next : Reading → (line : String) → Verdict
  | .header e es, line => if line = e then .goesOn (.ofHeader es) else .refuses
  | .files listed, line =>
    if line = "*L" then .goesOn (.rows listed [])
    else
      match fileLine? line with
      | none => .refuses
      | some (id, name) => .goesOn (.className listed id name)
  | .className listed id name, line => .goesOn (.files ((id, ⟨name, line⟩) :: listed))
  | .rows listed ms, line =>
    if line = "*E" ∨ line = "*S KotlinDebug" then .accepts ms
    else
      match mapping? listed line with
      | none => .refuses
      | some m => .goesOn (.rows listed (ms ++ [m]))

def outcome (s : Reading) : (lines : List String) → Except SourceMapError SourceMap
  | [] => .error .unexpectedEnd
  | line :: lines =>
    match next s line with
    | .goesOn s' => outcome s' lines
    | .accepts ms => .ok ms
    | .refuses => .error (.unexpectedLine line)

variable {source line : String} {lines more : List String} {s s' s'' : Reading}
  {listed : List (Nat × File)} {ms : SourceMap} {r : Except SourceMapError SourceMap}

theorem next_header_goesOn {e : String} {es : List String} :
    next (.header e es) line = .goesOn s ↔ line = e ∧ s = .ofHeader es := by
  rw [next]
  split_ifs with h <;> simp [h, eq_comm]

theorem next_files_goesOn (h : next (.files listed) line = .goesOn s) :
    (line = "*L" ∧ s = .rows listed []) ∨
    ∃ id name, fileLine? line = some (id, name) ∧ s = .className listed id name := by
  rw [next] at h
  split_ifs at h with hmark
  · cases h
    exact Or.inl ⟨hmark, rfl⟩
  · split at h
    · cases h
    · next id name hfile =>
      cases h
      exact Or.inr ⟨id, name, hfile, rfl⟩

theorem next_rows_goesOn (h : next (.rows listed ms) line = .goesOn s) :
    ∃ m, mapping? listed line = some m ∧ s = .rows listed (ms ++ [m]) := by
  rw [next] at h
  split_ifs at h
  split at h
  · cases h
  · next m hm =>
    cases h
    exact ⟨m, hm, rfl⟩

/-- Only the marks at the end of the line section are accepted. -/
theorem eq_mark_of_accepts (h : next s line = .accepts ms) :
    line = "*E" ∨ line = "*S KotlinDebug" := by
  cases s with
  | header e es => rw [next] at h; split at h <;> cases h
  | files listed =>
    rw [next] at h
    split_ifs at h
    split at h <;> cases h
  | className listed id name => cases h
  | rows listed ms =>
    rw [next] at h
    split_ifs at h with hmark
    · exact hmark
    · split at h <;> cases h

theorem outcome_rows (listed : List (Nat × File)) (ms : SourceMap) (lines : List String) :
    outcome (.rows listed ms) lines = (lineSection listed lines).map (ms ++ ·) := by
  induction lines generalizing ms with
  | nil => rfl
  | cons line lines ih =>
    rw [outcome, next, lineSection]
    split_ifs
    · simp [Except.map]
    · cases mapping? listed line with
      | none => rfl
      | some m =>
        simp only [ih]
        cases lineSection listed lines <;> simp [Except.map]

theorem map_nil_append (r : Except SourceMapError SourceMap) : r.map ([] ++ ·) = r := by
  cases r <;> rfl

theorem outcome_files (listed : List (Nat × File)) (lines : List String) :
    outcome (.files listed) lines =
      match fileSection listed lines with
      | .error e => .error e
      | .ok (files, rest) => lineSection files rest := by
  -- the section is read two lines at a time
  fun_induction fileSection listed lines with
  | case1 => rfl
  | case2 listed => simp [outcome, next, lineSection]
  | case3 listed line hline hfile => simp [outcome, next, hline, hfile]
  | case4 listed line hline entry hfile => simp [outcome, next, hline, hfile]
  | case5 listed className lines =>
    rw [outcome, next, if_pos rfl]
    exact (outcome_rows listed [] _).trans (map_nil_append _)
  | case6 listed line className lines hline hfile => simp [outcome, next, hline, hfile]
  | case7 listed line className lines hline id name hfile ih =>
    simp only [outcome, next, hline, hfile, if_false]
    exact ih

theorem outcome_ofHeader (expected lines : List String) :
    outcome (.ofHeader expected) lines =
      match header expected lines with
      | .error e => .error e
      | .ok rest => outcome (.files []) rest := by
  induction expected generalizing lines with
  | nil => rfl
  | cons e es ih =>
    cases lines with
    | nil => rfl
    | cons line lines =>
      rw [Reading.ofHeader, outcome, next, header]
      split_ifs
      · exact ih lines
      · rfl

/-- The sections are read one line after the other. -/
theorem ofLines_eq_outcome (source : String) (lines : List String) :
    ofLines source lines = outcome (start source) lines := by
  rw [start, outcome_ofHeader, ofLines]
  cases header ["SMAP", source, "Kotlin", "*S Kotlin", "*F"] lines with
  | error e => rfl
  | ok rest => exact (outcome_files [] rest).symm

/-! ## Runs -/

/-- The lines lead from one state to another, and no line of them ends the run. -/
inductive Leads : Reading → List String → Reading → Prop
  | nil {s : Reading} : Leads s [] s
  | cons {s s' s'' : Reading} {line : String} {lines : List String}
      (h : next s line = .goesOn s') (rest : Leads s' lines s'') : Leads s (line :: lines) s''

/-- The line ends the run with this result. -/
inductive Decides (s : Reading) (line : String) : Except SourceMapError SourceMap → Prop
  | refuses (h : next s line = .refuses) : Decides s line (.error (.unexpectedLine line))
  | accepts {ms : SourceMap} (h : next s line = .accepts ms) : Decides s line (.ok ms)

theorem Leads.outcome_append (h : Leads s lines s') (more : List String) :
    outcome s (lines ++ more) = outcome s' more := by
  induction h with
  | nil => rfl
  | cons h _ ih => rw [List.cons_append, outcome, h]; exact ih

theorem Leads.outcome_eq (h : Leads s lines s') : outcome s lines = .error .unexpectedEnd := by
  have happend := h.outcome_append []
  rwa [List.append_nil] at happend

theorem Decides.outcome_cons (h : Decides s line r) (more : List String) :
    outcome s (line :: more) = r := by
  cases h with
  | refuses h => rw [outcome, h]
  | accepts h => rw [outcome, h]

theorem Decides.ne_unexpectedEnd (h : Decides s line r) : r ≠ .error .unexpectedEnd := by
  cases h <;> nofun

theorem goesOn_or_decides (s : Reading) (line : String) :
    (∃ s', next s line = .goesOn s') ∨ ∃ r, Decides s line r := by
  cases h : next s line with
  | goesOn s' => exact Or.inl ⟨s', rfl⟩
  | accepts ms => exact Or.inr ⟨_, .accepts h⟩
  | refuses => exact Or.inr ⟨_, .refuses h⟩

/-- A run goes through all lines, or one of them ends it. -/
theorem leads_or_decides (s : Reading) (lines : List String) :
    (∃ s', Leads s lines s') ∨
    ∃ i line s' r, lines[i]? = some line ∧ Leads s (lines.take i) s' ∧ Decides s' line r := by
  induction lines generalizing s with
  | nil => exact Or.inl ⟨s, .nil⟩
  | cons line lines ih =>
    obtain ⟨s', hs'⟩ | ⟨r, hr⟩ := goesOn_or_decides s line
    · obtain ⟨s'', hlines⟩ | ⟨i, line', s'', r, hline, hleads, hr⟩ := ih s'
      · exact Or.inl ⟨s'', .cons hs' hlines⟩
      · exact Or.inr ⟨i + 1, line', s'', r, hline, .cons hs' hleads, hr⟩
    · exact Or.inr ⟨0, line, s, r, rfl, .nil, hr⟩

/-- The lines behind the one that ends the run are not looked at. -/
theorem outcome_of_decides {i : Nat} (hline : lines[i]? = some line)
    (hleads : Leads s (lines.take i) s') (h : Decides s' line r) (more : List String) :
    outcome s (lines.take (i + 1) ++ more) = r := by
  rw [List.take_add_one, hline, List.append_assoc, hleads.outcome_append]
  exact h.outcome_cons more

theorem outcome_eq_of_decides {i : Nat} (hline : lines[i]? = some line)
    (hleads : Leads s (lines.take i) s') (h : Decides s' line r) : outcome s lines = r := by
  have hall := outcome_of_decides hline hleads h (lines.drop (i + 1))
  rwa [List.take_append_drop] at hall

theorem outcome_eq_unexpectedEnd_iff :
    outcome s lines = .error .unexpectedEnd ↔ ∃ s', Leads s lines s' := by
  refine ⟨fun h => ?_, fun ⟨_, h⟩ => h.outcome_eq⟩
  obtain hs' | ⟨i, line, s', r, hline, hleads, hr⟩ := leads_or_decides s lines
  · exact hs'
  · exact absurd ((outcome_eq_of_decides hline hleads hr).symm.trans h) hr.ne_unexpectedEnd

theorem exists_decides (h : outcome s lines ≠ .error .unexpectedEnd) :
    ∃ i line s', lines[i]? = some line ∧ Leads s (lines.take i) s' ∧
      Decides s' line (outcome s lines) := by
  obtain ⟨s', hs'⟩ | ⟨i, line, s', r, hline, hleads, hr⟩ := leads_or_decides s lines
  · exact absurd hs'.outcome_eq h
  · exact ⟨i, line, s', hline, hleads, outcome_eq_of_decides hline hleads hr ▸ hr⟩

/-- A result that is out does not change. -/
theorem outcome_append (h : outcome s lines ≠ .error .unexpectedEnd) (more : List String) :
    outcome s (lines ++ more) = outcome s lines := by
  obtain ⟨i, line, s', hline, hleads, hr⟩ := exists_decides h
  have hall := outcome_of_decides hline hleads hr (lines.drop (i + 1) ++ more)
  rwa [← List.append_assoc, List.take_append_drop] at hall

/-! ## Unfinished source maps -/

/-- The lines that the header waits for can be written. -/
def Reading.Completable : Reading → Prop
  | .header e es => ∀ text ∈ e :: es, ∃ l : Line, l.text = text
  | _ => True

theorem completable_ofHeader {expected : List String}
    (h : ∀ text ∈ expected, ∃ l : Line, l.text = text) :
    (Reading.ofHeader expected).Completable := by
  cases expected with
  | nil => trivial
  | cons e es => exact h

theorem completable_next (hs : s.Completable) (h : next s line = .goesOn s') : s'.Completable := by
  cases s with
  | header e es =>
    obtain ⟨-, rfl⟩ := next_header_goesOn.1 h
    exact completable_ofHeader fun text htext => hs text (List.mem_cons_of_mem _ htext)
  | files listed => obtain ⟨-, rfl⟩ | ⟨id, name, -, rfl⟩ := next_files_goesOn h <;> trivial
  | className listed id name => cases h; trivial
  | rows listed ms => obtain ⟨m, -, rfl⟩ := next_rows_goesOn h; trivial

theorem Leads.completable (h : Leads s lines s') (hs : s.Completable) : s'.Completable := by
  induction h with
  | nil => exact hs
  | cons h _ ih => exact ih (completable_next hs h)

theorem exists_completion_ofHeader {expected : List String}
    (h : ∀ text ∈ expected, ∃ l : Line, l.text = text) :
    ∃ (more : List Line) (ms : SourceMap),
      outcome (.ofHeader expected) (more.map Line.text) = .ok ms := by
  induction expected with
  | nil => exact ⟨[{ text := "*L" }, { text := "*E" }], [], rfl⟩
  | cons e es ih =>
    obtain ⟨⟨l, hl⟩, hes⟩ := List.forall_mem_cons.1 h
    obtain ⟨more, ms, hmore⟩ := ih hes
    refine ⟨l :: more, ms, ?_⟩
    rw [List.map_cons, hl, Reading.ofHeader, outcome, next, if_pos rfl]
    exact hmore

theorem exists_completion (hs : s.Completable) :
    ∃ (more : List Line) (ms : SourceMap), outcome s (more.map Line.text) = .ok ms := by
  cases s with
  | header e es => exact exists_completion_ofHeader hs
  | files listed => exact ⟨[{ text := "*L" }, { text := "*E" }], [], rfl⟩
  | className listed id name =>
    exact ⟨[{ text := "" }, { text := "*L" }, { text := "*E" }], [], rfl⟩
  | rows listed ms => exact ⟨[{ text := "*E" }], ms, rfl⟩

/-! ## Refused rows -/

theorem fileLine?_text (f : FileText) :
    fileLine? f.line.text = (number? f.id.text.toList).map (·, f.name.text) :=
  fileLine?_digits f.id f.named (by simp [FileText.line])

theorem FileText.ne_mark (f : FileText) : f.line.text ≠ "*L" := by
  intro h
  have hhead := congrArg (fun s => s.toList.head?) h
  simp [FileText.line] at hhead

theorem next_fileText (listed : List (Nat × File)) (f : FileText) :
    next (.files listed) f.line.text = .refuses ↔ f.id.Overflows := by
  rw [next, if_neg f.ne_mark, fileLine?_text, ← Digits.number?_eq_none_iff]
  cases number? f.id.text.toList <;> simp

theorem RowText.head_line (r : RowText) : ∃ c ∈ r.line.text.toList.head?, c.isDigit := by
  obtain ⟨c, cs, hcs⟩ := List.exists_cons_of_ne_nil r.input.nonempty
  refine ⟨c, by simp [RowText.line, hcs], r.input.digits c (by simp [hcs])⟩

theorem RowText.ne_mark (r : RowText) :
    ¬ (r.line.text = "*E" ∨ r.line.text = "*S KotlinDebug") := by
  obtain ⟨c, hc, hdigit⟩ := r.head_line
  rintro (h | h) <;>
  · rw [h] at hc
    cases hc
    cases hdigit

theorem count?_eq_some_iff {count : Option Digits} {n : Nat} :
    count? count = some n ↔ (∀ d ∈ count, ¬ d.Overflows) ∧ n = count.elim 1 Digits.value := by
  cases count with
  | none => simp [count?, eq_comm]
  | some d => simp [count?, Digits.number?_eq_some_iff]

theorem lineEntry?_of_no_file (r : RowText) (h : r.file = none) :
    lineEntry? r.line.text = none := by
  let output := ':' :: (r.output.text.toList ++ (optional r.increment).text.toList)
  have hline : r.line.text.toList =
      r.input.text.toList ++ ((optional r.count).text.toList ++ output) := by
    simp [RowText.line, RowText.fileMark, h, output]
  have hsplit := splitDigits_append r.input ((optional r.count).text.toList ++ output)
    (head_optional_append _ output (by simp [output]))
  unfold lineEntry?
  rw [hline]
  simp only [hsplit]
  cases r.count with
  | none => rfl
  | some d => rw [toList_optional_some]; rfl

/-- A row is read if it has a file and no number of it overflows. -/
theorem lineEntry?_rowText {r : RowText} {e : LineEntry} :
    lineEntry? r.line.text = some e ↔
      ∃ id, r.file = some id ∧ (∀ d ∈ r.numbers, ¬ d.Overflows) ∧
        e = ⟨r.input.value, id.value, r.count.elim 1 Digits.value, r.output.value⟩ := by
  obtain ⟨input, file, count, output, increment⟩ := r
  cases file with
  | none => simp [lineEntry?_of_no_file]
  | some id =>
    rw [lineEntry?_digits input id count output increment
      (by simp [RowText.line, RowText.fileMark])]
    simp only [Option.bind_eq_some_iff, Option.map_eq_some_iff, Digits.number?_eq_some_iff,
      count?_eq_some_iff, RowText.numbers, Option.toList_some, List.mem_cons, List.mem_append,
      Option.mem_toList]
    constructor
    · rintro ⟨_, ⟨hinput, rfl⟩, _, ⟨hid, rfl⟩, _, ⟨hcount, rfl⟩, _, ⟨houtput, rfl⟩, rfl⟩
      refine ⟨id, rfl, ?_, rfl⟩
      rintro d (rfl | rfl | (rfl | hd) | hd)
      · exact hinput
      · exact houtput
      · exact hid
      · cases hd
      · exact hcount d hd
    · rintro ⟨_, hid, hnumbers, rfl⟩
      cases hid
      exact ⟨_, ⟨hnumbers _ (by simp), rfl⟩, _, ⟨hnumbers _ (by simp), rfl⟩, _,
        ⟨fun d hd => hnumbers d (by simp [Option.mem_def.1 hd]), rfl⟩, _,
        ⟨hnumbers _ (by simp), rfl⟩, rfl⟩

theorem mapping?_rowText {r : RowText} :
    mapping? listed r.line.text = none ↔
      (∃ d ∈ r.numbers, d.Overflows) ∨ r.file = none ∨
        ∃ id, r.file = some id ∧ listed.lookup id.value = none := by
  have hnone : mapping? listed r.line.text = none ↔
      ∀ e, lineEntry? r.line.text = some e → listed.lookup e.file = none := by
    rw [mapping?]
    cases lineEntry? r.line.text <;> simp
  rw [hnone]
  simp only [lineEntry?_rowText]
  constructor
  · intro h
    by_cases hoverflow : ∃ d ∈ r.numbers, d.Overflows
    · exact Or.inl hoverflow
    · right
      cases hfile : r.file with
      | none => exact Or.inl rfl
      | some id =>
        exact Or.inr ⟨id, rfl, h _ ⟨id, hfile, fun d hd ho => hoverflow ⟨d, hd, ho⟩, rfl⟩⟩
  · rintro h e ⟨id, hfile, hnumbers, rfl⟩
    obtain ⟨d, hd, hoverflow⟩ | hnone | ⟨id', hid', hlookup⟩ := h
    · exact absurd hoverflow (hnumbers d hd)
    · rw [hfile] at hnone; cases hnone
    · rw [hfile] at hid'
      cases hid'
      exact hlookup

theorem next_rowText {r : RowText} :
    next (.rows listed ms) r.line.text = .refuses ↔ mapping? listed r.line.text = none := by
  rw [next, if_neg r.ne_mark]
  cases mapping? listed r.line.text <;> simp

/-! ## Where the rows stand -/

theorem leads_append_iff :
    Leads s (lines ++ more) s'' ↔ ∃ s', Leads s lines s' ∧ Leads s' more s'' := by
  constructor
  · intro h
    induction lines generalizing s with
    | nil => exact ⟨s, .nil, h⟩
    | cons line lines ih =>
      cases h with
      | cons h rest =>
        obtain ⟨s', hlines, hmore⟩ := ih rest
        exact ⟨s', .cons h hlines, hmore⟩
  · rintro ⟨s', hlines, hmore⟩
    induction hlines with
    | nil => exact hmore
    | cons h _ ih => exact .cons h (ih hmore)

theorem leads_cons_iff :
    Leads s (line :: lines) s'' ↔ ∃ s', next s line = .goesOn s' ∧ Leads s' lines s'' := by
  constructor
  · rintro (_ | ⟨h, rest⟩)
    exact ⟨_, h, rest⟩
  · rintro ⟨s', h, rest⟩
    exact .cons h rest

theorem leads_ofHeader_append_iff {expected : List String} :
    Leads (.ofHeader expected) (expected ++ lines) s' ↔ Leads (.files []) lines s' := by
  induction expected with
  | nil => rfl
  | cons e es ih =>
    change Leads (.header e es) (e :: (es ++ lines)) s' ↔ _
    simp [leads_cons_iff, next_header_goesOn, ih]

theorem next_fileText_goesOn {f : FileText} (h : next (.files listed) f.line.text = .goesOn s) :
    s = .className listed f.id.value f.name.text := by
  obtain ⟨hmark, -⟩ | ⟨id, name, hfile, rfl⟩ := next_files_goesOn h
  · exact absurd hmark f.ne_mark
  · rw [fileLine?_text, Option.map_eq_some_iff] at hfile
    obtain ⟨n, hn, hentry⟩ := hfile
    cases hentry
    rw [(Digits.number?_eq_some_iff.1 hn).2]

/-- Behind the rows of files, these are listed. -/
theorem leads_fileTexts {files : List FileText}
    (h : Leads (.files listed) ((files.flatMap fun f => [f.line, f.className]).map Line.text) s) :
    ∃ listed', s = .files listed' ∧
      ∀ n, listed'.lookup n = none ↔ listed.lookup n = none ∧ ∀ f ∈ files, f.id.value ≠ n := by
  induction files generalizing listed with
  | nil =>
    cases h
    exact ⟨listed, rfl, by simp⟩
  | cons f files ih =>
    simp only [List.flatMap_cons, List.map_cons, List.cons_append, List.nil_append] at h
    obtain ⟨s₁, hfile, hrest⟩ := leads_cons_iff.1 h
    obtain rfl := next_fileText_goesOn hfile
    obtain ⟨s₂, hclass, hrest⟩ := leads_cons_iff.1 hrest
    cases hclass
    obtain ⟨listed', rfl, hlisted⟩ := ih hrest
    refine ⟨listed', rfl, fun n => ?_⟩
    rw [hlisted, List.forall_mem_cons]
    by_cases hn : n = f.id.value
    · simp [hn]
    · simp [hn, Ne.symm hn]

theorem leads_rows (h : Leads (.rows listed ms) lines s) : ∃ ms', s = .rows listed ms' := by
  induction lines generalizing ms with
  | nil => cases h; exact ⟨ms, rfl⟩
  | cons line lines ih =>
    obtain ⟨s₁, hline, hrest⟩ := leads_cons_iff.1 h
    obtain ⟨m, -, rfl⟩ := next_rows_goesOn hline
    exact ih hrest

/-! ## Texts -/

/-- What the lines give, each ended by a line feed. -/
def read (source : String) (ls : List Line) : Except SourceMapError SourceMap :=
  parse source (Text.written (fun _ => .feed) ls)

variable {ls pre : List Line}

theorem read_eq (source : String) (ls : List Line) :
    read source ls = outcome (start source) (ls.map Line.text) := by
  have hlines := Text.lines_written (fun _ => .feed) ls ""
  rw [String.append_empty] at hlines
  rw [read, parse, hlines, ofLines_eq_outcome]
  simp [Text.lines, Text.linesOf]

theorem read_eq_unexpectedEnd_iff :
    read source ls = .error .unexpectedEnd ↔ ∃ s, Leads (start source) (ls.map Line.text) s := by
  rw [read_eq, outcome_eq_unexpectedEnd_iff]

/-- One line ends the run: those before it leave the source map unfinished, and those behind it
    make no difference. -/
theorem exists_deciding_line (h : read source ls = r) (hr : r ≠ .error .unexpectedEnd) :
    ∃ i line s, ls[i]? = some line ∧ Decides s line.text r ∧
      read source (ls.take i) = .error .unexpectedEnd ∧
      ∀ more, read source (ls.take (i + 1) ++ more) = r := by
  rw [read_eq] at h
  subst h
  obtain ⟨i, text, s, htext, hleads, hdecides⟩ := exists_decides hr
  obtain ⟨line, hline, rfl⟩ := Option.map_eq_some_iff.1 (List.getElem?_map.symm.trans htext)
  refine ⟨i, line, s, hline, hdecides, ?_, fun more => ?_⟩
  · rw [read_eq_unexpectedEnd_iff, List.map_take]
    exact ⟨s, hleads⟩
  · rw [read_eq, List.map_append, List.map_take]
    exact outcome_of_decides htext hleads hdecides _

theorem read_eq_unexpectedLine_iff {text : String} :
    read source ls = .error (.unexpectedLine text) ↔
      ∃ i line, ls[i]? = some line ∧ line.text = text ∧
        read source (ls.take i) = .error .unexpectedEnd ∧
        ∀ more, read source (ls.take (i + 1) ++ more) = .error (.unexpectedLine text) := by
  constructor
  · intro h
    obtain ⟨i, line, s, hline, hdecides, hbefore, hafter⟩ := exists_deciding_line h nofun
    cases hdecides
    exact ⟨i, line, hline, rfl, hbefore, hafter⟩
  · rintro ⟨i, -, -, -, -, hafter⟩
    simpa using hafter (ls.drop (i + 1))

theorem read_eq_ok_iff :
    read source ls = .ok ms ↔
      ∃ i line, ls[i]? = some line ∧ (line.text = "*E" ∨ line.text = "*S KotlinDebug") ∧
        read source (ls.take i) = .error .unexpectedEnd ∧
        ∀ more, read source (ls.take (i + 1) ++ more) = .ok ms := by
  constructor
  · intro h
    obtain ⟨i, line, s, hline, hdecides, hbefore, hafter⟩ := exists_deciding_line h nofun
    cases hdecides with
    | accepts haccepts =>
      exact ⟨i, line, hline, eq_mark_of_accepts haccepts, hbefore, hafter⟩
  · rintro ⟨i, -, -, -, -, hafter⟩
    simpa using hafter (ls.drop (i + 1))

theorem completable_start (h : ∃ name : Line, name.text = source) : (start source).Completable := by
  refine completable_ofHeader ?_
  simp only [List.forall_mem_cons, List.not_mem_nil, false_implies, implies_true, and_true]
  exact ⟨⟨{ text := "SMAP" }, rfl⟩, h, ⟨{ text := "Kotlin" }, rfl⟩, ⟨{ text := "*S Kotlin" }, rfl⟩,
    ⟨{ text := "*F" }, rfl⟩⟩

theorem unfinished_iff (h : ∃ name : Line, name.text = source) :
    read source ls = .error .unexpectedEnd ↔
      (∀ ms, read source ls ≠ .ok ms) ∧ ∃ more ms, read source (ls ++ more) = .ok ms := by
  constructor
  · intro hend
    refine ⟨fun ms hms => ?_, ?_⟩
    · rw [hend] at hms; cases hms
    · obtain ⟨s, hleads⟩ := read_eq_unexpectedEnd_iff.1 hend
      obtain ⟨more, ms, hmore⟩ := exists_completion (hleads.completable (completable_start h))
      refine ⟨more, ms, ?_⟩
      rw [read_eq, List.map_append, hleads.outcome_append, hmore]
  · rintro ⟨hno, more, ms, hmore⟩
    by_contra hend
    rw [read_eq] at hend
    rw [read_eq, List.map_append, outcome_append hend, ← read_eq] at hmore
    exact hno ms hmore

/-- A source that no line can name is waited for in vain. -/
theorem unfinished_iff_of_no_line (h : ∀ name : Line, name.text ≠ source) :
    read source ls = .error .unexpectedEnd ↔ ls.map Line.text <+: ["SMAP"] := by
  rw [read_eq_unexpectedEnd_iff]
  constructor
  · rintro ⟨s, hleads⟩
    match ls with
    | [] => exact List.nil_prefix
    | [l] =>
      obtain ⟨s₁, hl, -⟩ := leads_cons_iff.1 hleads
      obtain ⟨hl, -⟩ := next_header_goesOn.1 hl
      simp [hl]
    | l :: name :: ls =>
      obtain ⟨s₁, hl, hrest⟩ := leads_cons_iff.1 hleads
      obtain ⟨-, rfl⟩ := next_header_goesOn.1 hl
      obtain ⟨s₂, hname, -⟩ := leads_cons_iff.1 hrest
      exact absurd (next_header_goesOn.1 hname).1 (h name)
  · intro hprefix
    obtain hnil | ⟨texts, htexts, hrest⟩ := List.prefix_cons_iff.1 hprefix
    · exact ⟨start source, hnil ▸ .nil⟩
    · rw [htexts, List.prefix_nil.1 hrest]
      exact ⟨_, .cons (next_header_goesOn.2 ⟨rfl, rfl⟩) .nil⟩

/-- A line is refused, whatever comes behind it, if the state that the lines before it lead to
    refuses it. -/
theorem refused_iff {l : Line} (h : Leads (start source) (pre.map Line.text) s) :
    (∀ more, read source (pre ++ l :: more) = .error (.unexpectedLine l.text)) ↔
      next s l.text = .refuses := by
  have hread : ∀ more, read source (pre ++ l :: more) =
      outcome s (l.text :: more.map Line.text) := by
    intro more
    rw [read_eq, List.map_append, h.outcome_append, List.map_cons]
  simp only [hread]
  refine ⟨fun hall => ?_, fun hnext more => (Decides.refuses hnext).outcome_cons _⟩
  have halone := hall []
  rw [outcome] at halone
  cases hnext : next s l.text with
  | goesOn s' => rw [hnext] at halone; cases halone
  | accepts ms => rw [hnext] at halone; cases halone
  | refuses => rfl

theorem leads_untilFiles {name : Line} {files : List FileText} {rest : List Line}
    (h : read name.text (untilFiles name files ++ rest) = .error .unexpectedEnd) :
    ∃ listed s, (∀ n, listed.lookup n = none ↔ ∀ f ∈ files, f.id.value ≠ n) ∧
      Leads (.files listed) (rest.map Line.text) s ∧
      Leads (start name.text) ((untilFiles name files ++ rest).map Line.text) s := by
  obtain ⟨s, hleads⟩ := read_eq_unexpectedEnd_iff.1 h
  have htexts : (untilFiles name files ++ rest).map Line.text =
      ["SMAP", name.text, "Kotlin", "*S Kotlin", "*F"] ++
        ((files.flatMap fun f => [f.line, f.className]).map Line.text ++ rest.map Line.text) := by
    simp [untilFiles]
  have hfiles := hleads
  rw [htexts, start, leads_ofHeader_append_iff] at hfiles
  obtain ⟨s', hs', hrest⟩ := leads_append_iff.1 hfiles
  obtain ⟨listed, rfl, hlisted⟩ := leads_fileTexts hs'
  exact ⟨listed, s, fun n => by simp [hlisted], hrest, hleads⟩

theorem fileText_refused_iff {name : Line} {files : List FileText} {f : FileText}
    (h : read name.text (untilFiles name files) = .error .unexpectedEnd) :
    (∀ more, read name.text (untilFiles name files ++ f.line :: more) =
      .error (.unexpectedLine f.line.text)) ↔ f.id.Overflows := by
  rw [← List.append_nil (untilFiles name files)] at h
  obtain ⟨listed, s, -, hrest, hleads⟩ := leads_untilFiles h
  cases hrest
  rw [List.append_nil] at hleads
  rw [refused_iff hleads, next_fileText]

theorem rowText_refused_iff {name : Line} {files : List FileText} {rows : List Line} {r : RowText}
    (h : read name.text (untilRows name files rows) = .error .unexpectedEnd) :
    (∀ more, read name.text (untilRows name files rows ++ r.line :: more) =
      .error (.unexpectedLine r.line.text)) ↔ r.Faulty files := by
  obtain ⟨listed, s, hlisted, hrest, hleads⟩ := leads_untilFiles h
  obtain ⟨s₁, hmark, hrows⟩ := leads_cons_iff.1 hrest
  cases hmark
  obtain ⟨ms, rfl⟩ := leads_rows hrows
  rw [untilRows, refused_iff hleads, next_rowText, mapping?_rowText]
  simp only [hlisted, RowText.Faulty]

/-- **A source map is refused for its first bad line**: the line before which it was unfinished,
    and with which it stays refused whatever follows.  It is unfinished if it is not accepted but
    could still be, and accepted by the line that ends the line section, whatever follows.

    This takes a source that can stand on a line; for any other, nothing but the first line of the
    header is left unfinished.  Rows are refused where they stand if a number of them overflows, if
    they name no file, or if they name one that is not listed. -/
theorem first_bad_line_refused (source : String) (ls : List Line) :
    (∀ text, read source ls = .error (.unexpectedLine text) ↔
      ∃ i line, ls[i]? = some line ∧ line.text = text ∧
        read source (ls.take i) = .error .unexpectedEnd ∧
        ∀ more, read source (ls.take (i + 1) ++ more) = .error (.unexpectedLine text)) ∧
    ((∃ name : Line, name.text = source) →
      (read source ls = .error .unexpectedEnd ↔
        (∀ ms, read source ls ≠ .ok ms) ∧ ∃ more ms, read source (ls ++ more) = .ok ms)) ∧
    ((∀ name : Line, name.text ≠ source) →
      (read source ls = .error .unexpectedEnd ↔ ls.map Line.text <+: ["SMAP"])) ∧
    (∀ ms, read source ls = .ok ms ↔
      ∃ i line, ls[i]? = some line ∧ (line.text = "*E" ∨ line.text = "*S KotlinDebug") ∧
        read source (ls.take i) = .error .unexpectedEnd ∧
        ∀ more, read source (ls.take (i + 1) ++ more) = .ok ms) ∧
    (∀ (name : Line) (files : List FileText) (f : FileText),
      read name.text (untilFiles name files) = .error .unexpectedEnd →
      ((∀ more, read name.text (untilFiles name files ++ f.line :: more) =
        .error (.unexpectedLine f.line.text)) ↔ f.id.Overflows)) ∧
    ∀ (name : Line) (files : List FileText) (rows : List Line) (r : RowText),
      read name.text (untilRows name files rows) = .error .unexpectedEnd →
      ((∀ more, read name.text (untilRows name files rows ++ r.line :: more) =
        .error (.unexpectedLine r.line.text)) ↔ r.Faulty files) :=
  ⟨fun _ => read_eq_unexpectedLine_iff, unfinished_iff, unfinished_iff_of_no_line,
    fun _ => read_eq_ok_iff, fun _ _ _ => fileText_refused_iff, fun _ _ _ _ => rowText_refused_iff⟩

def mainKt : Line := { text := "Main.kt" }

def listedFile : FileText where
  id := { text := "1", nonempty := by decide, digits := List.all_eq_true.1 (by decide) }
  name := mainKt
  className := { text := "app/Main" }
  named := by decide

/-- The least number that overflows. -/
def overflowingFile : FileText where
  id := { text := "4294967296", nonempty := by decide, digits := List.all_eq_true.1 (by decide) }
  name := { text := "Lib.kt" }
  className := { text := "app/Lib" }
  named := by decide

def unlistedRow : RowText where
  input := { text := "3", nonempty := by decide, digits := List.all_eq_true.1 (by decide) }
  file := some { text := "2", nonempty := by decide, digits := List.all_eq_true.1 (by decide) }
  count := none
  output := { text := "4", nonempty := by decide, digits := List.all_eq_true.1 (by decide) }
  increment := none

theorem first_bad_line_refused_unlisted :
    (∃ name : Line, name.text = "Main.kt") ∧ (∀ name : Line, name.text ≠ "Main\n.kt") ∧
    read "Main.kt" (untilFiles mainKt [listedFile]) = .error .unexpectedEnd ∧
    read "Main.kt" (untilRows mainKt [listedFile] []) = .error .unexpectedEnd ∧
    (∃ more ms, read "Main.kt" (untilFiles mainKt [listedFile] ++ more) = .ok ms) ∧
    read "Main\n.kt" [{ text := "SMAP" }] = .error .unexpectedEnd ∧
    (∀ more, read "Main.kt" (untilFiles mainKt [listedFile] ++ overflowingFile.line :: more) =
      .error (.unexpectedLine "+ 4294967296 Lib.kt")) ∧
    ∀ more, read "Main.kt" (untilRows mainKt [listedFile] [] ++ unlistedRow.line :: more) =
      .error (.unexpectedLine "3#2:4") := by
  have hline : ∃ name : Line, name.text = "Main.kt" := ⟨mainKt, rfl⟩
  have hnoLine : ∀ name : Line, name.text ≠ "Main\n.kt" := by
    intro name h
    have hfeed := name.noFeed
    rw [h] at hfeed
    exact hfeed (by decide)
  have hfiles : read "Main.kt" (untilFiles mainKt [listedFile]) = .error .unexpectedEnd := by
    decide +kernel
  have hrows : read "Main.kt" (untilRows mainKt [listedFile] []) = .error .unexpectedEnd := by
    decide +kernel
  obtain ⟨-, hunfinished, -, -, hfile, hrow⟩ :=
    first_bad_line_refused "Main.kt" (untilFiles mainKt [listedFile])
  obtain ⟨-, -, hwaits, -⟩ := first_bad_line_refused "Main\n.kt" [{ text := "SMAP" }]
  refine ⟨hline, hnoLine, hfiles, hrows, ((hunfinished hline).1 hfiles).2,
    (hwaits hnoLine).2 List.prefix_rfl, ?_, ?_⟩
  · refine (hfile mainKt [listedFile] overflowingFile hfiles).2 ?_
    change 2 ^ 32 ≤ digitsValue "4294967296".toList
    decide +kernel
  · refine (hrow mainKt [listedFile] [] unlistedRow hrows).2 (Or.inr (Or.inr ⟨_, rfl, ?_⟩))
    intro f hf
    obtain rfl := List.mem_singleton.1 hf
    decide +kernel

end Winnow.SourceMap
