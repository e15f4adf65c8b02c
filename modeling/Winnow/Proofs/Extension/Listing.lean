/-
  What a list of extension filters says.

  * `Says` relates a line to the name on it, and `IsQualifiedName` is the form of a name;
  * `Edit` is a change of a list that leaves its names as they are: a comment, blanks, or a name
    that is listed already;
  * `namesFrom_eq_ok_iff` and `namesFrom_eq_error_iff` say what reading the lines gives.  The
    names that come out can be listed again, since no character of a name is a blank
    (`not_isBlank_of_isNamePart`).
-/
import Mathlib.Logic.Relation
import Winnow.Proofs.Text
import Winnow.Proofs.Text.Blank
import Winnow.Proofs.Extension.Loading

namespace Winnow.Extension

open Text (isBlank)

/-! ## Lines and names -/

/-- The name stands on the line: blanks around it and a comment behind it do not belong to it. -/
def Says (line name : String) : Prop :=
  ∃ before after comment, line.toList = before ++ name.toList ++ after ++ comment ∧
    (∀ c ∈ before, isBlank c) ∧ (∀ c ∈ after, isBlank c) ∧ (∀ c ∈ comment.head?, c = '#') ∧
    '#' ∉ name.toList ∧ Text.Trimmed name.toList

/-- A letter, an underscore or a dollar sign, and then such characters, numbers and dots. -/
def IsQualifiedName (name : String) : Prop :=
  ∃ c cs, name.toList = c :: cs ∧ (Text.isAlphabetic c ∨ c = '_' ∨ c = '$') ∧
    ∀ d ∈ cs, Text.isAlphabetic d ∨ Text.isNumeric d ∨ d = '_' ∨ d = '$' ∨ d = '.'

/-- The line says something that is not a name. -/
def Illegal (line name : String) : Prop :=
  Says line name ∧ name ≠ "" ∧ ¬ IsQualifiedName name

/-- The names on the lines, in order.  Lines that say nothing are passed over. -/
inductive Lists : (lines names : List String) → Prop
  | nil : Lists [] []
  | blank {line : String} {lines names : List String} (h : Says line "")
      (rest : Lists lines names) : Lists (line :: lines) names
  | name {line name : String} {lines names : List String} (h : Says line name)
      (hname : IsQualifiedName name) (rest : Lists lines names) :
      Lists (line :: lines) (name :: names)

/-- A change of the lines of a list that adds no name. -/
inductive Edit : List String → List String → Prop
  /-- A comment behind a line. -/
  | comment {before after : List String} {line text : String} :
      Edit (before ++ line :: after) (before ++ (line ++ "#" ++ text) :: after)
  /-- A blank line. -/
  | blankLine {before after : List String} {line : String} (h : ∀ c ∈ line.toList, isBlank c) :
      Edit (before ++ after) (before ++ line :: after)
  /-- Blanks around a name, before the comment if there is one. -/
  | blanks {before after : List String} {left name right comment : String}
      (hleft : ∀ c ∈ left.toList, isBlank c) (hright : ∀ c ∈ right.toList, isBlank c)
      (hname : '#' ∉ name.toList) (hcomment : ∀ c ∈ comment.toList.head?, c = '#') :
      Edit (before ++ (name ++ comment) :: after)
        (before ++ (left ++ name ++ right ++ comment) :: after)
  /-- A name that a line before it says. -/
  | again {before after : List String} {line line' name : String} (h : Says line name)
      (hearlier : line' ∈ before) (h' : Says line' name) :
      Edit (before ++ after) (before ++ line :: after)

variable {c : Char} {line name text : String} {lines lines' names : List String} {number : Nat}
  {e : SetupError}

theorem takeWhile_comment {cs comment : List Char} (hcs : '#' ∉ cs)
    (hcomment : ∀ c ∈ comment.head?, c = '#') : (cs ++ comment).takeWhile (· ≠ '#') = cs := by
  have hno : ∀ c ∈ cs, decide (c ≠ '#') = true := by
    intro c hc
    simpa using ne_of_mem_of_not_mem hc hcs
  rw [List.takeWhile_append_of_pos hno]
  cases comment with
  | nil => simp
  | cons d comment => simp [hcomment d rfl]

theorem ne_hash_of_isBlank (h : isBlank c) : c ≠ '#' := by
  rintro rfl
  revert h
  decide

theorem hash_notMem_blanks {before : List Char} (h : ∀ c ∈ before, isBlank c) : '#' ∉ before :=
  fun hmem => ne_hash_of_isBlank (h _ hmem) rfl

/-- Blanks around what stands before the comment make no difference. -/
theorem content_blanks {left right comment : String} (hleft : ∀ c ∈ left.toList, isBlank c)
    (hright : ∀ c ∈ right.toList, isBlank c) (hname : '#' ∉ name.toList)
    (hcomment : ∀ c ∈ comment.toList.head?, c = '#') :
    content (left ++ name ++ right ++ comment) = Text.trim name.toList := by
  have hall : '#' ∉ left.toList ++ name.toList ++ right.toList := by
    simp [hash_notMem_blanks hleft, hname, hash_notMem_blanks hright]
  simp only [content, String.toList_append]
  rw [takeWhile_comment hall hcomment, Text.trim_blanks hleft hright]

theorem hash_notMem_takeWhile (cs : List Char) : '#' ∉ cs.takeWhile (· ≠ '#') := by
  intro hmem
  simpa using List.all_eq_true.1 List.all_takeWhile _ hmem

theorem head_comment_append {comment : List Char} (h : ∀ c ∈ comment.head?, c = '#')
    (more : List Char) : ∀ c ∈ (comment ++ '#' :: more).head?, c = '#' := by
  cases comment with
  | nil => simp
  | cons d comment => exact h

theorem content_comment (line text : String) : content (line ++ "#" ++ text) = content line := by
  -- the comment goes on where the line has one
  have hstart : ∀ c ∈ (line.toList.dropWhile (· ≠ '#')).head?, c = '#' := by
    intro c hc
    simpa using List.not_of_mem_head?_dropWhile hc
  have hline : (line ++ "#" ++ text).toList = line.toList.takeWhile (· ≠ '#') ++
      (line.toList.dropWhile (· ≠ '#') ++ '#' :: text.toList) := by
    rw [← List.append_assoc, List.takeWhile_append_dropWhile]
    simp
  rw [content, hline, takeWhile_comment (hash_notMem_takeWhile _)
    (head_comment_append hstart text.toList), content]

theorem content_eq_iff : content line = name.toList ↔ Says line name := by
  constructor
  · intro h
    obtain ⟨before, after, hline, hbefore, hafter, htrimmed⟩ :=
      Text.exists_trim (line.toList.takeWhile (· ≠ '#'))
    rw [← content, h] at hline htrimmed
    have hhash := hash_notMem_takeWhile line.toList
    refine ⟨before, after, line.toList.dropWhile (· ≠ '#'), ?_, hbefore, hafter, ?_, ?_, htrimmed⟩
    · rw [← hline, List.takeWhile_append_dropWhile]
    · intro c hc
      simpa using List.not_of_mem_head?_dropWhile hc
    · rw [hline] at hhash
      exact fun hmem => hhash (List.mem_append_left _ (List.mem_append_right _ hmem))
  · rintro ⟨before, after, comment, hline, hbefore, hafter, hcomment, hname, htrimmed⟩
    have hall : '#' ∉ before ++ name.toList ++ after := by
      simp [hash_notMem_blanks hbefore, hname, hash_notMem_blanks hafter]
    rw [content, hline, takeWhile_comment hall hcomment, Text.trim_blanks hbefore hafter,
      Text.trim_of_trimmed htrimmed]

theorem Says.unique {name' : String} (h : Says line name) (h' : Says line name') : name = name' :=
  String.toList_inj.1 ((content_eq_iff.2 h).symm.trans (content_eq_iff.2 h'))

theorem says_content (line : String) : Says line (String.ofList (content line)) :=
  content_eq_iff.1 String.toList_ofList.symm

theorem isName_iff : isName name.toList ↔ IsQualifiedName name := by
  unfold IsQualifiedName
  cases name.toList with
  | nil => simp [isName]
  | cons c cs => simp [isName, isNameStart, isNamePart, or_assoc]

theorem IsQualifiedName.ne_empty (h : IsQualifiedName name) : name ≠ "" := by
  rintro rfl
  obtain ⟨c, cs, hcs, -⟩ := h
  cases hcs

/-! ## Reading the lines -/

/-- What reading does with a line. -/
theorem namesFrom_cons (h : Says line name) (number : Nat) (lines : List String) :
    (name = "" → namesFrom number (line :: lines) = namesFrom (number + 1) lines) ∧
    (IsQualifiedName name → namesFrom number (line :: lines) =
      (namesFrom (number + 1) lines).map (name :: ·)) ∧
    (Illegal line name → namesFrom number (line :: lines) = .error (.illegalName number name)) := by
  have hcontent := content_eq_iff.2 h
  rw [namesFrom, hcontent]
  refine ⟨?_, fun hname => ?_, ?_⟩
  · rintro rfl
    rfl
  · have hempty : name.toList.isEmpty = false := by simpa using hname.ne_empty
    simp only [hempty, isName_iff.2 hname, String.ofList_toList, if_true, Bool.false_eq_true,
      if_false]
  · rintro ⟨-, hne, hname⟩
    have hempty : name.toList.isEmpty = false := by simpa using hne
    have hno : isName name.toList = false := by simpa using isName_iff.not.2 hname
    simp only [hempty, hno, String.ofList_toList, Bool.false_eq_true, if_false]

/-- A line is blank, says a name or is illegal. -/
theorem line_cases (line : String) :
    Says line "" ∨ (∃ name, Says line name ∧ IsQualifiedName name) ∨ ∃ name, Illegal line name := by
  have h := says_content line
  generalize String.ofList (content line) = name at h
  by_cases hempty : name = ""
  · exact Or.inl (hempty ▸ h)
  · by_cases hname : IsQualifiedName name
    · exact Or.inr (Or.inl ⟨name, h, hname⟩)
    · exact Or.inr (Or.inr ⟨name, h, hempty, hname⟩)

theorem Lists.namesFrom_append (h : Lists lines names) (number : Nat) (more : List String) :
    namesFrom number (lines ++ more) =
      (namesFrom (number + lines.length) more).map (names ++ ·) := by
  induction h generalizing number with
  | nil => cases h : namesFrom number more <;> simp [h, Except.map]
  | blank h rest ih =>
    rw [List.cons_append, (namesFrom_cons h number _).1 rfl, ih, List.length_cons]
    congr 2
    omega
  | name h hname rest ih =>
    rw [List.cons_append, (namesFrom_cons h number _).2.1 hname, ih, List.length_cons]
    have hnumber : ∀ n, number + 1 + n = number + (n + 1) := by omega
    rw [hnumber]
    cases namesFrom _ more <;> rfl

theorem Lists.namesFrom (h : Lists lines names) (number : Nat) :
    namesFrom number lines = .ok names := by
  have hread := h.namesFrom_append number []
  rw [List.append_nil] at hread
  rw [hread]
  simp [Extension.namesFrom, Except.map]

theorem Lists.mem (h : Lists lines names) (hline : line ∈ lines) (hread : Says line name)
    (hne : name ≠ "") : IsQualifiedName name ∧ name ∈ names := by
  induction h with
  | nil => cases hline
  | blank h rest ih =>
    obtain rfl | hline := List.mem_cons.1 hline
    · exact absurd (hread.unique h) hne
    · exact ih hline
  | name h hname rest ih =>
    obtain rfl | hline := List.mem_cons.1 hline
    · obtain rfl := hread.unique h
      exact ⟨hname, List.mem_cons_self⟩
    · exact (ih hline).imp_right (List.mem_cons_of_mem _)

theorem Lists.not_illegal (h : Lists lines names) (hline : line ∈ lines) : ¬ Illegal line name :=
  fun ⟨hread, hne, hname⟩ => hname (h.mem hline hread hne).1

/-- Lines that do not list names have a first illegal one. -/
theorem exists_lists_or_illegal (lines : List String) :
    (∃ names, Lists lines names) ∨
    ∃ before line after listed name, lines = before ++ line :: after ∧ Lists before listed ∧
      Illegal line name := by
  induction lines with
  | nil => exact Or.inl ⟨[], .nil⟩
  | cons line lines ih =>
    obtain hblank | ⟨name, h, hname⟩ | ⟨name, h⟩ := line_cases line
    · obtain ⟨names, hnames⟩ | ⟨before, line', after, listed, name, rfl, hbefore, h⟩ := ih
      · exact Or.inl ⟨names, .blank hblank hnames⟩
      · exact Or.inr ⟨line :: before, line', after, listed, name, rfl, .blank hblank hbefore, h⟩
    · obtain ⟨names, hnames⟩ | ⟨before, line', after, listed, name', rfl, hbefore, h'⟩ := ih
      · exact Or.inl ⟨name :: names, .name h hname hnames⟩
      · exact Or.inr ⟨line :: before, line', after, name :: listed, name', rfl,
          .name h hname hbefore, h'⟩
    · exact Or.inr ⟨[], line, lines, [], name, rfl, .nil, h⟩

theorem namesFrom_illegal {before after listed : List String} (hbefore : Lists before listed)
    (h : Illegal line name) (number : Nat) :
    namesFrom number (before ++ line :: after) =
      .error (.illegalName (number + before.length) name) := by
  rw [hbefore.namesFrom_append, (namesFrom_cons h.1 _ _).2.2 h]
  rfl

theorem namesFrom_eq_ok_iff (number : Nat) :
    namesFrom number lines = .ok names ↔ Lists lines names := by
  refine ⟨fun h => ?_, fun h => h.namesFrom number⟩
  obtain ⟨names', hnames⟩ | ⟨before, line, after, listed, name, rfl, hbefore, hillegal⟩ :=
    exists_lists_or_illegal lines
  · rw [hnames.namesFrom number] at h
    cases h
    exact hnames
  · rw [namesFrom_illegal hbefore hillegal] at h
    cases h

theorem namesFrom_eq_error_iff : namesFrom number lines = .error e ↔
    ∃ i line name, lines[i]? = some line ∧ Illegal line name ∧
      (∀ earlier ∈ lines.take i, ∀ name', ¬ Illegal earlier name') ∧
      e = .illegalName (number + i) name := by
  obtain ⟨names, hnames⟩ | ⟨before, line, after, listed, name, rfl, hbefore, hillegal⟩ :=
    exists_lists_or_illegal lines
  · rw [hnames.namesFrom number]
    refine ⟨nofun, ?_⟩
    rintro ⟨i, line, name, hline, hillegal, -⟩
    exact absurd hillegal (hnames.not_illegal (List.mem_of_getElem? hline))
  · rw [namesFrom_illegal hbefore hillegal]
    constructor
    · intro h
      cases h
      refine ⟨before.length, line, name, by simp, hillegal, ?_, rfl⟩
      intro earlier hearlier name'
      rw [List.take_left] at hearlier
      exact hbefore.not_illegal hearlier
    · rintro ⟨i, line', name', hline, hillegal', hearlier, rfl⟩
      obtain hlt | rfl | hgt := Nat.lt_trichotomy i before.length
      · rw [List.getElem?_append_left hlt] at hline
        exact absurd hillegal' (hbefore.not_illegal (List.mem_of_getElem? hline))
      · obtain rfl : line = line' := by simpa using hline
        rw [hillegal.1.unique hillegal'.1]
      · refine absurd hillegal (hearlier line ?_ name)
        exact List.mem_of_getElem? (i := before.length) (by simp [hgt])

theorem inFirstOrder_iff {listed : List String} :
    InFirstOrder listed names ↔ listed.eraseDups = names :=
  ⟨fun h => (inFirstOrder_eraseDups listed).unique h, fun h => h ▸ inFirstOrder_eraseDups listed⟩

/-- The lines list these names, some of them perhaps more than once. -/
def ListsDistinct (lines names : List String) : Prop :=
  ∃ listed, Lists lines listed ∧ InFirstOrder listed names

theorem parseList_eq_ok_iff :
    parseList text = .ok names ↔ ListsDistinct (Text.lines text) names := by
  simp only [ListsDistinct, ← namesFrom_eq_ok_iff 1, inFirstOrder_iff, parseList]
  cases Extension.namesFrom 1 (Text.lines text) <;> simp [Except.map]

theorem parseList_eq_error_iff :
    parseList text = .error e ↔ namesFrom 1 (Text.lines text) = .error e := by
  rw [parseList]
  cases Extension.namesFrom 1 (Text.lines text) <;> simp [Except.map]

/-! ## Edits -/

theorem lists_append_iff {before after : List String} : Lists (before ++ after) names ↔
    ∃ front back, names = front ++ back ∧ Lists before front ∧ Lists after back := by
  constructor
  · intro h
    induction before generalizing names with
    | nil => exact ⟨[], names, rfl, .nil, h⟩
    | cons line before ih =>
      cases h with
      | blank h rest =>
        obtain ⟨front, back, rfl, hfront, hback⟩ := ih rest
        exact ⟨front, back, rfl, .blank h hfront, hback⟩
      | name h hname rest =>
        obtain ⟨front, back, rfl, hfront, hback⟩ := ih rest
        exact ⟨_ :: front, back, rfl, .name h hname hfront, hback⟩
  · rintro ⟨front, back, rfl, hfront, hback⟩
    induction hfront with
    | nil => exact hback
    | blank h rest ih => exact .blank h ih
    | name h hname rest ih => exact .name h hname ih

theorem lists_cons_blank (h : Says line "") : Lists (line :: lines) names ↔ Lists lines names := by
  refine ⟨fun hlists => ?_, .blank h⟩
  cases hlists with
  | blank _ rest => exact rest
  | name h' hname rest => exact absurd (h'.unique h) hname.ne_empty

theorem lists_cons_name (h : Says line name) (hname : IsQualifiedName name) :
    Lists (line :: lines) names ↔ ∃ rest, names = name :: rest ∧ Lists lines rest := by
  constructor
  · intro hlists
    cases hlists with
    | blank h' rest => exact absurd (h.unique h') hname.ne_empty
    | name h' _ rest => exact ⟨_, by rw [h'.unique h], rest⟩
  · rintro ⟨rest, rfl, hrest⟩
    exact .name h hname hrest

/-- Only what a line says counts. -/
theorem lists_cons_congr {line' : String} (h : content line = content line') :
    Lists (line :: lines) names ↔ Lists (line' :: lines) names := by
  simp only [← namesFrom_eq_ok_iff 1, Extension.namesFrom, h]

theorem says_blank (h : ∀ c ∈ line.toList, isBlank c) : Says line "" :=
  ⟨line.toList, [], [], by simp, h, by simp, by simp, by simp, by simp, by simp⟩

/-- **An edit leaves the names as they are**, and so does taking it back. -/
theorem Edit.listsDistinct_iff (h : Edit lines lines') :
    ListsDistinct lines names ↔ ListsDistinct lines' names := by
  unfold ListsDistinct
  cases h with
  | comment => simp only [lists_append_iff, lists_cons_congr (content_comment _ _)]
  | blankLine h => simp only [lists_append_iff, lists_cons_blank (says_blank h)]
  | @blanks _ _ left name right comment hleft hright hname hcomment =>
    have hblanks := content_blanks hleft hright hname hcomment
    have hnone := @content_blanks name "" "" comment (by simp) (by simp) hname hcomment
    rw [String.empty_append, String.append_empty] at hnone
    simp only [lists_append_iff, lists_cons_congr (hblanks.trans hnone.symm)]
  | @again before after line line' name h hearlier h' =>
    by_cases hne : name = ""
    · subst hne
      simp only [lists_append_iff, lists_cons_blank h]
    -- the earlier line says that it is a name, and lists it before the line
    constructor
    · rintro ⟨listed, hlisted, hnames⟩
      obtain ⟨front, back, rfl, hfront, hback⟩ := lists_append_iff.1 hlisted
      obtain ⟨hname, hmem⟩ := hfront.mem hearlier h' hne
      refine ⟨front ++ name :: back,
        lists_append_iff.2 ⟨front, _, rfl, hfront, .name h hname hback⟩, ?_⟩
      rwa [inFirstOrder_iff, List.eraseDups_append_again hmem, ← inFirstOrder_iff]
    · rintro ⟨listed, hlisted, hnames⟩
      obtain ⟨front, rest, rfl, hfront, hrest⟩ := lists_append_iff.1 hlisted
      obtain ⟨hname, hmem⟩ := hfront.mem hearlier h' hne
      obtain ⟨back, rfl, hback⟩ := (lists_cons_name h hname).1 hrest
      refine ⟨front ++ back, lists_append_iff.2 ⟨front, back, rfl, hfront, hback⟩, ?_⟩
      rwa [inFirstOrder_iff, List.eraseDups_append_again hmem, ← inFirstOrder_iff] at hnames

theorem listsDistinct_iff_of_edits (h : Relation.EqvGen Edit lines lines') :
    ListsDistinct lines names ↔ ListsDistinct lines' names := by
  induction h with
  | rel _ _ h => exact h.listsDistinct_iff
  | refl => exact Iff.rfl
  | symm _ _ _ ih => exact ih.symm
  | trans _ _ _ _ _ ih ih' => exact ih.trans ih'

/-! ## Names listed again -/

theorem not_isBlank_of_isNamePart (h : isNamePart c) : ¬ isBlank c := by
  simp only [isNamePart, Bool.or_eq_true, beq_iff_eq] at h
  obtain (((h | h) | rfl) | rfl) | rfl := h
  · exact Text.not_isBlank_of_isAlphabetic h
  · exact Text.not_isBlank_of_isNumeric h
  all_goals decide

theorem ne_hash_of_isNamePart (h : isNamePart c) : c ≠ '#' := by
  rintro rfl
  revert h
  decide +kernel

theorem IsQualifiedName.isNamePart (h : IsQualifiedName name) :
    ∀ c ∈ name.toList, isNamePart c := by
  obtain ⟨c, cs, hname, hc, hcs⟩ := h
  rw [hname, List.forall_mem_cons]
  refine ⟨?_, fun d hd => ?_⟩
  · simp only [Extension.isNamePart, Bool.or_eq_true, beq_iff_eq]
    tauto
  · have hd := hcs d hd
    simp only [Extension.isNamePart, Bool.or_eq_true, beq_iff_eq]
    tauto

/-- A name alone on a line is on it. -/
theorem IsQualifiedName.says_self (h : IsQualifiedName name) : Says name name := by
  refine ⟨[], [], [], by simp, by simp, by simp, by simp, ?_, ?_, ?_⟩
  · exact fun hmem => ne_hash_of_isNamePart (h.isNamePart _ hmem) rfl
  · exact fun c hc => not_isBlank_of_isNamePart (h.isNamePart c (List.mem_of_mem_head? hc))
  · exact fun c hc => not_isBlank_of_isNamePart (h.isNamePart c (List.mem_of_mem_getLast? hc))

theorem Lists.isQualifiedName (h : Lists lines names) : ∀ name ∈ names, IsQualifiedName name := by
  induction h with
  | nil => simp
  | blank _ _ ih => exact ih
  | name _ hname _ ih => exact List.forall_mem_cons.2 ⟨hname, ih⟩

theorem lists_self (h : ∀ name ∈ names, IsQualifiedName name) : Lists names names := by
  induction names with
  | nil => exact .nil
  | cons name names ih =>
    rw [List.forall_mem_cons] at h
    exact .name h.1.says_self h.1 (ih h.2)

/-- A name stands on a line of its own. -/
def IsQualifiedName.toLine (h : IsQualifiedName name) : Text.Line where
  text := name
  noFeed hmem := not_isBlank_of_isNamePart (h.isNamePart _ hmem) (by decide)
  noReturn hlast :=
    not_isBlank_of_isNamePart (h.isNamePart _ (List.mem_of_mem_getLast? hlast)) (by decide)

/-- Names with a line feed between them are lines of their own. -/
theorem lines_intercalate (h : ∀ name ∈ names, IsQualifiedName name) :
    Text.lines ("\n".intercalate names) = names := by
  induction names with
  | nil => rfl
  | cons name names ih =>
    rw [List.forall_mem_cons] at h
    cases names with
    | nil =>
      have hne : name.toList ≠ [] := by simpa using h.1.ne_empty
      rw [String.intercalate_singleton, Text.lines, Text.linesOf_last hne h.1.toLine.noFeed]
      simp
    | cons name' names =>
      have hline := Text.lines_written (fun _ => .feed) [h.1.toLine]
        ("\n".intercalate (name' :: names))
      rw [ih h.2] at hline
      rw [String.intercalate_cons_cons]
      simpa [Text.written, IsQualifiedName.toLine, Text.LineEnd.text] using hline

theorem inFirstOrder_self (h : names.Nodup) : InFirstOrder names names := by
  refine ⟨fun _ => Iff.rfl, List.pairwise_iff_getElem.2 fun i j hi hj hij => ?_⟩
  rwa [h.idxOf_getElem, h.idxOf_getElem]

theorem ListsDistinct.isQualifiedName (h : ListsDistinct lines names) :
    ∀ name ∈ names, IsQualifiedName name := by
  obtain ⟨listed, hlisted, hnames⟩ := h
  exact fun name hname => hlisted.isQualifiedName name ((hnames.mem_iff name).1 hname)

theorem ListsDistinct.again (h : ListsDistinct lines names) : ListsDistinct names names := by
  have ⟨listed, _, hnames⟩ := h
  have hnodup : names.Nodup := inFirstOrder_iff.1 hnames ▸ List.nodup_eraseDups listed
  exact ⟨names, lists_self h.isQualifiedName, inFirstOrder_self hnodup⟩

theorem exists_parseList_error_iff :
    (∃ e, parseList text = .error e) ↔ ∃ line ∈ Text.lines text, ∃ name, Illegal line name := by
  simp only [parseList_eq_error_iff]
  constructor
  · rintro ⟨e, h⟩
    obtain ⟨i, line, name, hline, hillegal, -⟩ := namesFrom_eq_error_iff.1 h
    exact ⟨line, List.mem_of_getElem? hline, name, hillegal⟩
  · rintro ⟨line, hline, name, hillegal⟩
    cases h : namesFrom 1 (Text.lines text) with
    | error e => exact ⟨e, rfl⟩
    | ok names => exact absurd hillegal (((namesFrom_eq_ok_iff 1).1 h).not_illegal hline)

/-- **A list of filters is read exactly**: it is refused if a line is illegal, with the number
    and the text of the first such line, and otherwise gives the names on its lines, each once and
    in the order in which they come first.  These names, one on each line, are read as they are;
    and a list with the same names, but for comments, blanks and names listed again, gives the same
    ones. -/
theorem extension_list_exact (text : String) :
    ((∃ e, parseList text = .error e) ↔ ∃ line ∈ Text.lines text, ∃ name, Illegal line name) ∧
    (∀ e, parseList text = .error e ↔
      ∃ i line name, (Text.lines text)[i]? = some line ∧ Illegal line name ∧
        (∀ earlier ∈ (Text.lines text).take i, ∀ name', ¬ Illegal earlier name') ∧
        e = .illegalName (i + 1) name) ∧
    (∀ names, parseList text = .ok names ↔
      ∃ listed, Lists (Text.lines text) listed ∧ InFirstOrder listed names) ∧
    ∀ names, parseList text = .ok names →
      parseList ("\n".intercalate names) = .ok names ∧
      ∀ text', Relation.EqvGen Edit (Text.lines text) (Text.lines text') →
        parseList text' = .ok names := by
  refine ⟨exists_parseList_error_iff, fun e => ?_, fun names => parseList_eq_ok_iff, ?_⟩
  · simp only [parseList_eq_error_iff, namesFrom_eq_error_iff, Nat.add_comm 1]
  · intro names h
    have hlists := parseList_eq_ok_iff.1 h
    refine ⟨?_, fun text' hedits => ?_⟩
    · rw [parseList_eq_ok_iff, lines_intercalate hlists.isQualifiedName]
      exact hlists.again
    · exact parseList_eq_ok_iff.2 ((listsDistinct_iff_of_edits hedits).1 hlists)

/-- A list with a comment, a blank line, a tab before a name and a name that comes again. -/
def commentedList : String := "a.B # one\n\n\tc\na.B"

theorem extension_list_exact_commented :
    parseList commentedList = .ok ["a.B", "c"] ∧
    Relation.EqvGen Edit (Text.lines commentedList) (Text.lines "a.B \nc") ∧
    parseList ("\n".intercalate ["a.B", "c"]) = .ok ["a.B", "c"] ∧
    parseList "a.B \nc" = .ok ["a.B", "c"] := by
  have hread : parseList commentedList = .ok ["a.B", "c"] := by decide +kernel
  have hlines : Text.lines commentedList = ["a.B # one", "", "\tc", "a.B"] := by decide +kernel
  have hlines' : Text.lines "a.B \nc" = ["a.B ", "c"] := by decide +kernel
  have htab : ∀ c ∈ "\t".toList, isBlank c := List.forall_mem_singleton.2 (by decide)
  have comment : Edit ["a.B ", "c"] ["a.B # one", "c"] := @Edit.comment [] ["c"] "a.B " " one"
  have blankLine : Edit ["a.B # one", "c"] ["a.B # one", "", "c"] :=
    @Edit.blankLine ["a.B # one"] ["c"] "" (by simp)
  have tab : Edit ["a.B # one", "", "c"] ["a.B # one", "", "\tc"] :=
    @Edit.blanks ["a.B # one", ""] [] "\t" "c" "" "" htab (by simp) (by decide) (by simp)
  have again : Edit ["a.B # one", "", "\tc"] ["a.B # one", "", "\tc", "a.B"] :=
    @Edit.again ["a.B # one", "", "\tc"] [] "a.B" "a.B # one" "a.B"
      (content_eq_iff.1 (by decide)) (by simp) (content_eq_iff.1 (by decide))
  have hedits : Relation.EqvGen Edit (Text.lines commentedList) (Text.lines "a.B \nc") := by
    rw [hlines, hlines']
    exact .symm _ _ (.trans _ _ _ (.rel _ _ comment) (.trans _ _ _ (.rel _ _ blankLine)
      (.trans _ _ _ (.rel _ _ tab) (.rel _ _ again))))
  obtain ⟨hagain, hsame⟩ := (extension_list_exact commentedList).2.2.2 _ hread
  exact ⟨hread, hedits, hagain, hsame _ hedits⟩

end Winnow.Extension
