/-
  Which drafts can be built, and into what.

  A decoder assembles a draft by visits, in whatever order it meets things.

  * `Visit.Names` says which labels a visit refers to, and `Visit.namedInOrder` lists
    them: those of the entries, of the handler table, of the local variable table;
  * `PlacesOnce` and `PlacesAgain` speak of the labels that a list of entries places, and
    `LacksFirst` of the first label in a list that they do not place;
  * `Draft.build_cases` tells the three ways in which building can end.
-/
import Mathlib.Data.List.Induction
import Mathlib.Data.List.Nodup
import Winnow.Method.Draft
import Winnow.Proofs.Navigation

namespace Winnow

/-! ## Visits -/

/-- What a decoder tells a draft. -/
inductive Visit where
  | entry (e : Entry)
  | tryBlock (t : TryBlock)
  | localVariable (v : LocalVariable)
  | access (a : Access)
  | annotated (desc : String) (visible : Bool)
  | attribute (a : Attribute)
  /-- Asks for an unused label. -/
  | newLabel

/-- The entry refers to the label. -/
inductive Entry.Names : Entry → Label → Prop
  | line (number : Nat) (l : Label) : Names (.line number l) l
  | jump (op : Opcode) (l : Label) : Names (.jump op l) l
  | tableDefault (low high : Int) (l : Label) (cases : List Label) :
      Names (.tableSwitch low high l cases) l
  | tableCase (low high : Int) (default : Label) {l : Label} {cases : List Label} (h : l ∈ cases) :
      Names (.tableSwitch low high default cases) l
  | lookupDefault (l : Label) (keys : List Int) (cases : List Label) :
      Names (.lookupSwitch l keys cases) l
  | lookupCase (default : Label) (keys : List Int) {l : Label} {cases : List Label}
      (h : l ∈ cases) : Names (.lookupSwitch default keys cases) l

namespace Visit

/-- The visit refers to the label. -/
inductive Names : Visit → Label → Prop
  | entry {e : Entry} {l : Label} (h : e.Names l) : Names (.entry e) l
  | tryStart (t : TryBlock) : Names (.tryBlock t) t.start
  | tryStop (t : TryBlock) : Names (.tryBlock t) t.stop
  | tryHandler (t : TryBlock) : Names (.tryBlock t) t.handler
  | localStart (v : LocalVariable) : Names (.localVariable v) v.start
  | localStop (v : LocalVariable) : Names (.localVariable v) v.stop

def entry? : Visit → Option Entry
  | entry e => some e
  | _ => none

def tryBlock? : Visit → Option TryBlock
  | tryBlock t => some t
  | _ => none

def localVariable? : Visit → Option LocalVariable
  | localVariable v => some v
  | _ => none

/-- The labels that the visits refer to: first those of the entries, then those of the
    handler table, then those of the local variables. -/
def namedInOrder (vs : List Visit) : List Label :=
  (vs.filterMap entry?).flatMap Entry.mentioned ++
    (vs.filterMap tryBlock?).flatMap (fun t => [t.start, t.stop, t.handler]) ++
    (vs.filterMap localVariable?).flatMap fun v => [v.start, v.stop]

end Visit

variable {e : Entry} {l : Label} {vs : List Visit}

theorem Entry.mem_mentioned : l ∈ e.mentioned ↔ e.Names l := by
  constructor
  · intro h
    cases e with
    | line number start => obtain rfl := List.mem_singleton.1 h; exact .line ..
    | jump op target => obtain rfl := List.mem_singleton.1 h; exact .jump ..
    | tableSwitch low high default cases =>
      rcases List.mem_cons.1 h with rfl | h
      · exact .tableDefault ..
      · exact .tableCase _ _ _ h
    | lookupSwitch default keys cases =>
      rcases List.mem_cons.1 h with rfl | h
      · exact .lookupDefault ..
      · exact .lookupCase _ _ h
    | _ => cases h
  · rintro (_ | _ | _ | ⟨_, _, _, h⟩ | _ | ⟨_, _, h⟩)
    · exact List.mem_singleton_self _
    · exact List.mem_singleton_self _
    · exact List.mem_cons_self
    · exact List.mem_cons_of_mem _ h
    · exact List.mem_cons_self
    · exact List.mem_cons_of_mem _ h

theorem Visit.mem_namedInOrder : l ∈ namedInOrder vs ↔ ∃ v ∈ vs, v.Names l := by
  simp only [namedInOrder, List.mem_append, List.mem_flatMap, List.mem_filterMap]
  constructor
  · rintro ((⟨e, ⟨v, hv, he⟩, hl⟩ | ⟨t, ⟨v, hv, ht⟩, hl⟩) | ⟨x, ⟨v, hv, hx⟩, hl⟩)
    · cases v <;> cases he
      exact ⟨_, hv, .entry (Entry.mem_mentioned.1 hl)⟩
    · cases v <;> cases ht
      simp only [List.mem_cons, List.not_mem_nil, or_false] at hl
      rcases hl with rfl | rfl | rfl
      · exact ⟨_, hv, .tryStart t⟩
      · exact ⟨_, hv, .tryStop t⟩
      · exact ⟨_, hv, .tryHandler t⟩
    · cases v <;> cases hx
      simp only [List.mem_cons, List.not_mem_nil, or_false] at hl
      rcases hl with rfl | rfl
      · exact ⟨_, hv, .localStart x⟩
      · exact ⟨_, hv, .localStop x⟩
  · rintro ⟨v, hv, hl⟩
    cases hl with
    | @entry e _ h => exact Or.inl (Or.inl ⟨e, ⟨_, hv, rfl⟩, Entry.mem_mentioned.2 h⟩)
    | tryStart t => exact Or.inl (Or.inr ⟨t, ⟨_, hv, rfl⟩, by simp⟩)
    | tryStop t => exact Or.inl (Or.inr ⟨t, ⟨_, hv, rfl⟩, by simp⟩)
    | tryHandler t => exact Or.inl (Or.inr ⟨t, ⟨_, hv, rfl⟩, by simp⟩)
    | localStart x => exact Or.inr ⟨x, ⟨_, hv, rfl⟩, by simp⟩
    | localStop x => exact Or.inr ⟨x, ⟨_, hv, rfl⟩, by simp⟩

/-! ## Assembly -/

namespace Draft

/-- The draft after a visit. -/
def visit (d : Draft) : Visit → Draft
  | .entry e => d.push e
  | .tryBlock t => d.addTry t
  | .localVariable v => d.addLocal v
  | .access a => d.setAccess a
  | .annotated desc visible => d.addAnnotation desc visible
  | .attribute a => d.addAttribute a
  | .newLabel => d.newLabel.2

/-- The draft of a method after all visits. -/
def ofVisits (name desc : String) (vs : List Visit) : Draft :=
  vs.foldl visit { name, desc }

/-- The draft holds what the visits told, in their order. -/
structure Assembled (name desc : String) (vs : List Visit) (d : Draft) : Prop where
  name_eq : d.name = name
  desc_eq : d.desc = desc
  code_eq : d.code.toList = vs.filterMap Visit.entry?
  tries_eq : d.tries = vs.filterMap Visit.tryBlock?
  locals_eq : d.locals = vs.filterMap Visit.localVariable?

variable {name desc : String} {d : Draft}

theorem Assembled.visit (h : Assembled name desc vs d) (v : Visit) :
    Assembled name desc (vs ++ [v]) (d.visit v) := by
  obtain ⟨hname, hdesc, hcode, htries, hlocals⟩ := h
  have hskip : ∀ {α : Type} {part : Visit → Option α}, part v = none →
      (vs ++ [v]).filterMap part = vs.filterMap part := by
    intro α part hpart
    rw [List.filterMap_append, List.filterMap_cons_none hpart, List.filterMap_nil, List.append_nil]
  cases v with
  | entry e =>
    refine ⟨hname, hdesc, ?_, htries.trans (hskip rfl).symm, hlocals.trans (hskip rfl).symm⟩
    simp [Draft.visit, push, hcode, Visit.entry?]
  | tryBlock t =>
    refine ⟨hname, hdesc, hcode.trans (hskip rfl).symm, ?_, hlocals.trans (hskip rfl).symm⟩
    simp [Draft.visit, addTry, htries, Visit.tryBlock?]
  | localVariable x =>
    refine ⟨hname, hdesc, hcode.trans (hskip rfl).symm, htries.trans (hskip rfl).symm, ?_⟩
    simp [Draft.visit, addLocal, hlocals, Visit.localVariable?]
  | annotated _ visible =>
    cases visible <;>
      exact ⟨hname, hdesc, hcode.trans (hskip rfl).symm, htries.trans (hskip rfl).symm,
        hlocals.trans (hskip rfl).symm⟩
  | _ =>
    exact ⟨hname, hdesc, hcode.trans (hskip rfl).symm, htries.trans (hskip rfl).symm,
      hlocals.trans (hskip rfl).symm⟩

theorem assembled_ofVisits (name desc : String) (vs : List Visit) :
    Assembled name desc vs (ofVisits name desc vs) := by
  induction vs using List.reverseRecOn with
  | nil => exact ⟨rfl, rfl, rfl, rfl, rfl⟩
  | append_singleton vs v ih =>
    rw [ofVisits, List.foldl_append]
    exact ih.visit v

theorem Assembled.mentioned_eq (h : Assembled name desc vs d) :
    d.mentioned = Visit.namedInOrder vs := by
  rw [Body.mentioned, h.code_eq, h.tries_eq, h.locals_eq, Visit.namedInOrder]

end Draft

/-! ## Labels placed again and labels not placed -/

/-- The entries place no label twice. -/
def PlacesOnce (es : List Entry) : Prop :=
  ∀ l, es.count (.label l) ≤ 1

/-- `l` is the first label that the entries place again: up to its second placement, no
    label is placed twice. -/
def PlacesAgain (es : List Entry) (l : Label) : Prop :=
  ∃ before after, es = before ++ .label l :: after ∧ .label l ∈ before ∧ PlacesOnce before

/-- `l` is the first label of the list that the entries do not place. -/
def LacksFirst (es : List Entry) (named : List Label) (l : Label) : Prop :=
  ∃ before after, named = before ++ l :: after ∧ (∀ x ∈ before, .label x ∈ es) ∧ .label l ∉ es

theorem PlacesAgain.not_once {es : List Entry} (h : PlacesAgain es l) : ¬ PlacesOnce es := by
  obtain ⟨before, after, rfl, hmem, -⟩ := h
  intro honce
  have hfirst := List.count_pos_iff.2 hmem
  have := honce l
  rw [List.count_append, List.count_cons_self] at this
  omega

theorem PlacesOnce.append_label {es : List Entry} (h : PlacesOnce es) (hl : .label l ∉ es) :
    PlacesOnce (es ++ [.label l]) := by
  intro x
  rw [List.count_append, List.count_singleton]
  split
  · next heq =>
    cases beq_iff_eq.1 heq
    exact Nat.le_of_eq (by rw [List.count_eq_zero.2 hl])
  · exact h x

theorem PlacesOnce.append_other {es : List Entry} (h : PlacesOnce es) (he : e.placed? = none) :
    PlacesOnce (es ++ [e]) := by
  intro x
  have hne : (e == .label x) = false := beq_false_of_ne (by rintro rfl; cases he)
  rw [List.count_append, List.count_singleton, hne]
  exact h x

namespace Draft

/-- The search for a repetition.  Its invariant: the labels seen are those that the entries
    passed place, each once. -/
theorem firstRepeated?_cases (seen : List Label) (passed es : List Entry)
    (hseen : ∀ x, x ∈ seen ↔ .label x ∈ passed) (honce : PlacesOnce passed) :
    (∃ l, firstRepeated? seen (es.filterMap Entry.placed?) = some l ∧
      PlacesAgain (passed ++ es) l) ∨
    (firstRepeated? seen (es.filterMap Entry.placed?) = none ∧ PlacesOnce (passed ++ es)) := by
  induction es generalizing seen passed with
  | nil => exact Or.inr ⟨rfl, by rwa [List.append_nil]⟩
  | cons e es ih =>
    rw [List.append_cons]
    cases he : e.placed? with
    | none =>
      rw [List.filterMap_cons_none he]
      refine ih _ _ (fun x => ?_) (honce.append_other he)
      rw [hseen x, List.mem_append, List.mem_singleton]
      exact ⟨Or.inl, fun h => h.resolve_right (by rintro rfl; cases he)⟩
    | some l =>
      obtain rfl := Method.placed?_eq_some_iff.1 he
      rw [List.filterMap_cons_some he]
      by_cases hl : l ∈ seen
      · refine Or.inl ⟨l, by simp [firstRepeated?, hl], passed, es, ?_, (hseen l).1 hl, honce⟩
        rw [List.append_assoc]; rfl
      · simp only [firstRepeated?, hl, ↓reduceIte]
        refine ih _ _ (fun x => ?_) (honce.append_label fun h => hl ((hseen l).2 h))
        simp [hseen x, or_comm]

theorem firstMissing?_cases (es : List Entry) (named : List Label) :
    (∃ l, firstMissing? (es.filterMap Entry.placed?) named = some l ∧ LacksFirst es named l) ∨
    (firstMissing? (es.filterMap Entry.placed?) named = none ∧ ∀ l ∈ named, .label l ∈ es) := by
  have hplaced : ∀ x, x ∈ es.filterMap Entry.placed? ↔ .label x ∈ es := by
    intro x
    simp [Method.placed?_eq_some_iff]
  cases h : firstMissing? (es.filterMap Entry.placed?) named with
  | none => exact Or.inr ⟨rfl, fun l hl => (hplaced l).1 (mem_of_firstMissing? h l hl)⟩
  | some l =>
    obtain ⟨hl, before, after, hnamed, hbefore⟩ := List.find?_eq_some_iff_append.1 h
    refine Or.inl ⟨l, rfl, before, after, hnamed, fun x hx => ?_, fun hmem => ?_⟩
    · exact (hplaced x).1 (by simpa using hbefore x hx)
    · exact absurd ((hplaced l).2 hmem) (by simpa using hl)

/-- How building ends: a label is placed again, or a label is not placed, or the labels are
    consistent and the method has the body of the draft. -/
theorem build_cases (d : Draft) :
    (∃ l, d.build = .error (.placedTwice l d.name d.desc) ∧ PlacesAgain d.code.toList l) ∨
    (∃ l, d.build = .error (.neverPlaced l d.name d.desc) ∧ PlacesOnce d.code.toList ∧
      LacksFirst d.code.toList d.mentioned l) ∨
    (∃ m, d.build = .ok m ∧ m.toBody = d.toBody ∧ PlacesOnce d.code.toList ∧
      ∀ l ∈ d.mentioned, .label l ∈ d.code.toList) := by
  have hrepeated := firstRepeated?_cases [] [] d.code.toList (by simp) fun _ => Nat.zero_le _
  have hmissing := firstMissing?_cases d.code.toList d.mentioned
  rw [List.nil_append] at hrepeated
  unfold build
  rcases hrepeated with ⟨l, hr, hagain⟩ | ⟨hr, honce⟩
  · refine Or.inl ⟨l, ?_, hagain⟩
    split
    · next l' hl' => cases hr.symm.trans hl'; rfl
    · next hnone => cases hr.symm.trans hnone
  · rcases hmissing with ⟨l, hm, hlacks⟩ | ⟨hm, hall⟩
    · refine Or.inr (Or.inl ⟨l, ?_, honce, hlacks⟩)
      split
      · next l' hl' => cases hr.symm.trans hl'
      · split
        · next l' hl' => cases hm.symm.trans hl'; rfl
        · next hnone => cases hm.symm.trans hnone
    · refine Or.inr (Or.inr ?_)
      split
      · next l' hl' => cases hr.symm.trans hl'
      · split
        · next l' hl' => cases hm.symm.trans hl'
        · exact ⟨_, rfl, rfl, honce, hall⟩

/-- **Building accepts exactly the consistent drafts and indexes them exactly.**  Whatever
    the visits and their order, the draft can be built iff no label is placed twice and
    every label that a visit names is placed.  The method then has the visited entries and
    table rows, and a label resolves to the one position where it is placed; so every label
    that is named resolves to a position of the method.  Otherwise the error names the
    label whose second placement comes first, or else the first label, in the order of
    entries, handlers and local variables, that is not placed. -/
theorem build_ofVisits (name desc : String) (vs : List Visit) :
    let entries := vs.filterMap Visit.entry?
    let result := (ofVisits name desc vs).build
    ((∃ m, result = .ok m) ↔
      PlacesOnce entries ∧ ∀ v ∈ vs, ∀ l, v.Names l → .label l ∈ entries) ∧
    (∀ m, result = .ok m →
      m.code.toList = entries ∧ m.tries = vs.filterMap Visit.tryBlock? ∧
        m.locals = vs.filterMap Visit.localVariable? ∧
        (∀ l p, m.resolve? l = some p ↔ m.code[p]? = some (.label l)) ∧
        ∀ v ∈ vs, ∀ l, v.Names l → ∃ p, m.resolve? l = some p ∧ p < m.size) ∧
    (∀ err, result = .error err →
      (∃ l, PlacesAgain entries l ∧ err = .placedTwice l name desc) ∨
        (PlacesOnce entries ∧ ∃ l, LacksFirst entries (Visit.namedInOrder vs) l ∧
          err = .neverPlaced l name desc)) := by
  intro entries result
  have hd := assembled_ofVisits name desc vs
  have hcases := build_cases (ofVisits name desc vs)
  rw [hd.name_eq, hd.desc_eq, hd.code_eq, hd.mentioned_eq] at hcases
  have hnames : ∀ l, (∃ v ∈ vs, v.Names l) ↔ l ∈ Visit.namedInOrder vs :=
    fun l => Visit.mem_namedInOrder.symm
  rcases hcases with ⟨l, hresult, hagain⟩ | ⟨l, hresult, honce, hlacks⟩ |
    ⟨m, hresult, hbody, honce, hplaced⟩
  · refine ⟨iff_of_false ?_ fun h => hagain.not_once h.1, fun m hm => ?_, fun err herr => ?_⟩
    · rintro ⟨m, hm⟩; cases hresult.symm.trans hm
    · cases hresult.symm.trans hm
    · cases hresult.symm.trans herr
      exact Or.inl ⟨l, hagain, rfl⟩
  · refine ⟨iff_of_false ?_ fun h => ?_, fun m hm => ?_, fun err herr => ?_⟩
    · rintro ⟨m, hm⟩; cases hresult.symm.trans hm
    · obtain ⟨before, after, hnamed, -, hmissing⟩ := hlacks
      obtain ⟨v, hv, hl⟩ := (hnames l).2 (by rw [hnamed]; simp)
      exact hmissing (h.2 v hv l hl)
    · cases hresult.symm.trans hm
    · cases hresult.symm.trans herr
      exact Or.inr ⟨honce, l, hlacks, rfl⟩
  · refine ⟨iff_of_true ⟨m, hresult⟩ ⟨honce, fun v hv l hl => ?_⟩, fun m' hm' => ?_,
      fun err herr => ?_⟩
    · exact hplaced l ((hnames l).1 ⟨v, hv, hl⟩)
    · cases hresult.symm.trans hm'
      refine ⟨by rw [hbody, hd.code_eq], by rw [hbody, hd.tries_eq], by rw [hbody, hd.locals_eq],
        fun l p => Method.resolve?_eq_some_iff, fun v hv l hl => Method.exists_resolve? ?_⟩
      rw [hbody, hd.mentioned_eq]
      exact (hnames l).1 ⟨v, hv, hl⟩
    · cases hresult.symm.trans herr

/-- A loop with a handler.  The rows of its tables come before and between the entries. -/
def loopVisits : List Visit :=
  [.tryBlock ⟨⟨0⟩, ⟨1⟩, ⟨2⟩, none⟩, .entry (.label ⟨0⟩), .entry (.line 7 ⟨0⟩), .newLabel,
    .localVariable ⟨"i", "I", ⟨0⟩, ⟨2⟩, 1⟩, .entry (.jump .goto ⟨0⟩), .entry (.label ⟨1⟩),
    .entry (.tableSwitch 0 1 ⟨2⟩ [⟨0⟩, ⟨1⟩]), .entry (.label ⟨2⟩), .entry (.plain .vreturn)]

/-- The loop, followed by a jump to a label that is never placed and by two labels placed
    again. -/
def brokenVisits : List Visit :=
  loopVisits ++ [.entry (.jump .goto ⟨9⟩), .entry (.label ⟨2⟩), .entry (.label ⟨0⟩)]

/-- The loop can be built.  With the additions it cannot, and the label placed again first
    is named. -/
theorem build_ofVisits_loop :
    (∃ m, (ofVisits "m" "()V" loopVisits).build = .ok m ∧ m.resolve? ⟨1⟩ = some 3) ∧
    (ofVisits "m" "()V" brokenVisits).build = .error (.placedTwice ⟨2⟩ "m" "()V") ∧
    PlacesAgain (brokenVisits.filterMap Visit.entry?) ⟨2⟩ := by
  obtain ⟨hok, hm, -⟩ := build_ofVisits "m" "()V" loopVisits
  have honce : PlacesOnce (loopVisits.filterMap Visit.entry?) :=
    fun l => List.nodup_iff_count_le_one.1 (by decide) _
  have hplaced : ∀ l ∈ Visit.namedInOrder loopVisits,
      .label l ∈ loopVisits.filterMap Visit.entry? := by decide
  obtain ⟨m, hbuilt⟩ := hok.2
    ⟨honce, fun v hv l hl => hplaced l (Visit.mem_namedInOrder.2 ⟨v, hv, hl⟩)⟩
  refine ⟨⟨m, hbuilt, ?_⟩, ?_⟩
  · obtain ⟨hcode, -, -, hresolve, -⟩ := hm m hbuilt
    rw [hresolve, ← Array.getElem?_toList, hcode]
    rfl
  · have herr : (ofVisits "m" "()V" brokenVisits).build =
        .error (.placedTwice ⟨2⟩ "m" "()V") := rfl
    rcases (build_ofVisits "m" "()V" brokenVisits).2.2 _ herr with ⟨l, hagain, hl⟩ | ⟨-, l, -, hl⟩
    · cases hl
      exact ⟨herr, hagain⟩
    · cases hl

end Draft

end Winnow
