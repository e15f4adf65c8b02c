/-
  The ends of straight-line runs.

  * `Method.SplitsAt`, `Method.ExitsAt` and `Method.JoinsAt` say what stands at a position
    where a run ends, without a look at the order in which the ways to a label are found;
  * `LabelFlow.Records` says what the flags of a label mean.  Each arrival that is noted adds
    to one side of it, whatever was noted before;
  * `FlowScan.Passed` is the invariant of the walk over the entries: `passed_step` keeps it for
    one entry, `passed_foldl` for all;
  * hence the boundaries are the positions that split, exit or join.
-/
import Winnow.Proofs.Branches
import Winnow.Proofs.Sorted

namespace Winnow

/-! ## What ends a run -/

/-- The entry is a jump to the label, or a switch with the label. -/
def Entry.GoesTo (e : Entry) (l : Label) : Prop :=
  e.jump? = some l ∨ ∃ default cases, e.switch? = some (default, cases) ∧ l ∈ default :: cases

namespace Method

/-- The entry is a jump, or its opcode is that of a switch. -/
def SplitsAt (m : Method) (pos : Nat) : Prop :=
  ∃ e, m.code[pos]? = some e ∧
    ((∃ op l, e = .jump op l) ∨ e.opcode? = some .tableSwitch ∨ e.opcode? = some .lookupSwitch)

/-- The flow does not split at the entry, and its opcode is a return or a throw. -/
def ExitsAt (m : Method) (pos : Nat) : Prop :=
  ¬ m.SplitsAt pos ∧ ∃ op, m.opcode? pos = some op ∧ (op.isReturn ∨ op = .athrow)

/-- Control falls into the position: no real instruction stands before it, or the closest one
    does not end the flow. -/
def FallsInto (m : Method) (pos : Nat) : Prop :=
  m.realBefore? pos = none ∨
    ∃ q op, m.realBefore? pos = some q ∧ m.opcode? q = some op ∧ op.endsFlow = false

/-- A row of the handler table starts at the label or handles exceptions there. -/
def InHandlerTable (m : Method) (l : Label) : Prop :=
  ∃ t ∈ m.tries, t.start = l ∨ t.handler = l

/-- Control falls into a label that has another way in: an entry that goes to it, the handler
    table, or the start of the method. -/
def JoinsAt (m : Method) (pos : Nat) : Prop :=
  ∃ l, m.code[pos]? = some (.label l) ∧ m.FallsInto pos ∧
    ((∃ (q : Nat) (e : Entry), m.code[q]? = some e ∧ e.GoesTo l) ∨ m.InHandlerTable l ∨
      m.realBefore? pos = none)

end Method

variable {m : Method} {e : Entry} {l l' : Label} {n pos : Nat} {op : Opcode}

theorem Opcode.isExit_iff : op.isExit ↔ op.isReturn ∨ op = .athrow := by
  simp [isExit]

theorem Entry.mem_targets_iff : l ∈ e.targets ↔ e.GoesTo l := by
  cases e <;> simp [targets, GoesTo, jump?, switch?, eq_comm]

/-! ## The flags of a label -/

namespace LabelFlow

variable {f : LabelFlow} {falls falls' other other' : Prop}

/-- The flags of a label that control falls into if `falls`, and that has another way in if
    `other`.  Another way that is noted after the fall-through shows in `several` only. -/
structure Records (f : LabelFlow) (falls other : Prop) : Prop where
  fallThrough : f.fallThrough ↔ falls
  other : f.transfer ∨ f.several ↔ other
  several : f.fallThrough → f.transfer → f.several

theorem records_empty : Records {} False False :=
  ⟨by simp, by simp, by simp⟩

theorem Records.congr (h : f.Records falls other) (hfalls : falls ↔ falls')
    (hother : other ↔ other') : f.Records falls' other' :=
  ⟨h.fallThrough.trans hfalls, h.other.trans hother, h.several⟩

theorem Records.note_fallThrough (h : f.Records falls other) :
    (f.note .fallThrough).Records True other := by
  refine ⟨by simp [note], ?_, fun _ htransfer => ?_⟩
  · rw [← h.other, note, Bool.or_eq_true]
    exact ⟨fun h => h.elim Or.inl (·.symm), Or.imp_right Or.inl⟩
  · rw [note, Bool.or_eq_true]
    exact Or.inr htransfer

theorem Records.note_transfer (h : f.Records falls other) :
    (f.note .transfer).Records falls True := by
  rw [note]
  split
  · exact ⟨h.fallThrough, by simp, by simp⟩
  · next hfirst =>
    simp only [Bool.or_eq_true, not_or, Bool.not_eq_true] at hfirst
    exact ⟨h.fallThrough, by simp, by simp [hfirst.2]⟩

theorem Records.isJoin_iff (h : f.Records falls other) : f.isJoin ↔ falls ∧ other := by
  rw [isJoin, Bool.and_eq_true, ← h.fallThrough, ← h.other]
  refine and_congr_right fun hfalls => ⟨Or.inr, ?_⟩
  rintro (ht | hs)
  · exact h.several hfalls ht
  · exact hs

end LabelFlow

/-! ## The flags of all labels -/

namespace Flows

variable {fs : Flows} {a : Arrival} {falls other : Label → Prop}

theorem arrivals_note :
    (fs.note a l).arrivals l' = if l' = l then (fs.arrivals l').note a else fs.arrivals l' := by
  obtain ⟨rows⟩ := fs
  simp only [note, arrivals]
  induction rows with
  | nil =>
    rw [noteIn]
    by_cases h : l' = l
    · rw [h, if_pos rfl, List.lookup_cons_self]
      rfl
    · rw [if_neg h, List.lookup_cons_of_ne h]
  | cons row rows ih =>
    obtain ⟨key, flow⟩ := row
    rw [noteIn]
    by_cases hkey : key = l
    · subst hkey
      rw [if_pos rfl]
      by_cases h : l' = key
      · rw [h, if_pos rfl, List.lookup_cons_self, List.lookup_cons_self]
        rfl
      · rw [if_neg h, List.lookup_cons_of_ne h, List.lookup_cons_of_ne h]
    · rw [if_neg hkey]
      by_cases h : l' = key
      · rw [if_neg (h ▸ hkey), h, List.lookup_cons_self, List.lookup_cons_self]
      · rw [List.lookup_cons_of_ne h, List.lookup_cons_of_ne h, ih]

/-- A label can only be a join. -/
theorem boundaryKind?_label :
    fs.boundaryKind? (.label l) = if (fs.arrivals l).isJoin then some .atJoin else none :=
  rfl

/-- A real instruction can only be a jump or an exit. -/
theorem boundaryKind?_of_opcode (ho : e.opcode? = some op) :
    fs.boundaryKind? e =
      if e.jump?.isSome || op.isSwitch then some .beforeJump
      else if op.isExit then some .beforeExit
      else none := by
  have hp : e.placed? = none := by cases e <;> simp [Entry.opcode?, Entry.placed?] at ho ⊢
  simp only [boundaryKind?, hp, ho]

/-- What has a boundary is a label or a real instruction. -/
theorem boundaryKind?_cases {kind : BoundaryKind} (h : fs.boundaryKind? e = some kind) :
    (∃ l, e = .label l) ∨ ∃ op, e.opcode? = some op := by
  cases hp : e.placed? with
  | some l => exact Or.inl ⟨l, Method.placed?_eq_some_iff.1 hp⟩
  | none =>
    cases ho : e.opcode? with
    | none => simp [boundaryKind?, hp, ho] at h
    | some op => exact Or.inr ⟨op, rfl⟩

/-- What the flags of all labels record. -/
def Records (fs : Flows) (falls other : Label → Prop) : Prop :=
  ∀ l, (fs.arrivals l).Records (falls l) (other l)

/-- Noting an arrival at a label, or not, changes the record of that label only. -/
theorem Records.note_if {falls' other' : Label → Prop} {b : Bool} (h : fs.Records falls other)
    (hl : b → ((fs.arrivals l).note a).Records (falls' l) (other' l))
    (hkeep : ∀ l', ¬ (b ∧ l' = l) → (falls l' ↔ falls' l') ∧ (other l' ↔ other' l')) :
    (if b then fs.note a l else fs).Records falls' other' := by
  intro l'
  by_cases hnoted : b ∧ l' = l
  · obtain ⟨hb, rfl⟩ := hnoted
    rw [if_pos hb, arrivals_note, if_pos rfl]
    exact hl hb
  · have hsame : (if b then fs.note a l else fs).arrivals l' = fs.arrivals l' := by
      split
      · next hb => rw [arrivals_note, if_neg fun heq => hnoted ⟨hb, heq⟩]
      · rfl
    rw [hsame]
    exact (h l').congr (hkeep l' hnoted).1 (hkeep l' hnoted).2

theorem Records.note_fallThrough (h : fs.Records falls other) (l : Label) (b : Bool) :
    (if b then fs.note .fallThrough l else fs).Records (fun l' => falls l' ∨ b ∧ l' = l) other :=
  h.note_if (fun hb => (h l).note_fallThrough.congr (by simp [hb]) Iff.rfl)
    fun l' hno => ⟨(or_iff_left hno).symm, Iff.rfl⟩

theorem Records.note_transfer (h : fs.Records falls other) (l : Label) (b : Bool) :
    (if b then fs.note .transfer l else fs).Records falls (fun l' => other l' ∨ b ∧ l' = l) :=
  h.note_if (fun hb => (h l).note_transfer.congr Iff.rfl (by simp [hb]))
    fun l' hno => ⟨Iff.rfl, (or_iff_left hno).symm⟩

theorem Records.noteAll_transfer (h : fs.Records falls other) (ls : List Label) :
    (fs.noteAll .transfer ls).Records falls (fun l => other l ∨ l ∈ ls) := by
  induction ls generalizing fs other with
  | nil => exact fun l => (h l).congr Iff.rfl (by simp)
  | cons l ls ih =>
    exact fun l' => (ih (h.note_transfer l true) l').congr Iff.rfl (by simp [or_assoc])

end Flows

/-! ## The walk over the entries -/

namespace Method

/-- Control falls into the label, which stands before position `n`. -/
def FallsBelow (m : Method) (n : Nat) (l : Label) : Prop :=
  ∃ q < n, m.code[q]? = some (.label l) ∧ m.FallsInto q

/-- Entries before position `n`, or the handler table, show another way to the label. -/
def ArrivesBelow (m : Method) (n : Nat) (l : Label) : Prop :=
  m.InHandlerTable l ∨
    ∃ q < n, ∃ e, m.code[q]? = some e ∧ (e.GoesTo l ∨ e = .label l ∧ m.realBefore? q = none)

theorem fallsBelow_succ (he : m.code[n]? = some e) :
    m.FallsBelow (n + 1) l ↔ m.FallsBelow n l ∨ e = .label l ∧ m.FallsInto n := by
  simp only [FallsBelow, Nat.exists_lt_succ_right, he, Option.some.injEq]

theorem arrivesBelow_succ (he : m.code[n]? = some e) :
    m.ArrivesBelow (n + 1) l ↔
      m.ArrivesBelow n l ∨ e.GoesTo l ∨ e = .label l ∧ m.realBefore? n = none := by
  simp only [ArrivesBelow, Nat.exists_lt_succ_right, he, Option.some.injEq, exists_eq_left',
    or_assoc]

theorem realBefore?_succ_of_not_real (he : m.code[n]? = some e) (ho : e.opcode? = none) :
    m.realBefore? (n + 1) = m.realBefore? n := by
  rw [realBefore?_succ (lt_size_of_entry he), if_neg]
  simp [isReal, opcode?_of_entry he, ho]

theorem realBefore?_succ_of_real (he : m.code[n]? = some e) (ho : e.opcode? = some op) :
    m.realBefore? (n + 1) = some n := by
  rw [realBefore?_succ (lt_size_of_entry he), if_pos (isReal_of_opcode he ho)]

/-- Control falls through an entry without an opcode. -/
theorem fallsInto_succ_of_not_real (he : m.code[n]? = some e) (ho : e.opcode? = none) :
    m.FallsInto (n + 1) ↔ m.FallsInto n := by
  simp only [FallsInto, realBefore?_succ_of_not_real he ho]

theorem fallsInto_succ_of_real (he : m.code[n]? = some e) (ho : e.opcode? = some op) :
    m.FallsInto (n + 1) ↔ op.endsFlow = false := by
  simp [FallsInto, realBefore?_succ_of_real he ho, opcode?_of_entry he, ho]

end Method

namespace FlowScan

variable {s : FlowScan} {es : List Entry}

/-- The walk has passed the entries before position `n`. -/
structure Passed (m : Method) (n : Nat) (s : FlowScan) : Prop where
  start : s.start ↔ m.realBefore? n = none
  falls : s.falls ↔ m.FallsInto n
  flows : s.flows.Records (m.FallsBelow n) (m.ArrivesBelow n)

theorem passed_label (h : s.Passed m n) (he : m.code[n]? = some (.label l)) :
    (s.step (.label l)).Passed m (n + 1) := by
  refine ⟨?_, ?_, fun l' => ?_⟩
  · exact h.start.trans (by rw [Method.realBefore?_succ_of_not_real he rfl])
  · exact h.falls.trans (Method.fallsInto_succ_of_not_real he rfl).symm
  · have hflows := (h.flows.note_transfer l s.start).note_fallThrough l s.falls l'
    refine hflows.congr ?_ ?_
    · rw [Method.fallsBelow_succ he, h.falls, Entry.label.injEq, and_comm, eq_comm]
    · rw [Method.arrivesBelow_succ he, h.start, Entry.label.injEq, and_comm, eq_comm]
      simp [Entry.GoesTo, Entry.jump?, Entry.switch?]

theorem passed_pseudo (h : s.Passed m n) (he : m.code[n]? = some e) (hp : e.placed? = none)
    (ho : e.opcode? = none) : (s.step e).Passed m (n + 1) := by
  have hlabel : ∀ l, e ≠ .label l := fun l heq => by simp [heq, Entry.placed?] at hp
  have hgoes : ∀ l, ¬ e.GoesTo l := by
    cases e <;> simp [Entry.GoesTo, Entry.jump?, Entry.switch?, Entry.opcode?] at ho ⊢
  have hstep : s.step e = s := by simp only [step, hp, ho]
  rw [hstep]
  refine ⟨?_, ?_, fun l => (h.flows l).congr ?_ ?_⟩
  · exact h.start.trans (by rw [Method.realBefore?_succ_of_not_real he ho])
  · exact h.falls.trans (Method.fallsInto_succ_of_not_real he ho).symm
  · simp [Method.fallsBelow_succ he, hlabel l]
  · simp [Method.arrivesBelow_succ he, hlabel l, hgoes l]

theorem passed_real (h : s.Passed m n) (he : m.code[n]? = some e) (hp : e.placed? = none)
    (ho : e.opcode? = some op) : (s.step e).Passed m (n + 1) := by
  have hlabel : ∀ l, e ≠ .label l := fun l heq => by simp [heq, Entry.placed?] at hp
  have hstep : s.step e = ⟨s.flows.noteAll .transfer e.targets, !op.endsFlow, false⟩ := by
    simp only [step, hp, ho]
  rw [hstep]
  refine ⟨?_, ?_, fun l => (h.flows.noteAll_transfer e.targets l).congr ?_ ?_⟩
  · simp [Method.realBefore?_succ_of_real he ho]
  · simp [Method.fallsInto_succ_of_real he ho]
  · simp [Method.fallsBelow_succ he, hlabel l]
  · simp [Method.arrivesBelow_succ he, hlabel l, Entry.mem_targets_iff]

/-- One entry keeps the invariant. -/
theorem passed_step (h : s.Passed m n) (he : m.code[n]? = some e) :
    (s.step e).Passed m (n + 1) := by
  cases hp : e.placed? with
  | some l =>
    obtain rfl := Method.placed?_eq_some_iff.1 hp
    exact passed_label h he
  | none =>
    cases ho : e.opcode? with
    | none => exact passed_pseudo h he hp ho
    | some op => exact passed_real h he hp ho

/-- The invariant holds after all entries. -/
theorem passed_foldl (h : s.Passed m n) (hes : m.code.toList.drop n = es) :
    (es.foldl step s).Passed m (n + es.length) := by
  induction es generalizing s n with
  | nil => exact h
  | cons e es ih =>
    obtain ⟨he, hes⟩ := Method.entry_of_drop hes
    rw [List.length_cons, Nat.add_comm es.length, ← Nat.add_assoc]
    exact ih (passed_step h he) hes

end FlowScan

namespace Method

/-! ## Boundaries -/

theorem records_labelFlows (m : Method) :
    m.labelFlows.Records (m.FallsBelow m.size) (m.ArrivesBelow m.size) := by
  have hempty : ({} : Flows).Records (fun _ => False) (fun _ => False) :=
    fun _ => LabelFlow.records_empty
  have hhandled := hempty.noteAll_transfer (m.tries.flatMap fun t => [t.start, t.handler])
  have hstart : FlowScan.Passed m 0
      ⟨({} : Flows).noteAll .transfer (m.tries.flatMap fun t => [t.start, t.handler]), true, true⟩ := by
    refine ⟨by simp [realBefore?, lastWhere], ?_, fun l => (hhandled l).congr ?_ ?_⟩
    · simp [FallsInto, realBefore?, lastWhere]
    · simp [FallsBelow]
    · simp [ArrivesBelow, InHandlerTable, eq_comm]
  have hpassed := FlowScan.passed_foldl hstart List.drop_zero
  rw [Nat.zero_add, Array.length_toList] at hpassed
  exact hpassed.flows

/-- A label is a join iff it joins at its place. -/
theorem isJoin_iff (he : m.code[pos]? = some (.label l)) :
    (m.labelFlows.arrivals l).isJoin ↔ m.JoinsAt pos := by
  rw [(m.records_labelFlows l).isJoin_iff]
  constructor
  · rintro ⟨⟨q, -, hq, hfalls⟩, hother⟩
    obtain rfl := place_unique hq he
    refine ⟨l, he, hfalls, ?_⟩
    rcases hother with hhandler | ⟨q', -, e, hq', hgoes | ⟨rfl, hstart⟩⟩
    · exact Or.inr (Or.inl hhandler)
    · exact Or.inl ⟨q', e, hq', hgoes⟩
    · obtain rfl := place_unique hq' he
      exact Or.inr (Or.inr hstart)
  · rintro ⟨l', he', hfalls, hother⟩
    obtain rfl : l = l' := Entry.label.inj (Option.some.inj (he.symm.trans he'))
    have hpos := lt_size_of_entry he
    refine ⟨⟨pos, hpos, he, hfalls⟩, ?_⟩
    rcases hother with ⟨q, e, hq, hgoes⟩ | hhandler | hstart
    · exact Or.inr ⟨q, lt_size_of_entry hq, e, hq, Or.inl hgoes⟩
    · exact Or.inl hhandler
    · exact Or.inr ⟨pos, hpos, _, he, Or.inr ⟨rfl, hstart⟩⟩

theorem mem_boundaries {kind : BoundaryKind} :
    ⟨pos, kind⟩ ∈ m.boundaries ↔
      ∃ e, m.code[pos]? = some e ∧ m.labelFlows.boundaryKind? e = some kind := by
  simp only [boundaries, List.mem_filterMap, Prod.exists, Option.map_eq_some_iff, Boundary.mk.injEq]
  constructor
  · rintro ⟨e, q, hmem, kind', hkind, rfl, rfl⟩
    exact ⟨e, entry_of_mem_zipIdx hmem, hkind⟩
  · rintro ⟨e, he, hkind⟩
    exact ⟨e, pos, List.mem_zipIdx_iff_getElem?.2 (by simpa using he), kind, hkind, rfl, rfl⟩

theorem splitsAt_iff (he : m.code[pos]? = some e) (ho : e.opcode? = some op) :
    m.SplitsAt pos ↔ e.jump?.isSome || op.isSwitch := by
  simp only [SplitsAt, he, ho, Option.some.injEq, exists_eq_left', Opcode.isSwitch, Bool.or_eq_true,
    beq_iff_eq, Option.isSome_iff_exists, jump?_eq_some_iff]
  rw [exists_comm]

/-- The flow splits at real instructions only. -/
theorem SplitsAt.isReal (h : m.SplitsAt pos) : m.isReal pos := by
  obtain ⟨e, he, ⟨op, l, rfl⟩ | ho | ho⟩ := h
  · exact isReal_of_jump he
  · exact isReal_of_opcode he ho
  · exact isReal_of_opcode he ho

/-- What ends a run in the way that a boundary says. -/
def EndsRun (m : Method) (pos : Nat) : BoundaryKind → Prop
  | .beforeJump => m.SplitsAt pos
  | .beforeExit => m.ExitsAt pos
  | .atJoin => m.JoinsAt pos

theorem endsRun_of_mem {kind : BoundaryKind} (h : ⟨pos, kind⟩ ∈ m.boundaries) :
    m.EndsRun pos kind := by
  obtain ⟨e, he, hkind⟩ := mem_boundaries.1 h
  rcases Flows.boundaryKind?_cases hkind with ⟨l, rfl⟩ | ⟨op, ho⟩
  · rw [Flows.boundaryKind?_label] at hkind
    split at hkind
    · next hjoin => cases hkind; exact (isJoin_iff he).1 hjoin
    · cases hkind
  · rw [Flows.boundaryKind?_of_opcode ho] at hkind
    split at hkind
    · next hsplit => cases hkind; exact (splitsAt_iff he ho).2 hsplit
    · next hsplit =>
      split at hkind
      · next hexit =>
        cases hkind
        exact ⟨mt (splitsAt_iff he ho).1 hsplit, op, (opcode?_of_entry he).trans ho,
          Opcode.isExit_iff.1 hexit⟩
      · cases hkind

theorem mem_of_endsRun {kind : BoundaryKind} (h : m.EndsRun pos kind) :
    ⟨pos, kind⟩ ∈ m.boundaries := by
  cases kind with
  | beforeJump =>
    obtain ⟨e, op, he, ho⟩ := isReal_iff.1 (SplitsAt.isReal h)
    refine mem_boundaries.2 ⟨e, he, ?_⟩
    rw [Flows.boundaryKind?_of_opcode ho, if_pos ((splitsAt_iff he ho).1 h)]
  | beforeExit =>
    obtain ⟨hsplit, op, hop, hexit⟩ := h
    obtain ⟨e, he, ho⟩ := Option.bind_eq_some_iff.1 hop
    refine mem_boundaries.2 ⟨e, he, ?_⟩
    rw [Flows.boundaryKind?_of_opcode ho, if_neg (mt (splitsAt_iff he ho).2 hsplit),
      if_pos (Opcode.isExit_iff.2 hexit)]
  | atJoin =>
    have hjoin : m.JoinsAt pos := h
    obtain ⟨l, he, -⟩ := h
    exact mem_boundaries.2 ⟨_, he, if_pos ((isJoin_iff he).2 hjoin)⟩

theorem mem_boundaries_iff {kind : BoundaryKind} :
    ⟨pos, kind⟩ ∈ m.boundaries ↔ m.EndsRun pos kind :=
  ⟨endsRun_of_mem, mem_of_endsRun⟩

theorem pairwise_boundaries (m : Method) :
    m.boundaries.Pairwise fun b b' => b.position < b'.position := by
  refine (List.pairwise_zipIdx m.code.toList 0).filterMap _ fun x y hlt b hb b' hb' => ?_
  obtain ⟨kind, -, rfl⟩ := Option.map_eq_some_iff.1 hb
  obtain ⟨kind', -, rfl⟩ := Option.map_eq_some_iff.1 hb'
  exact hlt

/-- Where the flow does not split, control goes on to the next entry, if anywhere. -/
theorem branches_of_not_splitsAt (h : ¬ m.SplitsAt pos) : ∀ b ∈ m.branches pos, b = ⟨0, pos + 1⟩ := by
  rintro ⟨n, target⟩ hb
  rcases branches_cases hb with ⟨-, -, -, -, -, rfl, rfl⟩ | ⟨op, l, he, -⟩ | ⟨e, l, he, hs, -⟩
  · rfl
  · exact absurd ⟨_, he, Or.inl ⟨op, l, rfl⟩⟩ h
  · refine absurd ⟨e, he, Or.inr ?_⟩ h
    cases e with
    | tableSwitch => exact Or.inl rfl
    | lookupSwitch => exact Or.inr rfl
    | _ => simp [Entry.switch?] at hs

end Method

/-- **Runs end where the flow splits, exits or joins.**  The boundaries of a method increase,
    so that a position has one at most.  They stand before jumps and instructions with the
    opcode of a switch, before other returns and throws, and at labels that control falls
    into and that have another way in: a jump or switch anywhere in the method, the handler
    table, or the start of the method.  A real instruction without a boundary has no branch
    but the one to the next entry. -/
theorem boundaries_split_exit_join (m : Method) :
    (m.boundaries.Pairwise fun b b' => b.position < b'.position) ∧
    (∀ pos, ⟨pos, .beforeJump⟩ ∈ m.boundaries ↔ m.SplitsAt pos) ∧
    (∀ pos, ⟨pos, .beforeExit⟩ ∈ m.boundaries ↔ m.ExitsAt pos) ∧
    (∀ pos, ⟨pos, .atJoin⟩ ∈ m.boundaries ↔ m.JoinsAt pos) ∧
    ∀ pos, m.isReal pos → (∀ kind, ⟨pos, kind⟩ ∉ m.boundaries) →
      ∀ b ∈ m.branches pos, b = ⟨0, pos + 1⟩ := by
  refine ⟨m.pairwise_boundaries, fun _ => Method.mem_boundaries_iff,
    fun _ => Method.mem_boundaries_iff, fun _ => Method.mem_boundaries_iff, ?_⟩
  intro pos _ hnone
  exact Method.branches_of_not_splitsAt fun h => hnone .beforeJump (Method.mem_of_endsRun h)

/-- A loop: its head is entered from above and by the jump at its end, which is seen later.
    The label behind that jump is reached by a jump only. -/
def loopingMethod : Method where
  name := "m"
  desc := "(I)V"
  code := #[.plain .iconst0, .label ⟨0⟩, .var .iload 1, .jump .ifEq ⟨1⟩, .jump .goto ⟨0⟩,
    .label ⟨1⟩, .plain .vreturn]
  placed_nodup := by decide
  mentioned_placed := by decide

/-- The runs of the loop end at its head, before its jumps and before the exit, and the load
    in between goes on to the next entry. -/
theorem boundaries_split_exit_join_loop :
    ⟨1, .atJoin⟩ ∈ loopingMethod.boundaries ∧ ⟨3, .beforeJump⟩ ∈ loopingMethod.boundaries ∧
      ⟨4, .beforeJump⟩ ∈ loopingMethod.boundaries ∧ ⟨5, .atJoin⟩ ∉ loopingMethod.boundaries ∧
      ⟨6, .beforeExit⟩ ∈ loopingMethod.boundaries ∧
      ∀ b ∈ loopingMethod.branches 2, b = ⟨0, 3⟩ := by
  obtain ⟨-, hsplit, -, hjoin, hnone⟩ := boundaries_split_exit_join loopingMethod
  refine ⟨(hjoin 1).2 ⟨⟨0⟩, rfl, Or.inr ⟨0, .iconst0, rfl, rfl, rfl⟩,
      Or.inl ⟨4, .jump .goto ⟨0⟩, rfl, Or.inl rfl⟩⟩, (hsplit 3).2 ⟨_, rfl, Or.inl ⟨_, _, rfl⟩⟩,
    (hsplit 4).2 ⟨_, rfl, Or.inl ⟨_, _, rfl⟩⟩, by decide, by decide, ?_⟩
  refine hnone 2 rfl fun kind => ?_
  cases kind <;> decide

end Winnow
