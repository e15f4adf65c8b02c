/-
  The comparisons behind a dispatch on a string.

  What is ignored of a dispatch is told by its instructions alone.

  * `Hashed` is the end of the code before the switch, which is on the hash code of a string;
  * `StoredOnEqual`, `JumpedOnEqual` and `SkippedUnlessEqual` are the comparisons of the three
    dialects, with their last instruction and with whether they end a group;
  * `ComparisonGroup` is one or more comparisons of which the last one alone ends the group,
    `ComparisonGroups` a number of groups, one behind the other;
  * `Dialect.Describes` ties what a dialect reads to what it stands for.  `groups_sound` and
    `groups_complete` carry this over to the two loops, by induction on the comparisons of a
    group and on the groups.
-/
import Mathlib.Data.Finset.Card
import Winnow.Proofs.Findings.Replacements
import Winnow.Proofs.Pattern.Spans

namespace Winnow.Idiom.StringSwitch

variable {m : Method} {lo last pos switch count target : Nat} {default : Label}
  {b : Bool} {σ : Assignment}

/-! ## The instructions of a dispatch -/

/-- The switch is on the hash code of the string that the instruction at `pos` leaves. -/
def Hashed (m : Method) (pos switch : Nat) : Prop :=
  ∃ call interface, m.realAfter? pos = some call ∧
    m.code[call]? = some (.call .invokeVirtual "java/lang/String" "hashCode" "()I" interface) ∧
    m.realAfter? call = some switch

/-- From `lo` on, the string in slot `s` is loaded and compared with a constant by the
    call. -/
def Compares (m : Method) (s lo call : Nat) : Prop :=
  ∃ load const interface, m.realFrom? lo = some load ∧ m.code[load]? = some (.var .aload s) ∧
    m.realAfter? load = some const ∧ m.hasOpcode .ldc const ∧ m.realAfter? const = some call ∧
    m.code[call]? = some (.call .invokeVirtual "java/lang/String" "equals"
      "(Ljava/lang/Object;)Z" interface)

/-- Whether the comparison whose last instruction stands at `pos` ends its group, and where:
    with a jump away that is the very next entry, or right before the default label. -/
inductive Ends (m : Method) (default : Label) (pos : Nat) : (last : Nat) → Bool → Prop
  | leaves {l : Label} (h : m.code[pos + 1]? = some (.jump .goto l)) :
      Ends m default pos (pos + 1) true
  | default (h : m.code[pos + 1]? = some (.label default)) : Ends m default pos pos true
  | other (hgoto : ∀ l, m.code[pos + 1]? ≠ some (.jump .goto l))
      (hdefault : m.code[pos + 1]? ≠ some (.label default)) : Ends m default pos pos false

/-- A comparison that stores an ordinal in slot `c` on equality. -/
def StoredOnEqual (m : Method) (s c : Nat) (default : Label) (lo last : Nat) (isLast : Bool) :
    Prop :=
  ∃ call test ordinal store, Compares m s lo call ∧ m.realAfter? call = some test ∧
    m.hasOpcode .ifEq test ∧ m.realAfter? test = some ordinal ∧
    m.realAfter? ordinal = some store ∧ m.code[store]? = some (.var .istore c) ∧
    Ends m default store last isLast

/-- A comparison that jumps into a body on equality. -/
def JumpedOnEqual (m : Method) (s : Nat) (default : Label) (lo last : Nat) (isLast : Bool) :
    Prop :=
  ∃ call jump body, Compares m s lo call ∧ m.realAfter? call = some jump ∧
    m.code[jump]? = some (.jump .ifNe body) ∧ (m.target? body).isSome ∧
    Ends m default jump last isLast

/-- A comparison that jumps around the jump into a body unless equal.  It ends the group if it
    jumps to the default. -/
def SkippedUnlessEqual (m : Method) (s : Nat) (default : Label) (lo last : Nat)
    (isLast : Bool) : Prop :=
  ∃ call test next body, Compares m s lo call ∧ m.realAfter? call = some test ∧
    m.code[test]? = some (.jump .ifEq next) ∧ m.realAfter? test = some last ∧
    m.code[last]? = some (.jump .goto body) ∧ (m.target? body).isSome ∧
    (isLast ↔ next = default)

/-- Comparisons from `lo` on up to `last`, of which the last one alone ends the group. -/
inductive ComparisonGroup (one : (lo last : Nat) → (isLast : Bool) → Prop) : Nat → Nat → Prop
  | last {lo last : Nat} (h : one lo last true) : ComparisonGroup one lo last
  | more {lo mid last : Nat} (h : one lo mid false) (rest : ComparisonGroup one (mid + 1) last) :
      ComparisonGroup one lo last

/-- A positive number of groups, one behind the other. -/
inductive ComparisonGroups (one : (lo last : Nat) → (isLast : Bool) → Prop) :
    (count : Nat) → Nat → Nat → Prop
  | one {lo last : Nat} (h : ComparisonGroup one lo last) : ComparisonGroups one 1 lo last
  | more {count lo mid last : Nat} (h : ComparisonGroup one lo mid)
      (rest : ComparisonGroups one count (mid + 1) last) : ComparisonGroups one (count + 1) lo last

/-- Behind the switch there is one group of comparisons for each of its distinct labels
    besides the default. -/
def Dispatches (m : Method) (one : (lo last : Nat) → (isLast : Bool) → Prop) (default : Label)
    (switch last : Nat) : Prop :=
  ∃ e cases, m.code[switch]? = some e ∧ e.switch? = some (default, cases) ∧
    ComparisonGroups one (cases.toFinset.erase default).card (switch + 1) last

/-- A dispatch that computes an ordinal: `c` is set to -1, and the string in `s` is hashed. -/
def OrdinalDispatch (m : Method) (switch last : Nat) : Prop :=
  ∃ s c default minus store load, m.hasOpcode .iconstM1 minus ∧
    m.realAfter? minus = some store ∧ m.code[store]? = some (.var .istore c) ∧
    m.realAfter? store = some load ∧ m.code[load]? = some (.var .aload s) ∧
    Hashed m load switch ∧ Dispatches m (StoredOnEqual m s c default) default switch last

/-- A dispatch whose comparisons jump into the bodies: the string is stored in `s` and
    hashed. -/
def JumpDispatch (m : Method) (switch last : Nat) : Prop :=
  ∃ s default store, m.code[store]? = some (.var .astore s) ∧ Hashed m store switch ∧
    (m.target? default).isSome ∧ Dispatches m (JumpedOnEqual m s default) default switch last

/-- A dispatch whose comparisons jump around the jumps into the bodies: the string is loaded
    from `s` and hashed. -/
def SkipDispatch (m : Method) (switch last : Nat) : Prop :=
  ∃ s default load, m.code[load]? = some (.var .aload s) ∧ Hashed m load switch ∧
    (m.target? default).isSome ∧ Dispatches m (SkippedUnlessEqual m s default) default switch last

/-! ## Patterns -/

/-- A call that a step with literal texts accepts. -/
theorem holds_call_iff {e : Entry} {op : Opcode} {owner name desc : String}
    (ho : owner ≠ anyText) (hn : name ≠ anyText) (hd : desc ≠ anyText) :
    Step.Holds σ e (.call op owner name desc) ↔
      ∃ interface, e = .call op owner name desc interface := by
  constructor
  · rintro ⟨o, n, d, interface, rfl, hao, han, had⟩
    obtain rfl := eq_of_accepts ho hao
    obtain rfl := eq_of_accepts hn han
    obtain rfl := eq_of_accepts hd had
    exact ⟨interface, rfl⟩
  · rintro ⟨interface, rfl⟩
    exact ⟨owner, name, desc, interface, rfl, by simp [accepts], by simp [accepts],
      by simp [accepts]⟩

/-- Loading and comparing, as a part of the method. -/
theorem spans_equalsConstant {hi : Nat} :
    m.Spans σ equalsConstant lo hi ↔ ∃ call, hi = call + 1 ∧ Compares m (σ.slot "s") lo call := by
  constructor
  · rintro ⟨load, e₁, hload, he₁, rfl, const, e₂, hconst, he₂, hldc, call, e₃, hcall, he₃, hequals,
      rfl⟩
    obtain ⟨interface, rfl⟩ := (holds_call_iff (by decide) (by decide) (by decide)).1 hequals
    exact ⟨call, rfl, load, const, interface, hload, he₁, hconst,
      Method.hasOpcode_of_opcode he₂ hldc, hcall, he₃⟩
  · rintro ⟨call, rfl, load, const, interface, hload, he₁, hconst, hldc, hcall, he₃⟩
    obtain ⟨e₂, he₂, hop⟩ := Method.hasOpcode_iff.1 hldc
    exact ⟨load, _, hload, he₁, rfl, const, e₂, hconst, he₂, hop, call, _, hcall, he₃,
      (holds_call_iff (by decide) (by decide) (by decide)).2 ⟨interface, rfl⟩, rfl⟩

/-- A comparison and the test of its result. -/
theorem spans_comparison {op : Opcode} {hi : Nat} :
    m.Spans σ (equalsConstant ++ [.opcode op]) lo hi ↔
      ∃ call test, hi = test + 1 ∧ Compares m (σ.slot "s") lo call ∧
        m.realAfter? call = some test ∧ m.hasOpcode op test := by
  rw [Method.spans_append]
  constructor
  · rintro ⟨mid, hequals, test, e, htest, he, hop, rfl⟩
    obtain ⟨call, rfl, hcall⟩ := spans_equalsConstant.1 hequals
    exact ⟨call, test, rfl, hcall, htest, Method.hasOpcode_of_opcode he hop⟩
  · rintro ⟨call, test, rfl, hcall, htest, hop⟩
    obtain ⟨e, he, hop⟩ := Method.hasOpcode_iff.1 hop
    exact ⟨call + 1, spans_equalsConstant.2 ⟨call, rfl, hcall⟩, test, e, htest, he, hop, rfl⟩

/-- A comparison and the store of the ordinal. -/
theorem spans_ordinalComparison {hi : Nat} :
    m.Spans σ ordinalComparison lo hi ↔
      ∃ call test ordinal store, hi = store + 1 ∧ Compares m (σ.slot "s") lo call ∧
        m.realAfter? call = some test ∧ m.hasOpcode .ifEq test ∧
        m.realAfter? test = some ordinal ∧ m.realAfter? ordinal = some store ∧
        m.code[store]? = some (.var .istore (σ.slot "c")) := by
  have hsplit : ordinalComparison =
      (equalsConstant ++ [.opcode .ifEq]) ++ [.any, .var .istore "c"] := rfl
  rw [hsplit, Method.spans_append]
  constructor
  · rintro ⟨mid, hcomparison, ordinal, e, hordinal, -, -, store, e', hstore, he', rfl, rfl⟩
    obtain ⟨call, test, rfl, hcall, htest, hop⟩ := spans_comparison.1 hcomparison
    exact ⟨call, test, ordinal, store, rfl, hcall, htest, hop, hordinal, hstore, he'⟩
  · rintro ⟨call, test, ordinal, store, rfl, hcall, htest, hop, hordinal, hstore, he'⟩
    obtain ⟨e, -, he, -⟩ := Method.isReal_iff.1 (Method.realAfter?_eq_some_iff.1 hordinal).2.1
    exact ⟨test + 1, spans_comparison.2 ⟨call, test, rfl, hcall, htest, hop⟩, ordinal, e, hordinal,
      he, trivial, store, _, hstore, he', rfl, rfl⟩

/-- The string, its hash code and the switch. -/
theorem spans_hashed {op : Opcode} {hi : Nat} :
    m.Spans σ [.var op "s", hashCode, .switch] lo hi ↔
      ∃ pos switch op', hi = switch + 1 ∧ m.realFrom? lo = some pos ∧
        m.code[pos]? = some (.var op (σ.slot "s")) ∧ Hashed m pos switch ∧
        m.opcode? switch = some op' ∧ op'.isSwitch := by
  constructor
  · rintro ⟨pos, e₁, hpos, he₁, rfl, call, e₂, hcall, he₂, hhash, switch, e₃, hswitch, he₃,
      ⟨op', hop', hsw⟩, rfl⟩
    obtain ⟨interface, rfl⟩ := (holds_call_iff (by decide) (by decide) (by decide)).1 hhash
    exact ⟨pos, switch, op', rfl, hpos, he₁, ⟨call, interface, hcall, he₂, hswitch⟩,
      (Method.opcode?_of_entry he₃).trans hop', hsw⟩
  · rintro ⟨pos, switch, op', rfl, hpos, he₁, ⟨call, interface, hcall, he₂, hswitch⟩, hop', hsw⟩
    obtain ⟨e₃, he₃, hop'⟩ := Option.bind_eq_some_iff.1 hop'
    exact ⟨pos, _, hpos, he₁, rfl, call, _, hcall, he₂,
      (holds_call_iff (by decide) (by decide) (by decide)).2 ⟨interface, rfl⟩, switch, e₃, hswitch,
      he₃, ⟨op', hop', hsw⟩, rfl⟩

/-! ## What the dialects read -/

variable {cur cur' : Cursor} {p : Place} {r : Comparison} {d : Dialect m}
  {bs : List (Nat × BranchRef)} {one : Assignment → (lo last : Nat) → (isLast : Bool) → Prop}

/-- The dialect reads exactly the comparisons that `one` tells, under the assignments for the
    names that are bound. -/
structure Dialect.Describes (d : Dialect m)
    (one : Assignment → (lo last : Nat) → (isLast : Bool) → Prop) : Prop where
  continues : ∀ {cur r}, d.read cur = some r → Cursor.Continues cur r.cursor
  sound : ∀ {cur r σ p q}, d.read cur = some r → cur.place = some p →
    r.cursor.matched? = some q → σ.Extends r.cursor.bindings → one σ p.next q r.isLast
  complete : ∀ {cur σ p q b}, cur.place = some p → σ.Extends cur.bindings → one σ p.next q b →
    ∃ r, d.read cur = some r ∧ r.isLast = b ∧ r.cursor.place = some ⟨q + 1, some q⟩ ∧
      σ.Extends r.cursor.bindings

theorem following_of_goto {l : Label} (h : m.code[pos]? = some (.jump .goto l)) :
    following m default pos = .leaves := by
  simp [following, h]

theorem following_of_default (h : m.code[pos]? = some (.label default)) :
    following m default pos = .default := by
  simp [following, h]

theorem following_eq_other : following m default pos = .other ↔
    (∀ l, m.code[pos]? ≠ some (.jump .goto l)) ∧ m.code[pos]? ≠ some (.label default) := by
  constructor
  · intro h
    refine ⟨fun l hl => ?_, fun hl => ?_⟩
    · rw [following_of_goto hl] at h; cases h
    · rw [following_of_default hl] at h; cases h
  · rintro ⟨hgoto, hdefault⟩
    cases h : following m default pos with
    | leaves => obtain ⟨l, hl⟩ := following_eq_leaves h; exact absurd hl (hgoto l)
    | default => exact absurd (following_eq_default h) hdefault
    | other => rfl

theorem matched?_of_place (h : cur.place = some ⟨pos + 1, some pos⟩) :
    cur.matched? = some pos := by
  rw [Cursor.matched?, h]
  rfl

/-- A jump away that comes next is matched. -/
theorem run_goto {l : Label} {q : Nat} (hp : cur.place = some p) (hσ : σ.Extends cur.bindings)
    (hq : m.realFrom? p.next = some q) (hl : m.code[q]? = some (.jump .goto l)) :
    (cur.run m [.opcode .goto]).place = some ⟨q + 1, some q⟩ ∧
      σ.Extends (cur.run m [.opcode .goto]).bindings := by
  have hspans : m.Spans σ [.opcode .goto] p.next (q + 1) := ⟨q, _, hq, hl, rfl, rfl⟩
  obtain ⟨_, heq, hplace, hσ'⟩ := Cursor.run_of_spans (List.cons_ne_nil _ _) hp hσ hspans
  cases heq
  exact ⟨hplace, hσ'⟩

/-- Where reading goes on behind a comparison that ends at `pos`, in the dialects that look at
    the next entry, and whether the comparison ends its group. -/
def ending (m : Method) (default : Label) (found : Cursor) (pos : Nat) : Cursor × Bool :=
  match following m default (pos + 1) with
  | .leaves => (found.run m [.opcode .goto], true)
  | .default => (found, true)
  | .other => (found, false)

theorem continues_ending (found : Cursor) (pos : Nat) :
    Cursor.Continues found (ending m default found pos).1 := by
  unfold ending
  split
  · exact Cursor.continues_run m found _
  · exact .refl found
  · exact .refl found

/-- Where the comparison ends, told by the next entry. -/
theorem ends_of_ending {q : Nat} (hpos : cur.place = some ⟨pos + 1, some pos⟩)
    (hq : (ending m default cur pos).1.matched? = some q) :
    Ends m default pos q (ending m default cur pos).2 := by
  have hmatched := matched?_of_place hpos
  unfold ending at hq ⊢
  split at hq
  · next hf =>
    obtain ⟨l, hl⟩ := following_eq_leaves hf
    obtain ⟨hgoto, -⟩ := run_goto hpos cur.bindings.extends_assignment
      (Method.realFrom?_of_isReal (Method.isReal_of_jump hl)) hl
    obtain rfl := Option.some.inj ((matched?_of_place hgoto).symm.trans hq)
    exact .leaves hl
  · next hf =>
    obtain rfl := Option.some.inj (hmatched.symm.trans hq)
    exact .default (following_eq_default hf)
  · next hf =>
    obtain rfl := Option.some.inj (hmatched.symm.trans hq)
    obtain ⟨hgoto, hdefault⟩ := following_eq_other.1 hf
    exact .other hgoto hdefault

theorem ending_of_ends {q : Nat} (hpos : cur.place = some ⟨pos + 1, some pos⟩)
    (hσ : σ.Extends cur.bindings) (h : Ends m default pos q b) :
    (ending m default cur pos).2 = b ∧
      (ending m default cur pos).1.place = some ⟨q + 1, some q⟩ ∧
      σ.Extends (ending m default cur pos).1.bindings := by
  unfold ending
  cases h with
  | leaves hl =>
    rw [following_of_goto hl]
    exact ⟨rfl, run_goto hpos hσ (Method.realFrom?_of_isReal (Method.isReal_of_jump hl)) hl⟩
  | default hl =>
    rw [following_of_default hl]
    exact ⟨rfl, hpos, hσ⟩
  | other hgoto hdefault =>
    rw [following_eq_other.2 ⟨hgoto, hdefault⟩]
    exact ⟨rfl, hpos, hσ⟩

/-- A dialect that reads a pattern, asks `Q` of its last instruction and then looks at the next
    entry. -/
theorem describes_of_ending {steps : List Step} {Q : Nat → Prop} (hs : steps ≠ [])
    (hsome : ∀ {cur r}, d.read cur = some r →
      ∃ pos, (cur.run m steps).matched? = some pos ∧ Q pos)
    (hread : ∀ {cur pos}, (cur.run m steps).matched? = some pos → Q pos →
      ∃ bs, d.read cur = some ⟨(ending m default (cur.run m steps) pos).1, bs,
        (ending m default (cur.run m steps) pos).2⟩) :
    d.Describes fun σ lo last isLast =>
      ∃ pos, m.Spans σ steps lo (pos + 1) ∧ Q pos ∧ Ends m default pos last isLast where
  continues {cur r} h := by
    obtain ⟨pos, hpos, hQ⟩ := hsome h
    obtain ⟨bs, hr⟩ := hread hpos hQ
    obtain rfl := Option.some.inj (h.symm.trans hr)
    exact (Cursor.continues_run m cur _).trans (continues_ending _ pos)
  sound {cur r σ p q} h hp hq hσ := by
    obtain ⟨pos, hpos, hQ⟩ := hsome h
    obtain ⟨bs, hr⟩ := hread hpos hQ
    obtain rfl := Option.some.inj (h.symm.trans hr)
    have hplace := place_of_matched?_run hs hpos
    refine ⟨pos, ?_, hQ, ends_of_ending hplace hq⟩
    exact Cursor.spans_of_run hp hplace ((continues_ending _ pos).names σ hσ)
  complete {cur σ p q b} hp hσ h := by
    obtain ⟨pos, hspans, hQ, hends⟩ := h
    obtain ⟨_, heq, hplace, hσ'⟩ := Cursor.run_of_spans hs hp hσ hspans
    cases heq
    obtain ⟨bs, hr⟩ := hread (matched?_of_place hplace) hQ
    exact ⟨_, hr, ending_of_ends hplace hσ' hends⟩

theorem Dialect.Describes.congr
    {one' : Assignment → (lo last : Nat) → (isLast : Bool) → Prop} (h : d.Describes one)
    (hone : ∀ σ lo last isLast, one' σ lo last isLast ↔ one σ lo last isLast) :
    d.Describes one' where
  continues := h.continues
  sound hr hp hq hσ := (hone ..).2 (h.sound hr hp hq hσ)
  complete hp hσ hb := h.complete hp hσ ((hone ..).1 hb)

theorem readOrdinal_of_matched? (h : (cur.run m ordinalComparison).matched? = some pos) :
    readOrdinal m default cur = some ⟨(ending m default (cur.run m ordinalComparison) pos).1, [],
      (ending m default (cur.run m ordinalComparison) pos).2⟩ := by
  simp only [readOrdinal, h, ending]
  cases following m default (pos + 1) <;> rfl

theorem describes_ordinalDialect (default : Label) : (ordinalDialect m default).Describes
    fun σ => StoredOnEqual m (σ.slot "s") (σ.slot "c") default := by
  have hs : ordinalComparison ≠ [] := List.cons_ne_nil _ _
  have key : (ordinalDialect m default).Describes fun σ lo last isLast =>
      ∃ pos, m.Spans σ ordinalComparison lo (pos + 1) ∧ True ∧ Ends m default pos last isLast := by
    refine describes_of_ending hs (fun {cur r} h => ?_) fun h _ => ⟨[], readOrdinal_of_matched? h⟩
    cases hpos : (cur.run m ordinalComparison).matched? with
    | none => simp [ordinalDialect, readOrdinal, hpos] at h
    | some pos => exact ⟨pos, rfl, trivial⟩
  refine key.congr fun σ lo last isLast => ?_
  simp only [spans_ordinalComparison, StoredOnEqual, true_and]
  constructor
  · rintro ⟨call, test, ordinal, store, h₁, h₂, h₃, h₄, h₅, h₆, hends⟩
    exact ⟨store, ⟨call, test, ordinal, store, rfl, h₁, h₂, h₃, h₄, h₅, h₆⟩, hends⟩
  · rintro ⟨_, ⟨call, test, ordinal, store, ⟨⟩, h₁, h₂, h₃, h₄, h₅, h₆⟩, hends⟩
    exact ⟨call, test, ordinal, _, h₁, h₂, h₃, h₄, h₅, h₆, hends⟩

theorem readJump_of_matched? (h : (cur.run m jumpComparison).matched? = some pos)
    (hbody : (jumpTarget? m pos).isSome) :
    ∃ bs, readJump m default target cur =
      some ⟨(ending m default (cur.run m jumpComparison) pos).1, bs,
        (ending m default (cur.run m jumpComparison) pos).2⟩ := by
  obtain ⟨body, hbody⟩ := Option.isSome_iff_exists.1 hbody
  have hs : jumpComparison ≠ [] := List.cons_ne_nil _ _
  have hplace := place_of_matched?_run hs h
  simp only [readJump, h, hbody, ending]
  cases hf : following m default (pos + 1) with
  | leaves =>
    obtain ⟨l, hl⟩ := following_eq_leaves hf
    have hgoto := run_goto hplace (Bindings.extends_assignment _)
      (Method.realFrom?_of_isReal (Method.isReal_of_jump hl)) hl
    exact ⟨_, by rw [matched?_of_place hgoto.1, Option.map_some]⟩
  | default => exact ⟨_, rfl⟩
  | other => exact ⟨_, rfl⟩

theorem isSome_jumpTarget?_iff {op : Opcode} (hop : m.hasOpcode op pos) :
    (jumpTarget? m pos).isSome ↔
      ∃ body, m.code[pos]? = some (.jump op body) ∧ (m.target? body).isSome := by
  constructor
  · intro h
    obtain ⟨body, h⟩ := Option.isSome_iff_exists.1 h
    obtain ⟨l, hl, hbody⟩ := jumpTarget?_eq_some h
    exact ⟨l, entry_of_jump? hl (Method.hasOpcode_iff.1 hop), Option.isSome_of_eq_some hbody⟩
  · rintro ⟨body, hbody, htarget⟩
    rwa [jumpTarget?, hbody]

theorem describes_jumpDialect (default : Label) (target : Nat) :
    (jumpDialect m default target).Describes fun σ => JumpedOnEqual m (σ.slot "s") default := by
  have hs : jumpComparison ≠ [] := List.cons_ne_nil _ _
  have key : (jumpDialect m default target).Describes fun σ lo last isLast =>
      ∃ pos, m.Spans σ jumpComparison lo (pos + 1) ∧ (jumpTarget? m pos).isSome ∧
        Ends m default pos last isLast := by
    refine describes_of_ending hs (fun {cur r} h => ?_) readJump_of_matched?
    obtain ⟨jump, body, hjump, hbody, -⟩ := readJump_cases h
    exact ⟨jump, hjump, Option.isSome_of_eq_some hbody⟩
  refine key.congr fun σ lo last isLast => ?_
  simp only [jumpComparison, spans_comparison, JumpedOnEqual]
  constructor
  · rintro ⟨call, jump, body, hcall, hjump, hbody, htarget, hends⟩
    have hop := Method.hasOpcode_of_opcode hbody rfl
    exact ⟨jump, ⟨call, jump, rfl, hcall, hjump, hop⟩,
      (isSome_jumpTarget?_iff hop).2 ⟨body, hbody, htarget⟩, hends⟩
  · rintro ⟨_, ⟨call, jump, ⟨⟩, hcall, hjump, hop⟩, hbody, hends⟩
    obtain ⟨body, hbody, htarget⟩ := (isSome_jumpTarget?_iff hop).1 hbody
    exact ⟨call, _, body, hcall, hjump, hbody, htarget, hends⟩

theorem readSkip_of_matched? (default : Label) (target : Nat) {test next : Nat} {l : Label}
    (htest : (cur.run m skipComparison).matched? = some test)
    (hl : m.code[test]?.bind Entry.jump? = some l)
    (hgoto : ((cur.run m skipComparison).run m [.opcode .goto]).matched? = some next)
    (hbody : (jumpTarget? m next).isSome) :
    ∃ bs, readSkip m default target cur =
      some ⟨(cur.run m skipComparison).run m [.opcode .goto], bs, decide (l = default)⟩ := by
  obtain ⟨body, hbody⟩ := Option.isSome_iff_exists.1 hbody
  simp only [readSkip, htest, hl, hgoto, hbody]
  by_cases hdefault : l = default
  · exact ⟨_, by rw [if_pos hdefault, decide_eq_true hdefault]⟩
  · exact ⟨_, by rw [if_neg hdefault, decide_eq_false hdefault]⟩

theorem describes_skipDialect (default : Label) (target : Nat) :
    (skipDialect m default target).Describes fun σ =>
      SkippedUnlessEqual m (σ.slot "s") default where
  continues {cur r} h := by
    obtain ⟨-, -, -, -, -, -, hr, -⟩ := readSkip_cases h
    rw [hr]
    exact (Cursor.continues_run m cur _).trans (Cursor.continues_run m _ _)
  sound {cur r σ p q} h hp hq hσ := by
    obtain ⟨test, l, next, body, htest, hl, hr, hgoto, hbody, -⟩ := readSkip_cases h
    obtain rfl := Option.some.inj (hgoto.symm.trans hq)
    rw [hr] at hgoto hσ
    have hbody := Option.isSome_of_eq_some hbody
    obtain ⟨bs, hr'⟩ := readSkip_of_matched? default target htest hl hgoto hbody
    obtain rfl := Option.some.inj (h.symm.trans hr')
    have hs : skipComparison ≠ [] := List.cons_ne_nil _ _
    have hspans := Cursor.spans_of_run hp (place_of_matched?_run hs htest)
      ((Cursor.continues_run m _ _).names σ hσ)
    obtain ⟨call, _, ⟨⟩, hcall, hnext, hop⟩ := spans_comparison.1 hspans
    obtain ⟨hafter, e, he, hop'⟩ := goto_of_matched? hs htest hgoto
    obtain ⟨body, hentry, htarget⟩ :=
      (isSome_jumpTarget?_iff (Method.hasOpcode_of_opcode he hop')).1 hbody
    exact ⟨call, test, l, body, hcall, hnext, entry_of_jump? hl (Method.hasOpcode_iff.1 hop),
      hafter, hentry, htarget, decide_eq_true_iff⟩
  complete {cur σ p q b} hp hσ h := by
    obtain ⟨call, test, l, body, hcall, htest, hl, hafter, hentry, htarget, hb⟩ := h
    have hs : skipComparison ≠ [] := List.cons_ne_nil _ _
    have hspans : m.Spans σ skipComparison p.next (test + 1) := spans_comparison.2
      ⟨call, test, rfl, hcall, htest, Method.hasOpcode_of_opcode hl rfl⟩
    obtain ⟨_, heq, hplace, hσ'⟩ := Cursor.run_of_spans hs hp hσ hspans
    cases heq
    have hgoto := run_goto hplace hσ' hafter hentry
    have hbody := (isSome_jumpTarget?_iff (Method.hasOpcode_of_opcode hentry rfl)).2
      ⟨body, hentry, htarget⟩
    obtain ⟨bs, hr⟩ := readSkip_of_matched? default target (matched?_of_place hplace)
      (by rw [hl]; rfl) (matched?_of_place hgoto.1) hbody
    refine ⟨_, hr, ?_, hgoto⟩
    rw [Bool.eq_iff_iff, decide_eq_true_iff, hb]

/-! ## Groups of comparisons -/

theorem continues_group (hd : d.Describes one) (h : group d cur = some (cur', bs)) :
    Cursor.Continues cur cur' := by
  fun_induction group d cur generalizing cur' bs with
  | case1 => cases h
  | case2 cur r hr => cases h; exact hd.continues hr
  | case3 cur r hr _ ih =>
    obtain ⟨⟨cur'', bs''⟩, hg, heq⟩ := Option.map_eq_some_iff.1 h
    cases heq
    exact (hd.continues hr).trans (ih hg)

theorem continues_groups (hd : d.Describes one) (h : groups d count cur = some (cur', bs)) :
    Cursor.Continues cur cur' := by
  induction count generalizing cur bs with
  | zero => cases h; exact .refl _
  | succ count ih =>
    simp only [groups, Option.bind_eq_bind, Option.bind_eq_some_iff] at h
    obtain ⟨⟨cur₁, bs₁⟩, h₁, ⟨cur₂, bs₂⟩, h₂, heq⟩ := h
    cases heq
    exact (continues_group hd h₁).trans (ih h₂)

/-- A comparison that was read ends right before the place where reading goes on. -/
theorem Dialect.Advancing.place_read (ha : d.Advancing) (hr : d.read cur = some r)
    (hp : r.cursor.place = some p) : ∃ q, r.cursor.matched? = some q ∧ p = ⟨q + 1, some q⟩ := by
  obtain ⟨q, hq, -⟩ := ha.reached hr (fun _ _ => Nat.zero_le _) p hp
  have hmatched : r.cursor.matched? = some q := by rw [Cursor.matched?, hp, Option.bind_some, hq]
  exact ⟨q, hmatched, Option.some.inj (hp.symm.trans (ha.behind hr hmatched))⟩

theorem place_group (ha : d.Advancing) (h : group d cur = some (cur', bs))
    (hp : cur'.place = some p) : ∃ q, cur'.matched? = some q ∧ p = ⟨q + 1, some q⟩ := by
  obtain ⟨cur₁, bs₁, r, -, hr, -, rfl, -⟩ := readsToLast_group h
  exact ha.place_read hr hp

/-- A group that was read is one, under every assignment for the names that it binds. -/
theorem group_sound (hd : d.Describes one) (ha : d.Advancing)
    (h : group d cur = some (cur', bs)) (hp : cur.place = some p)
    (hlast : cur'.matched? = some last) (hσ : σ.Extends cur'.bindings) :
    ComparisonGroup (one σ) p.next last := by
  fun_induction group d cur generalizing cur' bs p with
  | case1 => cases h
  | case2 cur r hr hends =>
    cases h
    exact .last (hends ▸ hd.sound hr hp hlast hσ)
  | case3 cur r hr hends ih =>
    obtain ⟨⟨cur'', bs''⟩, hg, heq⟩ := Option.map_eq_some_iff.1 h
    cases heq
    obtain ⟨p', hp', -⟩ := Option.bind_eq_some_iff.1 hlast
    obtain ⟨p₁, hp₁, -⟩ := (continues_group hd hg).place p' hp'
    obtain ⟨mid, hmid, rfl⟩ := ha.place_read hr hp₁
    have hone := hd.sound hr hp hmid ((continues_group hd hg).names σ hσ)
    rw [Bool.eq_false_of_not_eq_true hends] at hone
    exact .more hone (ih hg hp₁ hlast hσ)

/-- What one comparison keeps, the groups keep. -/
theorem groups_sound (hd : d.Describes one) (ha : d.Advancing)
    (h : groups d (count + 1) cur = some (cur', bs)) (hp : cur.place = some p)
    (hlast : cur'.matched? = some last) (hσ : σ.Extends cur'.bindings) :
    ComparisonGroups (one σ) (count + 1) p.next last := by
  induction count generalizing cur bs p with
  | zero =>
    simp only [groups, Option.bind_eq_bind, Option.bind_eq_some_iff] at h
    obtain ⟨⟨cur₁, bs₁⟩, h₁, ⟨cur₂, bs₂⟩, h₂, heq⟩ := h
    cases h₂
    cases heq
    exact .one (group_sound hd ha h₁ hp hlast hσ)
  | succ count ih =>
    rw [groups] at h
    simp only [Option.bind_eq_bind, Option.bind_eq_some_iff] at h
    obtain ⟨⟨cur₁, bs₁⟩, h₁, ⟨cur₂, bs₂⟩, h₂, heq⟩ := h
    cases heq
    obtain ⟨p', hp', -⟩ := Option.bind_eq_some_iff.1 hlast
    obtain ⟨p₁, hp₁, -⟩ := (continues_groups hd h₂).place p' hp'
    obtain ⟨mid, hmid, rfl⟩ := place_group ha h₁ hp₁
    have hfirst := group_sound hd ha h₁ hp hmid ((continues_groups hd h₂).names σ hσ)
    exact .more hfirst (ih h₂ hp₁)

/-- A group is read, whatever assignment of the names that are bound it is told with. -/
theorem group_complete (hd : d.Describes one) (h : ComparisonGroup (one σ) lo last)
    (hp : cur.place = some p) (hlo : p.next = lo) (hσ : σ.Extends cur.bindings) :
    ∃ cur' bs, group d cur = some (cur', bs) ∧ cur'.place = some ⟨last + 1, some last⟩ ∧
      σ.Extends cur'.bindings := by
  induction h generalizing cur p with
  | last hone =>
    obtain ⟨r, hr, hends, hplace, hσ'⟩ := hd.complete hp hσ (hlo ▸ hone)
    refine ⟨r.cursor, r.branches, ?_, hplace, hσ'⟩
    rw [group, hr]
    simp only [hends, if_true]
  | more hone _ ih =>
    obtain ⟨r, hr, hends, hplace, hσ'⟩ := hd.complete hp hσ (hlo ▸ hone)
    obtain ⟨cur', bs, hg, hplace', hσ''⟩ := ih hplace rfl hσ'
    refine ⟨cur', r.branches ++ bs, ?_, hplace', hσ''⟩
    rw [group, hr]
    simp [hends, hg]

theorem groups_complete (hd : d.Describes one) (h : ComparisonGroups (one σ) count lo last)
    (hp : cur.place = some p) (hlo : p.next = lo) (hσ : σ.Extends cur.bindings) :
    ∃ cur' bs, groups d count cur = some (cur', bs) ∧ cur'.matched? = some last := by
  induction h generalizing cur p with
  | one hone =>
    obtain ⟨cur', bs, hg, hplace, -⟩ := group_complete hd hone hp hlo hσ
    exact ⟨cur', bs ++ [], by simp [groups, hg], matched?_of_place hplace⟩
  | more hone _ ih =>
    obtain ⟨cur₁, bs₁, hg, hplace, hσ'⟩ := group_complete hd hone hp hlo hσ
    obtain ⟨cur', bs, hgs, hlast⟩ := ih hplace rfl hσ'
    refine ⟨cur', bs₁ ++ bs, ?_, hlast⟩
    rw [groups]
    simp [hg, hgs]

/-! ## Dispatches -/

/-- The labels of a switch besides its default. -/
theorem length_targets {e : Entry} {cases : List Label} (hs : e.switch? = some (default, cases)) :
    e.targets.length - 1 = (cases.toFinset.erase default).card := by
  have htargets := Method.targets_of_switch? hs
  have hnodup : e.targets.Nodup := htargets ▸ List.nodup_eraseDups _
  have hmem : default ∈ e.targets.toFinset := by simp [htargets]
  have herase : e.targets.toFinset.erase default = cases.toFinset.erase default := by
    ext l
    simp only [htargets, Finset.mem_erase, List.mem_toFinset, List.mem_eraseDups, List.mem_cons]
    exact and_congr_right fun hne => or_iff_right hne
  rw [← herase, Finset.card_erase_of_mem hmem, List.toFinset_card_of_nodup hnodup]

theorem buckets?_iff : buckets? m switch = some (default, count) ↔
    ∃ e cases, m.code[switch]? = some e ∧ e.switch? = some (default, cases) ∧
      count = (cases.toFinset.erase default).card ∧ count ≠ 0 := by
  simp only [buckets?, Option.bind_eq_bind, Option.bind_eq_some_iff]
  constructor
  · rintro ⟨e, he, ⟨default', cases⟩, hs, u, hcount, ⟨⟩⟩
    have hcount := (Option.guard_eq_some' u).1 hcount
    exact ⟨e, cases, he, hs, length_targets hs, by simpa using hcount⟩
  · rintro ⟨e, cases, he, hs, rfl, hcount⟩
    refine ⟨e, he, (default, cases), hs, (), ?_, ?_⟩
    · exact (Option.guard_eq_some' ()).2 (by simpa [length_targets hs] using hcount)
    · rw [length_targets hs]; rfl

/-- What was read behind the code before a switch, under the names that are bound in the end. -/
theorem dispatches_of_groups {steps : List Step} (hd : d.Describes one) (ha : d.Advancing)
    (hs : steps ≠ []) (hswitch : (m.matchFrom pos steps).matched? = some switch)
    (hb : buckets? m switch = some (default, count))
    (hg : groups d count (m.matchFrom pos steps) = some (cur', bs))
    (hlast : cur'.matched? = some last) :
    ∃ σ, m.Spans σ steps pos (switch + 1) ∧ Dispatches m (one σ) default switch last := by
  obtain ⟨e, cases, he, hcases, hcount, hne⟩ := buckets?_iff.1 hb
  obtain ⟨count, rfl⟩ := Nat.exists_eq_succ_of_ne_zero hne
  have hσ := cur'.bindings.extends_assignment
  have hplace := place_of_matched?_run hs hswitch
  refine ⟨cur'.bindings.assignment, ?_, e, cases, he, hcases, ?_⟩
  · exact Cursor.spans_of_run (p := ⟨pos, none⟩) rfl hplace ((continues_groups hd hg).names _ hσ)
  · exact hcount ▸ groups_sound hd ha hg hplace hlast hσ

theorem groups_of_dispatches {steps : List Step} (hd : d.Describes one) (hs : steps ≠ [])
    (hspans : m.Spans σ steps pos (switch + 1))
    (h : Dispatches m (one σ) default switch last) :
    (m.matchFrom pos steps).matched? = some switch ∧
      ∃ count cur' bs, buckets? m switch = some (default, count) ∧
        groups d count (m.matchFrom pos steps) = some (cur', bs) ∧ cur'.matched? = some last := by
  obtain ⟨e, cases, he, hcases, hgroups⟩ := h
  obtain ⟨hplace, hσ⟩ := Method.matchFrom_of_spans hs hspans
  obtain ⟨cur', bs, hg, hlast⟩ := groups_complete hd hgroups hplace rfl hσ
  have hne : (cases.toFinset.erase default).card ≠ 0 := by
    intro hzero
    rw [hzero] at hgroups
    cases hgroups
  exact ⟨matched?_of_place hplace, _, cur', bs, buckets?_iff.2 ⟨e, cases, he, hcases, rfl, hne⟩, hg,
    hlast⟩

theorem Dispatches.opcode? {one : (lo last : Nat) → (isLast : Bool) → Prop}
    (h : Dispatches m one default switch last) :
    ∃ op, m.opcode? switch = some op ∧ op.isSwitch := by
  obtain ⟨e, cases, he, hs, -⟩ := h
  cases e <;> cases hs
  · exact ⟨.tableSwitch, Method.opcode?_of_entry he, rfl⟩
  · exact ⟨.lookupSwitch, Method.opcode?_of_entry he, rfl⟩

/-- What a dispatch with replaced branches ignores, in any dialect that is described. -/
theorem ignore_mem_replaced_iff {op : Opcode} {dialect : Label → Nat → Dialect m}
    {one : Nat → Label → (lo last : Nat) → (isLast : Bool) → Prop}
    (hd : ∀ default target, (dialect default target).Describes fun σ => one (σ.slot "s") default)
    (ha : ∀ default target, (dialect default target).Advancing) {first last : Nat} :
    .ignore first last ∈ (m.positions.filterMap fun pos => do
        guard (m.hasOpcode op pos)
        replaced? m (m.matchFrom pos [.var op "s", hashCode, .switch]) dialect).flatten ↔
      ∃ switch, first = switch + 1 ∧ ∃ s default pos, m.code[pos]? = some (.var op s) ∧
        Hashed m pos switch ∧ (m.target? default).isSome ∧
        Dispatches m (one s default) default switch last := by
  have hne : [Step.var op "s", hashCode, .switch] ≠ [] := List.cons_ne_nil _ _
  constructor
  · intro h
    obtain ⟨pos, xs, hop, hxs, hx, -⟩ := exists_dispatch h
    simp only [replaced?, Option.bind_eq_bind, Option.bind_eq_some_iff] at hxs
    obtain ⟨switch, hswitch, ⟨default, count⟩, hb, target, htarget, ⟨cur, bs⟩, hg, last', hlast,
      ⟨⟩⟩ := hxs
    obtain ⟨rfl, rfl⟩ : first = switch + 1 ∧ last = last' := by simpa using hx
    obtain ⟨σ, hspans, hdispatches⟩ :=
      dispatches_of_groups (hd default target) (ha default target) hne hswitch hb hg hlast
    obtain ⟨pos', _, -, ⟨⟩, -, hentry, hhashed, -⟩ := spans_hashed.1 hspans
    exact ⟨switch, rfl, σ.slot "s", default, pos', hentry, hhashed,
      Option.isSome_of_eq_some htarget, hdispatches⟩
  · rintro ⟨switch, rfl, s, default, pos, hentry, hhashed, htarget, h⟩
    obtain ⟨op', hop', hsw⟩ := h.opcode?
    obtain ⟨target, htarget⟩ := Option.isSome_iff_exists.1 htarget
    have hop : m.hasOpcode op pos := Method.hasOpcode_of_opcode hentry rfl
    have hreal := Method.isReal_of_hasOpcode hop
    -- the one slot that is named is that of the string
    let σ : Assignment := ⟨fun _ => s, fun _ => default, fun _ => ""⟩
    have hspans : m.Spans σ [.var op "s", hashCode, .switch] pos (switch + 1) := spans_hashed.2
      ⟨pos, switch, op', rfl, Method.realFrom?_of_isReal hreal, hentry, hhashed, hop', hsw⟩
    obtain ⟨hswitch, count, cur, bs, hb, hg, hlast⟩ :=
      groups_of_dispatches (hd default target) hne hspans h
    let gs := (Grouping.ofList ((target, ⟨switch, 0⟩) :: bs)).groups
    refine List.mem_flatten.2 ⟨[.ignore (switch + 1) last, .replace switch gs],
      List.mem_filterMap.2 ⟨pos, ?_, ?_⟩, List.mem_cons_self⟩
    · exact Method.mem_positions.2 (Method.lt_size_of_isReal hreal)
    · simp [hop, replaced?, hswitch, hb, htarget, hg, hlast, gs]

/-- The code before the switch in the dialect with ordinals. -/
def ordinalPreamble : List Step :=
  [.opcode .iconstM1, .var .istore "c", .var .aload "s", hashCode, .switch]

theorem spans_ordinalPreamble {hi : Nat} (hop : m.hasOpcode .iconstM1 pos) :
    m.Spans σ ordinalPreamble pos hi ↔
      ∃ store load switch op', hi = switch + 1 ∧ m.realAfter? pos = some store ∧
        m.code[store]? = some (.var .istore (σ.slot "c")) ∧ m.realAfter? store = some load ∧
        m.code[load]? = some (.var .aload (σ.slot "s")) ∧ Hashed m load switch ∧
        m.opcode? switch = some op' ∧ op'.isSwitch := by
  have hfirst := Method.realFrom?_of_isReal (Method.isReal_of_hasOpcode hop)
  constructor
  · rintro ⟨pos', e₁, hpos', he₁, hop₁, store, e₂, hstore, he₂, rfl, h⟩
    obtain rfl := Option.some.inj (hfirst.symm.trans hpos')
    obtain ⟨load, switch, op', rfl, hload, h⟩ := spans_hashed.1 h
    exact ⟨store, load, switch, op', rfl, hstore, he₂, hload, h⟩
  · rintro ⟨store, load, switch, op', rfl, hstore, he₂, hload, h⟩
    obtain ⟨e₁, he₁, hop₁⟩ := Method.hasOpcode_iff.1 hop
    exact ⟨pos, e₁, hfirst, he₁, hop₁, store, _, hstore, he₂, rfl,
      spans_hashed.2 ⟨load, switch, op', rfl, hload, h⟩⟩

/-- What a dispatch with ordinals ignores. -/
theorem ignore_mem_javacFindings_iff {first : Nat} :
    .ignore first last ∈ javacFindings m ↔ OrdinalDispatch m first last := by
  have hne : ordinalPreamble ≠ [] := List.cons_ne_nil _ _
  constructor
  · intro h
    obtain ⟨pos, -, h⟩ := List.mem_filterMap.1 h
    simp only [ordinalDispatch?, Option.bind_eq_bind, Option.bind_eq_some_iff] at h
    obtain ⟨u, hguard, switch, hswitch, ⟨default, count⟩, hb, ⟨cur, bs⟩, hg, last', hlast, hx⟩ := h
    cases hx
    have hop := (Option.guard_eq_some' u).1 hguard
    obtain ⟨σ, hspans, hdispatches⟩ := dispatches_of_groups (describes_ordinalDialect default)
      (advancing_ordinalDialect default) hne hswitch hb hg hlast
    obtain ⟨store, load, _, -, ⟨⟩, hstore, he, hload, he', hhashed, -⟩ :=
      (spans_ordinalPreamble hop).1 hspans
    exact ⟨σ.slot "s", σ.slot "c", default, pos, store, load, hop, hstore, he, hload, he', hhashed,
      hdispatches⟩
  · rintro ⟨s, c, default, minus, store, load, hop, hstore, he, hload, he', hhashed, h⟩
    obtain ⟨op', hop', hsw⟩ := h.opcode?
    let σ : Assignment := ⟨fun name => if name = "s" then s else c, fun _ => default, fun _ => ""⟩
    have hspans : m.Spans σ ordinalPreamble minus (first + 1) := (spans_ordinalPreamble hop).2
      ⟨store, load, first, op', rfl, hstore, he, hload, he', hhashed, hop', hsw⟩
    obtain ⟨hswitch, count, cur, bs, hb, hg, hlast⟩ :=
      groups_of_dispatches (describes_ordinalDialect default) hne hspans h
    refine List.mem_filterMap.2 ⟨minus, ?_, ?_⟩
    · exact Method.mem_positions.2 (Method.lt_size_of_isReal (Method.isReal_of_hasOpcode hop))
    · simp only [ordinalPreamble] at hswitch hg
      simp [ordinalDispatch?, hop, hswitch, hb, hg, hlast]

end Winnow.Idiom.StringSwitch

namespace Winnow

open Idiom.StringSwitch

/-- **Ignored dispatches.**  The ranges that the three filters for switches on strings ignore are
    exactly the groups of comparisons of one string with constants behind a switch on its hash
    code, one group for each distinct label besides the default: with the switch, where the
    comparisons store ordinals, and without it, where they jump into or around the bodies. -/
theorem string_dispatch_ranges (m : Method) (c : ClassInfo) (scratch : ClassScratch)
    (first last : Nat) :
    (.ignore first last ∈ (Builtin.stringSwitchJavac.run m c scratch).findings ↔
      OrdinalDispatch m first last) ∧
    (.ignore first last ∈ (Builtin.stringSwitchEcj.run m c scratch).findings ↔
      ∃ switch, first = switch + 1 ∧ JumpDispatch m switch last) ∧
    (.ignore first last ∈ (Builtin.kotlinWhenString.run m c scratch).findings ↔
      ∃ switch, first = switch + 1 ∧ SkipDispatch m switch last) := by
  refine ⟨ignore_mem_javacFindings_iff, ?_, ?_⟩
  · exact ignore_mem_replaced_iff describes_jumpDialect advancing_jumpDialect
  · exact ignore_mem_replaced_iff describes_skipDialect advancing_skipDialect

/-- A dispatch that stores ordinals, with two constants of one hash code.  A jump away ends its
    first group, the default label the second one. -/
def storingDispatch : Method where
  name := "m"
  desc := "(Ljava/lang/String;)V"
  code := #[.plain .iconstM1, .var .istore 2, .var .aload 1,
    .call .invokeVirtual "java/lang/String" "hashCode" "()I" false,
    .lookupSwitch ⟨0⟩ [97, 98] [⟨1⟩, ⟨2⟩], .label ⟨1⟩,
    .var .aload 1, .constant (.string "a"),
    .call .invokeVirtual "java/lang/String" "equals" "(Ljava/lang/Object;)Z" false,
    .jump .ifEq ⟨3⟩, .plain .iconst0, .var .istore 2, .label ⟨3⟩,
    .var .aload 1, .constant (.string "\x00a"),
    .call .invokeVirtual "java/lang/String" "equals" "(Ljava/lang/Object;)Z" false,
    .jump .ifEq ⟨0⟩, .plain .iconst1, .var .istore 2, .jump .goto ⟨0⟩, .label ⟨2⟩,
    .var .aload 1, .constant (.string "b"),
    .call .invokeVirtual "java/lang/String" "equals" "(Ljava/lang/Object;)Z" false,
    .jump .ifEq ⟨0⟩, .push 0x10 2, .var .istore 2, .label ⟨0⟩, .plain .vreturn]
  placed_nodup := by decide
  mentioned_placed := by decide

/-- The dispatch ends with its second group, and not before. -/
theorem string_dispatch_ranges_storing :
    OrdinalDispatch storingDispatch 4 26 ∧ ¬ OrdinalDispatch storingDispatch 4 19 := by
  constructor
  · exact (string_dispatch_ranges storingDispatch { name := "C" } {} 4 26).1.1 (by decide +kernel)
  · intro h
    have hmem := (string_dispatch_ranges storingDispatch { name := "C" } {} 4 19).1.2 h
    revert hmem
    decide +kernel

end Winnow
