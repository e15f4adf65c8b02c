/-
  Ways into the default arm of a switch.

  A default arm that only throws is ignored when no instruction but the switch names its
  label and control does not fall into it.

  * `Method.Enters` are the branches from outside of a range to an instruction in it,
    `Method.LeadsInto` the labels from which such an instruction is reached;
  * `EnteredByDefaultOnly` says that neither a branch nor a handler leads into a range, but
    for the default of the switch;
  * labels are compared by name, so that another label within the arm, or right before it,
    is a way in that is not noticed.  `NoOtherLabel` says that no instruction names one.
    Handlers are not looked at.
-/
import Winnow.Proofs.Findings.Replacements
import Winnow.Proofs.Pattern.Spans
import Winnow.Proofs.Report.Coalescing

namespace Winnow

namespace Method

/-- The branch of an instruction outside of the range leads to one in it. -/
def Enters (m : Method) (r : Range) (b : BranchRef) : Prop :=
  ¬ r.Covers b.instruction ∧ ∃ pos, m.LeadsTo b pos ∧ r.Covers pos

/-- The first real instruction from the label on lies in the range. -/
def LeadsInto (m : Method) (r : Range) (l : Label) : Prop :=
  ∃ pos, m.target? l = some pos ∧ r.Covers pos

/-- No handler starts in the range. -/
def NoHandlerIn (m : Method) (r : Range) : Prop :=
  ∀ t ∈ m.tries, ¬ m.LeadsInto r t.handler

/-- There is no other branch into the range than this one. -/
def OnlyEntry (m : Method) (r : Range) (b : BranchRef) : Prop :=
  ∀ b', m.Enters r b' → b' = b

end Method

/-- The default of the switch is the only branch into the range, and no handler starts
    there. -/
structure EnteredByDefaultOnly (m : Method) (switch : Nat) (r : Range) : Prop where
  branches : m.OnlyEntry r ⟨switch, 0⟩
  handlers : m.NoHandlerIn r

/-- No instruction outside of the range names a label that leads into it, but for the label
    `default`. -/
def NoOtherLabel (m : Method) (default : Label) (r : Range) : Prop :=
  ∀ pos e, m.code[pos]? = some e → ¬ r.Covers pos →
    ∀ l ∈ e.targets, m.LeadsInto r l → l = default

namespace Idiom.DefaultArm

variable {m : Method} {switch start last pos : Nat} {e : Entry} {l default : Label}
  {cases : List Label} {r : Range} {b : BranchRef} {op : Opcode}

/-- What is known of the ways to the label: only the switch names it, and the instruction
    before it ends the flow. -/
theorem of_reachedOnlyFrom (h : reachedOnlyFrom m switch l) (hl : m.resolve? l = some start) :
    (∀ pos e, m.code[pos]? = some e → l ∈ e.targets → pos = switch) ∧
      ∃ before op, m.realBefore? start = some before ∧ m.opcode? before = some op ∧
        op.endsFlow := by
  simp only [reachedOnlyFrom, hl, Bool.and_eq_true, List.all_eq_true, Option.any_some] at h
  obtain ⟨hnamed, hfalls⟩ := h
  constructor
  · intro pos e he hmem
    have := hnamed (e, pos) (List.mem_zipIdx_iff_getElem?.2 (by simpa using he))
    simpa [hmem] using this
  · rw [Option.any_eq_true] at hfalls
    obtain ⟨op, hop, hends⟩ := hfalls
    obtain ⟨before, hbefore, hop⟩ := Option.bind_eq_some_iff.1 hop
    exact ⟨before, op, hbefore, hop, hends⟩

/-- Both arms that throw start with an instruction and are free of switches. -/
theorem armEnd?_cases (h : armEnd? m start = some last) :
    (∃ first, m.realFrom? start = some first ∧ first ≤ last) ∧
      m.FreeOf .tableSwitch start (last + 1) ∧ m.FreeOf .lookupSwitch start (last + 1) := by
  have hspans : ∃ σ s steps, m.Spans σ (s :: steps) start (last + 1) ∧
      (s :: steps).any (Step.admits .tableSwitch) = false ∧
      (s :: steps).any (Step.admits .lookupSwitch) = false := by
    rw [armEnd?, Option.orElse_eq_orElse, Option.orElse_eq_or, Option.or_eq_some_iff] at h
    rcases h with h | ⟨-, h⟩
    · exact ⟨_, _, _, Method.spans_of_matched? h, by decide, by decide⟩
    · exact ⟨_, _, _, Method.spans_of_matched? h, by decide, by decide⟩
  obtain ⟨σ, s, steps, hspans, htable, hlookup⟩ := hspans
  refine ⟨?_, hspans.freeOf htable, hspans.freeOf hlookup⟩
  obtain ⟨first, -, hfirst, -, -, hrest⟩ := hspans
  exact ⟨first, hfirst, Nat.le_of_succ_le_succ hrest.le⟩

/-- A switch does not stand in an arm that throws. -/
theorem not_covers_switch (h : armEnd? m start = some last) (he : m.code[switch]? = some e)
    (hs : e.switch?.isSome) : ¬ Range.Covers ⟨start, last⟩ switch := by
  rintro ⟨hlo, hhi⟩
  obtain ⟨-, htable, hlookup⟩ := armEnd?_cases h
  cases e with
  | tableSwitch =>
    exact htable.2 switch hlo (Nat.lt_succ_of_le hhi) (Method.opcode?_of_entry he)
  | lookupSwitch =>
    exact hlookup.2 switch hlo (Nat.lt_succ_of_le hhi) (Method.opcode?_of_entry he)
  | _ => cases hs

/-! ## Branches into an arm -/

/-- The default of the switch leads into its arm. -/
theorem enters_default (he : m.code[switch]? = some e) (hs : e.switch? = some (default, cases))
    (hstart : m.resolve? default = some start) (h : armEnd? m start = some last) :
    m.Enters ⟨start, last⟩ ⟨switch, 0⟩ := by
  refine ⟨not_covers_switch h he (by rw [hs]; rfl), ?_⟩
  obtain ⟨⟨first, hfirst, hle⟩, -⟩ := armEnd?_cases h
  have htarget : m.target? default = some first := by
    rw [Method.target?, hstart, Option.bind_some, hfirst]
  exact ⟨first, Method.leadsTo_default he hs htarget,
    (Method.realFrom?_eq_some_iff.1 hfirst).1, hle⟩

/-- Control does not fall into a range whose label has an end of the flow before it: the
    instruction that would fall into it is the closest one before the label. -/
theorem not_falls_into {before : Nat} (hbefore : m.realBefore? start = some before)
    (hop : m.opcode? before = some op) (hends : op.endsFlow) (he : m.code[pos]? = some e)
    {op' : Opcode} (hop' : e.opcode? = some op') (hfalls : op'.endsFlow = false)
    (hout : ¬ Range.Covers ⟨start, last⟩ pos) {next : Nat}
    (hnext : m.realFrom? (pos + 1) = some next) : ¬ Range.Covers ⟨start, last⟩ next := by
  intro hin
  rw [Range.covers_mk] at hout hin
  obtain ⟨hle, -, hnone⟩ := Method.realFrom?_eq_some_iff.1 hnext
  have hlt : pos < start := by omega
  have hclosest : m.realBefore? start = some pos := by
    refine Method.realBefore?_eq_some_iff.2 ⟨hlt, Method.isReal_of_opcode he hop', ?_⟩
    intro q hq hq'
    exact hnone q hq (Nat.lt_of_lt_of_le hq' hin.1)
  obtain rfl := Option.some.inj (hbefore.symm.trans hclosest)
  rw [Method.opcode?_of_entry he, hop'] at hop
  cases hop
  rw [hends] at hfalls
  cases hfalls

/-- Without another label that leads there, the arm is entered by the default only: it is
    not fallen into, and no other instruction names the label of the default. -/
theorem eq_default_of_enters (hreached : reachedOnlyFrom m switch default)
    (he : m.code[switch]? = some e) (hs : e.switch? = some (default, cases))
    (hstart : m.resolve? default = some start) (hlabels : NoOtherLabel m default ⟨start, last⟩)
    (hb : m.Enters ⟨start, last⟩ b) : b = ⟨switch, 0⟩ := by
  obtain ⟨hnamed, before, op, hbefore, hop, hends⟩ := of_reachedOnlyFrom hreached hstart
  obtain ⟨p, n⟩ := b
  obtain ⟨hout, pos, ⟨target, hmem, hpos⟩, hin⟩ := hb
  rcases Method.branches_cases hmem with ⟨e', op', he', hop', hfalls, -, rfl⟩ |
    ⟨op', l, he', htarget, rfl⟩ | ⟨e', l, he', hs', hl, htarget⟩
  · exact absurd hin (not_falls_into hbefore hop hends he' hop' hfalls hout hpos)
  · -- a jump that names the label of the default is not a switch
    have hl : l = default := hlabels p _ he' hout l (List.mem_singleton_self l)
      ⟨pos, by rw [Method.target?, htarget, Option.bind_some, hpos], hin⟩
    obtain rfl := hnamed p _ he' (hl ▸ List.mem_singleton_self l)
    cases he.symm.trans he'
    cases hs
  · have hl' : l = default := hlabels p _ he' hout l (List.mem_of_getElem? hl)
      ⟨pos, by rw [Method.target?, htarget, Option.bind_some, hpos], hin⟩
    subst hl'
    obtain rfl := hnamed p _ he' (List.mem_of_getElem? hl)
    cases he.symm.trans he'
    -- the labels of a switch are distinct, and its default is the first
    have hfirst : e.targets[0]? = some l := by
      rw [Method.targets_of_switch? hs, List.eraseDups_cons]; rfl
    have hnodup : e.targets.Nodup := by
      rw [Method.targets_of_switch? hs]
      exact List.nodup_eraseDups _
    have hn : n < e.targets.length := (List.getElem?_eq_some_iff.1 hl).1
    obtain rfl : n = 0 := (List.getElem?_inj hn hnodup).1 (hl.trans hfirst.symm)
    rfl

/-- A label that leads into the arm is a branch into it, and only the default may be one. -/
theorem eq_default_of_targets (he : m.code[switch]? = some e)
    (hs : e.switch? = some (default, cases)) (h : m.OnlyEntry r ⟨switch, 0⟩) {e' : Entry}
    (he' : m.code[pos]? = some e') (hout : ¬ r.Covers pos) (hl : l ∈ e'.targets)
    (hinto : m.LeadsInto r l) : l = default := by
  obtain ⟨q, htarget, hin⟩ := hinto
  obtain ⟨n, hleads, hswitch, hjump⟩ := Method.exists_leadsTo he' hl htarget
  cases h ⟨pos, n⟩ ⟨hout, q, hleads, hin⟩
  cases he.symm.trans he'
  have hfirst : e.targets[0]? = some default := by
    rw [Method.targets_of_switch? hs, List.eraseDups_cons]; rfl
  exact Option.some.inj ((hswitch (by rw [hs]; rfl)).symm.trans hfirst)

/-! ## The findings -/

/-- In findings that are pairs of a range and a replacement, a range followed by a replacement
    is one of the pairs. -/
theorem mem_of_infix_flatten {xss : List (List Finding)} {gs : List Group}
    (hxss : ∀ xs ∈ xss, ∃ start last pos gs, xs = [.ignore start last, .replace pos gs])
    (h : [.ignore start last, .replace switch gs] <:+: xss.flatten) :
    [.ignore start last, .replace switch gs] ∈ xss := by
  induction xss with
  | nil => simp at h
  | cons xs xss ih =>
    obtain ⟨⟨start', last', pos, gs', rfl⟩, hrest⟩ := List.forall_mem_cons.1 hxss
    rw [List.flatten_cons, List.cons_append, List.cons_append, List.nil_append,
      List.infix_cons_iff, List.infix_cons_iff] at h
    rcases h with hfirst | hsecond | h
    · simp only [List.cons_prefix_cons, List.nil_prefix, and_true] at hfirst
      obtain ⟨hrange, hreplace⟩ := hfirst
      rw [hrange, hreplace]
      exact List.mem_cons_self
    · cases (List.cons_prefix_cons.1 hsecond).1
    · exact List.mem_cons_of_mem _ (ih hrest h)

theorem of_infix_switchFindings {gs : List Group}
    (h : [.ignore start last, .replace switch gs] <:+: switchFindings m) :
    ∃ e default cases, m.code[switch]? = some e ∧ e.switch? = some (default, cases) ∧
      reachedOnlyFrom m switch default ∧ m.resolve? default = some start ∧
      armEnd? m start = some last := by
  have hmem := mem_of_infix_flatten (fun xs hxs => ?_) h
  · obtain ⟨⟨e, pos⟩, hmem, h⟩ := List.mem_filterMap.1 hmem
    obtain ⟨default, cases, start', last', hs, hreached, hstart, hlast, heq⟩ := ofSwitch?_eq_some h
    simp only [List.cons.injEq, Finding.ignore.injEq, Finding.replace.injEq] at heq
    obtain ⟨⟨rfl, rfl⟩, ⟨rfl, -⟩, -⟩ := heq
    exact ⟨e, default, cases, Method.entry_of_mem_zipIdx hmem, hs, hreached, hstart, hlast⟩
  · obtain ⟨⟨e, pos⟩, -, h⟩ := List.mem_filterMap.1 hxs
    obtain ⟨-, -, start', last', -, -, -, -, rfl⟩ := ofSwitch?_eq_some h
    exact ⟨start', last', pos, _, rfl⟩

end Idiom.DefaultArm

open Idiom.DefaultArm Builtin

/-- **When an ignored default arm has one way in.**  Whenever the arm is ignored for a switch,
    the default of the switch leads into it.  No other branch does iff no jump or switch outside
    of the arm names another label that leads there.  Hence the default is the only way in,
    handlers included, iff moreover no handler starts in the arm. -/
theorem default_arm_entered_iff (m : Method) (c : ClassInfo) (scratch : ClassScratch)
    (switch : Nat) (arm : Range) (gs : List Group)
    (h : [.ignore arm.first arm.last, .replace switch gs] <:+:
      (exhaustiveSwitch.run m c scratch).findings) :
    ∃ e default cases, m.code[switch]? = some e ∧ e.switch? = some (default, cases) ∧
      m.Enters arm ⟨switch, 0⟩ ∧
      (m.OnlyEntry arm ⟨switch, 0⟩ ↔ NoOtherLabel m default arm) ∧
      (EnteredByDefaultOnly m switch arm ↔ NoOtherLabel m default arm ∧ m.NoHandlerIn arm) := by
  obtain ⟨e, default, cases, he, hs, hreached, hstart, hlast⟩ := of_infix_switchFindings h
  have hbranches : m.OnlyEntry arm ⟨switch, 0⟩ ↔ NoOtherLabel m default arm := by
    constructor
    · exact fun honly pos e' he' hout l hl => eq_default_of_targets he hs honly he' hout hl
    · exact fun hlabels b => eq_default_of_enters hreached he hs hstart hlabels
  refine ⟨e, default, cases, he, hs, enters_default he hs hstart hlast, hbranches, ?_, ?_⟩
  · exact fun honly => ⟨hbranches.1 honly.branches, honly.handlers⟩
  · exact fun ⟨hlabels, hhandlers⟩ => ⟨hbranches.2 hlabels, hhandlers⟩

/-- The arm of the switch is entered by its default only: the labels of the cases lead behind
    it, and there is no handler. -/
theorem default_arm_entered_iff_exhaustive :
    [.ignore 2 6, .replace 1 [[⟨1, 1⟩], [⟨1, 2⟩]]] <:+:
      (exhaustiveSwitch.run exhaustiveDispatch { name := "C" } {}).findings ∧
    exhaustiveDispatch.Enters ⟨2, 6⟩ ⟨1, 0⟩ ∧ EnteredByDefaultOnly exhaustiveDispatch 1 ⟨2, 6⟩ := by
  have hfindings : (exhaustiveSwitch.run exhaustiveDispatch { name := "C" } {}).findings =
      [.ignore 2 6, .replace 1 [[⟨1, 1⟩], [⟨1, 2⟩]]] := by decide +kernel
  have hpair : [.ignore 2 6, .replace 1 [[⟨1, 1⟩], [⟨1, 2⟩]]] <:+:
      (exhaustiveSwitch.run exhaustiveDispatch { name := "C" } {}).findings :=
    hfindings ▸ List.infix_rfl
  obtain ⟨e, default, cases, he, hs, henters, -, hiff⟩ :=
    default_arm_entered_iff exhaustiveDispatch { name := "C" } {} 1 ⟨2, 6⟩ _ hpair
  cases he
  cases hs
  refine ⟨hpair, henters, hiff.2 ⟨fun pos e he hout l hl hinto => ?_, fun t ht => by cases ht⟩⟩
  have hlt : pos < 11 := Method.lt_size_of_entry he
  obtain ⟨q, hq, hin⟩ := hinto
  have hlabels : ∀ pos < 11, ∀ l ∈ (exhaustiveDispatch.code[pos]?.map Entry.targets).getD [],
      (exhaustiveDispatch.target? l).any (fun q => decide (Range.Covers ⟨2, 6⟩ q)) → l = ⟨0⟩ := by
    decide +kernel
  exact hlabels pos hlt l (by rw [he]; exact hl) (by rw [hq]; simpa using hin)

/-- A switch whose default arm only throws.  The arm has a second label, to which a test
    before the switch jumps. -/
def sharedArm : Method where
  name := "m"
  desc := "(I)I"
  code := #[.var .iload 1, .jump .ifEq ⟨2⟩, .var .iload 1, .tableSwitch 0 0 ⟨0⟩ [⟨1⟩], .label ⟨1⟩,
    .plain .iconst0, .plain .ireturn, .label ⟨0⟩, .label ⟨2⟩,
    .type .new "java/lang/IncompatibleClassChangeError", .plain .dup,
    .call .invokeSpecial "java/lang/IncompatibleClassChangeError" "<init>" "()V" false,
    .plain .athrow]
  placed_nodup := by decide
  mentioned_placed := by decide

/-- The arm is ignored, although the test leads into it. -/
theorem shared_arm_ignored :
    [.ignore 7 12, .replace 3 [[⟨3, 1⟩]]] <:+:
      (exhaustiveSwitch.run sharedArm { name := "C" } {}).findings ∧
    ¬ EnteredByDefaultOnly sharedArm 3 ⟨7, 12⟩ := by
  have hfindings : (exhaustiveSwitch.run sharedArm { name := "C" } {}).findings =
      [.ignore 7 12, .replace 3 [[⟨3, 1⟩]]] := by decide +kernel
  refine ⟨hfindings ▸ List.infix_rfl, fun h => ?_⟩
  have hleads : sharedArm.LeadsTo ⟨1, 1⟩ 9 := ⟨8, by decide +kernel, by decide⟩
  cases h.branches ⟨1, 1⟩ ⟨by decide, 9, hleads, by decide⟩

end Winnow
