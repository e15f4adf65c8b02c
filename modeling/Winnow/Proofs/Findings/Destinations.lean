/-
  Where the grouped branches of a dispatch on a string lead.

  Branches are grouped by the instruction that they count as leading to.

  * `GroupedByDestination` says that they do lead there: branches are in one group iff they
    lead to one instruction;
  * in the skipping dialect that is so for every dispatch;
  * in the jumping dialect a jump away at the end of a group of comparisons counts as
    leading to the default, wherever it goes.  All other branches lead where they should.
-/
import Winnow.Proofs.Findings.Replacements

namespace Winnow

open Grouping (SameGroup)

/-- The branches lead to one instruction. -/
def Method.SameDestination (m : Method) (b b' : BranchRef) : Prop :=
  ∃ pos, m.LeadsTo b pos ∧ m.LeadsTo b' pos

/-- Branches are in one group iff they lead to one instruction. -/
def GroupedByDestination (m : Method) (gs : List Group) : Prop :=
  ∀ b ∈ gs.flatten, ∀ b' ∈ gs.flatten, SameGroup gs b b' ↔ m.SameDestination b b'

variable {m : Method} {switch last target k : Nat} {gs : List Group} {b b' : BranchRef}

/-- Two branches that lead to the instructions they are grouped by. -/
theorem sameGroup_iff_sameDestination {bs : List (Nat × BranchRef)} (hb : b ∈ bs.map (·.2))
    (hb' : b' ∈ bs.map (·.2)) (hleads : ∀ k, (k, b) ∈ bs → m.LeadsTo b k)
    (hleads' : ∀ k, (k, b') ∈ bs → m.LeadsTo b' k) :
    SameGroup (Grouping.ofList bs).groups b b' ↔ m.SameDestination b b' := by
  rw [Grouping.sameGroup_ofList]
  constructor
  · rintro ⟨k, hk, hk'⟩
    exact ⟨k, hleads k hk, hleads' k hk'⟩
  · rintro ⟨pos, hpos, hpos'⟩
    obtain ⟨⟨k, _⟩, hk, rfl⟩ := List.mem_map.1 hb
    obtain ⟨⟨k', _⟩, hk', rfl⟩ := List.mem_map.1 hb'
    obtain rfl := hpos.unique (hleads k hk)
    obtain rfl := hpos'.unique (hleads' k' hk')
    exact ⟨pos, hk, hk'⟩

namespace Idiom.StringSwitch

/-! ## The two dialects -/

theorem JumpEdge.eq_target (h : JumpEdge m target (k, b))
    (hgoto : m.hasOpcode .goto b.instruction) : k = target := by
  rcases h with ⟨⟨⟨l, hl⟩, -⟩, -⟩ | ⟨-, -, hk⟩
  · rw [Method.hasOpcode, Method.opcode?, hl] at hgoto
    cases hgoto
  · exact hk

theorem JumpEdge.leadsTo (h : JumpEdge m target (k, b))
    (hgoto : ¬ m.hasOpcode .goto b.instruction) : m.LeadsTo b k := by
  rcases h with ⟨-, h⟩ | ⟨⟨⟨l, hl⟩, -⟩, -⟩
  · exact h
  · refine absurd ?_ hgoto
    rw [Method.hasOpcode, Method.opcode?, hl]
    rfl

/-- What a dispatch in the jumping dialect groups its branches by: jumps away by the
    instruction at the default, the others by the instruction that they lead to. -/
theorem Dispatched.keys (h : Dispatched m (JumpEdge m) switch last gs) :
    ∃ target bs, m.LeadsTo ⟨switch, 0⟩ target ∧ gs = (Grouping.ofList bs).groups ∧
      (target, ⟨switch, 0⟩) ∈ bs ∧
      (∀ k b, (k, b) ∈ bs → m.hasOpcode .goto b.instruction → k = target) ∧
      ∀ k b, (k, b) ∈ bs → ¬ m.hasOpcode .goto b.instruction → m.LeadsTo b k := by
  obtain ⟨target, bs, hswitch, hdefault, rfl, hedges⟩ := h
  refine ⟨target, _, hdefault, rfl, List.mem_cons_self, fun k b hb hgoto => ?_,
    fun k b hb hgoto => ?_⟩
  · rcases List.mem_cons.1 hb with heq | hb
    · cases heq; rfl
    · exact (hedges _ hb).1.eq_target hgoto
  · rcases List.mem_cons.1 hb with heq | hb
    · cases heq; exact hdefault
    · exact (hedges _ hb).1.leadsTo hgoto

/-- The skipping dialect looks at where both jumps of a comparison go. -/
theorem groupedByDestination_of_kotlin (h : .replace switch gs ∈ kotlinFindings m) :
    GroupedByDestination m gs := by
  obtain ⟨last, -, target, bs, -, hdefault, rfl, hedges⟩ := dispatched_of_kotlin h
  have hleads : ∀ b k, (k, b) ∈ (target, ⟨switch, 0⟩) :: bs → m.LeadsTo b k := by
    intro b k hb
    rcases List.mem_cons.1 hb with heq | hb
    · cases heq; exact hdefault
    · exact (hedges _ hb).1.2
  intro b hb b' hb'
  rw [(Grouping.flatten_groups_ofList _).mem_iff] at hb hb'
  exact sameGroup_iff_sameDestination hb hb' (hleads b) (hleads b')

end Idiom.StringSwitch

/-! ## The filters -/

open Idiom.StringSwitch Builtin

/-- **Grouped branches lead to one instruction, up to jumps away.**  Whenever the branches of
    a dispatch on a string are replaced, then in the skipping dialect branches are in one
    group iff they lead to the same first real instruction.  In the jumping dialect that
    holds of all branches but those of a `goto` behind a comparison: these are in the group
    of the default.  So the groups are right iff every such `goto` leads where the default
    leads. -/
theorem dispatch_groups_by_destination (m : Method) (c : ClassInfo) (scratch : ClassScratch)
    (switch : Nat) (gs : List Group) :
    (.replace switch gs ∈ (kotlinWhenString.run m c scratch).findings →
      GroupedByDestination m gs) ∧
    (.replace switch gs ∈ (stringSwitchEcj.run m c scratch).findings →
      (∀ b ∈ gs.flatten, ∀ b' ∈ gs.flatten, ¬ m.hasOpcode .goto b.instruction →
        ¬ m.hasOpcode .goto b'.instruction → (SameGroup gs b b' ↔ m.SameDestination b b')) ∧
      (∀ b ∈ gs.flatten, m.hasOpcode .goto b.instruction → SameGroup gs b ⟨switch, 0⟩) ∧
      (GroupedByDestination m gs ↔ ∀ b ∈ gs.flatten, m.hasOpcode .goto b.instruction →
        m.SameDestination b ⟨switch, 0⟩)) := by
  refine ⟨groupedByDestination_of_kotlin, fun h => ?_⟩
  obtain ⟨last, -, hd⟩ := dispatched_of_ecj h
  obtain ⟨target, bs, hdefault, rfl, hfirst, htarget, hleads⟩ := hd.keys
  simp only [(Grouping.flatten_groups_ofList bs).mem_iff]
  have haway : ∀ b ∈ bs.map (·.2), m.hasOpcode .goto b.instruction →
      SameGroup (Grouping.ofList bs).groups b ⟨switch, 0⟩ := by
    intro b hb hgoto
    obtain ⟨⟨k, _⟩, hk, rfl⟩ := List.mem_map.1 hb
    obtain rfl := htarget k _ hk hgoto
    exact Grouping.sameGroup_ofList.2 ⟨k, hk, hfirst⟩
  refine ⟨fun b hb b' hb' hgoto hgoto' => ?_, haway, fun hgrouped b hb hgoto => ?_,
    fun hgoto b hb b' hb' => ?_⟩
  · exact sameGroup_iff_sameDestination hb hb' (fun k hk => hleads k b hk hgoto)
      fun k hk => hleads k b' hk hgoto'
  · refine (hgrouped b ?_ ⟨switch, 0⟩ ?_).1 (haway b hb hgoto)
    · exact (Grouping.flatten_groups_ofList bs).mem_iff.2 hb
    · exact (Grouping.flatten_groups_ofList bs).mem_iff.2 (List.mem_map.2 ⟨_, hfirst, rfl⟩)
  · -- jumps away that lead to the default are grouped by where they lead
    have hall : ∀ b ∈ bs.map (·.2), ∀ k, (k, b) ∈ bs → m.LeadsTo b k := by
      intro b hb k hk
      by_cases hop : m.hasOpcode .goto b.instruction
      · obtain ⟨pos, hpos, hpos'⟩ := hgoto b hb hop
        obtain rfl := htarget k b hk hop
        rwa [← hpos'.unique hdefault]
      · exact hleads k b hk hop
    rw [(Grouping.flatten_groups_ofList bs).mem_iff] at hb hb'
    exact sameGroup_iff_sameDestination hb hb' (hall b hb) (hall b' hb')

/-- A dispatch in the skipping dialect. -/
def skippingDispatch : Method where
  name := "m"
  desc := "()V"
  code := #[.var .aload 1, .call .invokeVirtual "java/lang/String" "hashCode" "()I" false,
    .lookupSwitch ⟨0⟩ [120] [⟨1⟩], .label ⟨1⟩, .var .aload 1, .constant (.string "x"),
    .call .invokeVirtual "java/lang/String" "equals" "(Ljava/lang/Object;)Z" false,
    .jump .ifEq ⟨0⟩, .jump .goto ⟨2⟩, .label ⟨0⟩, .plain .vreturn, .label ⟨2⟩, .plain .vreturn]
  placed_nodup := by decide
  mentioned_placed := by decide

/-- The groups are right in the skipping dialect, and in the jumping dialect where the jump
    away goes to the default. -/
theorem dispatch_groups_by_destination_colliding :
    (.replace 2 [[⟨2, 0⟩, ⟨7, 1⟩], [⟨8, 1⟩]] ∈
        (kotlinWhenString.run skippingDispatch { name := "C" } {}).findings ∧
      GroupedByDestination skippingDispatch [[⟨2, 0⟩, ⟨7, 1⟩], [⟨8, 1⟩]]) ∧
    .replace 2 collidingGroups ∈
      (stringSwitchEcj.run collidingDispatch { name := "C" } {}).findings ∧
    GroupedByDestination collidingDispatch collidingGroups := by
  have hskip : .replace 2 [[⟨2, 0⟩, ⟨7, 1⟩], [⟨8, 1⟩]] ∈
      (kotlinWhenString.run skippingDispatch { name := "C" } {}).findings := by decide +kernel
  have hjump : .replace 2 collidingGroups ∈
      (stringSwitchEcj.run collidingDispatch { name := "C" } {}).findings := by decide +kernel
  refine ⟨⟨hskip, (dispatch_groups_by_destination _ _ _ _ _).1 hskip⟩, hjump, ?_⟩
  refine ((dispatch_groups_by_destination _ _ _ _ _).2 hjump).2.2.2 fun b hb hgoto => ?_
  have haway : ∀ b ∈ collidingGroups.flatten,
      collidingDispatch.hasOpcode .goto b.instruction → b = ⟨12, 1⟩ := by decide
  rw [haway b hb hgoto]
  exact ⟨19, ⟨18, by decide +kernel, by decide⟩, ⟨18, by decide +kernel, by decide⟩⟩

/-- A dispatch in the jumping dialect whose jump away goes to code of its own. -/
def strayDispatch : Method where
  name := "m"
  desc := "()V"
  code := #[.var .astore 1, .call .invokeVirtual "java/lang/String" "hashCode" "()I" false,
    .lookupSwitch ⟨0⟩ [120] [⟨1⟩], .label ⟨1⟩, .var .aload 1, .constant (.string "x"),
    .call .invokeVirtual "java/lang/String" "equals" "(Ljava/lang/Object;)Z" false,
    .jump .ifNe ⟨2⟩, .jump .goto ⟨3⟩, .label ⟨0⟩, .plain .vreturn, .label ⟨2⟩, .plain .vreturn,
    .label ⟨3⟩, .plain .vreturn]
  placed_nodup := by decide
  mentioned_placed := by decide

/-- The default and the jump away are in one group, and lead to different instructions. -/
theorem stray_goto_grouped_with_default :
    .replace 2 [[⟨2, 0⟩, ⟨8, 1⟩], [⟨7, 1⟩]] ∈
      (stringSwitchEcj.run strayDispatch { name := "C" } {}).findings ∧
    ¬ GroupedByDestination strayDispatch [[⟨2, 0⟩, ⟨8, 1⟩], [⟨7, 1⟩]] := by
  refine ⟨by decide +kernel, fun h => ?_⟩
  have hgroup : SameGroup [[⟨2, 0⟩, ⟨8, 1⟩], [⟨7, 1⟩]] ⟨2, 0⟩ ⟨8, 1⟩ :=
    ⟨_, List.mem_cons_self, by simp⟩
  obtain ⟨pos, hdefault, haway⟩ := (h ⟨2, 0⟩ (by simp) ⟨8, 1⟩ (by simp)).1 hgroup
  have h₁ : strayDispatch.LeadsTo ⟨2, 0⟩ 10 := ⟨9, by decide +kernel, by decide⟩
  have h₂ : strayDispatch.LeadsTo ⟨8, 1⟩ 14 := ⟨13, by decide +kernel, by decide⟩
  cases (hdefault.unique h₁).symm.trans (haway.unique h₂)

end Winnow
