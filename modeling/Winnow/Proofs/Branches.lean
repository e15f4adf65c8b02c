/-
  Where the branches of an instruction lead.

  * `Method.HasBranch` says that a branch is one of those that the instruction has, and
    `Method.LeadsTo` follows it to the first real instruction behind its target;
  * the branches of an instruction have different numbers (`nodup_numbers_branches`), so
    that a branch leads to one instruction only (`LeadsTo.unique`);
  * the taken edge of a jump, its fall-through edge and the default of a switch lead where
    they should;
  * `branches_cases` says what every branch is: the step to the next entry, the taken edge of
    a jump, or a branch of a switch, which are numbered like the labels of the switch.
-/
import Winnow.Report.Basic
import Winnow.Proofs.Lists
import Winnow.Proofs.Navigation

namespace Winnow

theorem Opcode.endsFlow_of_isConditional {op : Opcode} (h : op.isConditional) :
    op.endsFlow = false := by
  simp only [isConditional, Bool.or_eq_true, Bool.and_eq_true, decide_eq_true_eq, beq_iff_eq] at h
  rcases h with (⟨hlo, hhi⟩ | rfl) | rfl
  · simp only [endsFlow, isExit, isReturn, isSwitch, Bool.or_eq_false_iff, Bool.and_eq_false_iff,
      decide_eq_false_iff_not, beq_eq_false_iff_ne, UInt8.le_iff_toNat_le, ne_eq,
      ← UInt8.toNat_inj] at hlo hhi ⊢
    simp only [ifEq, ifAcmpNe, ireturn, vreturn, athrow, tableSwitch, lookupSwitch, goto, gotoWide,
      ret, UInt8.toNat_ofNat] at hlo hhi ⊢
    omega
  · decide
  · decide

namespace Method

variable {m : Method} {p q pos target n : Nat} {e : Entry} {op : Opcode} {l default : Label}
  {cases : List Label} {b : BranchRef}

/-- The instruction has a branch of that number. -/
def HasBranch (m : Method) (b : BranchRef) : Prop :=
  ∃ target, ⟨b.branch, target⟩ ∈ m.branches b.instruction

/-- The real instruction at `pos` is the first that is executed after the branch. -/
def LeadsTo (m : Method) (b : BranchRef) (pos : Nat) : Prop :=
  ∃ target, ⟨b.branch, target⟩ ∈ m.branches b.instruction ∧ m.realFrom? target = some pos

theorem LeadsTo.hasBranch (h : m.LeadsTo b pos) : m.HasBranch b := by
  obtain ⟨target, hmem, -⟩ := h
  exact ⟨target, hmem⟩

/-! ## Numbers -/

theorem nodup_numbers_branches (m : Method) (pos : Nat) :
    ((m.branches pos).map (·.number)).Nodup := by
  have hnext : ((m.fallThrough pos).map (·.number)).Nodup := by
    unfold fallThrough
    split <;> simp
  unfold branches
  split
  · exact List.nodup_nil
  · split
    · exact List.nodup_nil
    · split
      · rw [List.map_map]
        have hsnd : (fun b : Branch => b.number) ∘ (fun x : Nat × Nat => (⟨x.2, x.1⟩ : Branch)) =
          Prod.snd := rfl
        rw [hsnd, List.zipIdx_map_snd]
        exact List.nodup_range'
      · split
        · next l _ =>
          have htaken : ((m.resolve? l).toList.map (⟨1, ·⟩ : Nat → Branch)).map (·.number) =
              (m.resolve? l).toList.map fun _ => 1 := List.map_map ..
          rw [List.map_append, htaken, List.nodup_append']
          refine ⟨?_, by cases m.resolve? l <;> simp, fun n hn hn' => ?_⟩
          · split
            · exact hnext
            · exact List.nodup_nil
          · -- the fall-through edge has number 0, the taken edge number 1
            obtain ⟨-, -, rfl⟩ := List.mem_map.1 hn'
            split at hn
            · unfold fallThrough at hn
              split at hn <;> simp at hn
            · cases hn
        · split
          · exact List.nodup_nil
          · exact hnext

theorem LeadsTo.unique (h : m.LeadsTo b p) (h' : m.LeadsTo b q) : p = q := by
  obtain ⟨t, ht, hp⟩ := h
  obtain ⟨t', ht', hq⟩ := h'
  have := List.inj_on_of_nodup_map (m.nodup_numbers_branches b.instruction) ht ht' rfl
  cases this
  exact Option.some.inj (hp.symm.trans hq)

/-! ## Jumps -/

theorem mem_mentioned_of_entry (he : m.code[p]? = some e) (hl : l ∈ e.mentioned) :
    l ∈ m.mentioned := by
  refine List.mem_append_left _ (List.mem_append_left _ (List.mem_flatMap.2 ⟨e, ?_, hl⟩))
  exact Array.mem_toList_iff.2 (Array.mem_of_getElem? he)

theorem taken_mem_branches (he : m.code[p]? = some (.jump op l)) (ht : m.resolve? l = some target) :
    ⟨1, target⟩ ∈ m.branches p := by
  simp [branches, he, Entry.opcode?, Entry.switch?, Entry.jump?, ht]

theorem hasBranch_taken (he : m.code[p]? = some (.jump op l)) : m.HasBranch ⟨p, 1⟩ := by
  obtain ⟨target, ht, -⟩ := exists_resolve? (mem_mentioned_of_entry he (List.mem_singleton_self l))
  exact ⟨target, taken_mem_branches he ht⟩

theorem leadsTo_taken (he : m.code[p]? = some (.jump op l)) (ht : m.target? l = some pos) :
    m.LeadsTo ⟨p, 1⟩ pos := by
  obtain ⟨target, ht, hpos⟩ := Option.bind_eq_some_iff.1 ht
  exact ⟨target, taken_mem_branches he ht, hpos⟩

theorem leadsTo_fallThrough (he : m.code[p]? = some (.jump op l)) (hop : op.isConditional)
    (hpos : m.realFrom? (p + 1) = some pos) : m.LeadsTo ⟨p, 0⟩ pos := by
  have hlt : p + 1 < m.size := by
    obtain ⟨hle, hr, -⟩ := realFrom?_eq_some_iff.1 hpos
    exact Nat.lt_of_le_of_lt hle (lt_size_of_isReal hr)
  refine ⟨p + 1, ?_, hpos⟩
  simp [branches, he, Entry.opcode?, Entry.switch?, Entry.jump?, hop, fallThrough, hlt]

/-! ## Switches -/

theorem targets_of_switch? (hs : e.switch? = some (default, cases)) :
    e.targets = (default :: cases).eraseDups := by
  cases e <;> cases hs <;> rfl

theorem mem_mentioned_of_mem_targets (h : l ∈ e.targets) : l ∈ e.mentioned := by
  cases e <;> simp only [Entry.targets, Entry.mentioned, List.mem_eraseDups, List.not_mem_nil] at h ⊢
  all_goals exact h

theorem isSome_resolve?_of_mem_targets (he : m.code[p]? = some e) :
    ∀ l ∈ e.targets, (m.resolve? l).isSome := by
  intro l hl
  obtain ⟨target, ht, -⟩ :=
    exists_resolve? (mem_mentioned_of_entry he (mem_mentioned_of_mem_targets hl))
  exact Option.isSome_of_eq_some ht

/-- The branches of a switch go to the places of its labels, numbered from 0. -/
theorem branches_of_switch (he : m.code[p]? = some e) (hs : e.switch?.isSome) :
    m.branches p = (e.targets.filterMap m.resolve?).zipIdx.map fun (target, n) => ⟨n, target⟩ := by
  obtain ⟨⟨default, cases⟩, hs⟩ := Option.isSome_iff_exists.1 hs
  obtain ⟨op, hop⟩ : ∃ op, e.opcode? = some op := by
    cases e <;> simp [Entry.switch?, Entry.opcode?] at hs ⊢
  simp only [branches, he, hop, hs]

/-- The branches of a switch are numbered like its labels. -/
theorem mem_branches_of_switch (he : m.code[p]? = some e) (hs : e.switch?.isSome) :
    ⟨n, target⟩ ∈ m.branches p ↔ ∃ l, e.targets[n]? = some l ∧ m.resolve? l = some target := by
  have hmem : ⟨n, target⟩ ∈ m.branches p ↔
      (target, n) ∈ (e.targets.filterMap m.resolve?).zipIdx := by
    simp only [branches_of_switch he hs, List.mem_map, Prod.exists, Branch.mk.injEq]
    constructor
    · rintro ⟨target', n', h, rfl, rfl⟩
      exact h
    · intro h
      exact ⟨target, n, h, rfl, rfl⟩
  rw [hmem, List.mem_zipIdx_iff_getElem?,
    List.getElem?_filterMap_of_isSome (isSome_resolve?_of_mem_targets he), Option.bind_eq_some_iff]

/-- The branches of a switch, with the default in front. -/
theorem default_mem_branches (he : m.code[p]? = some e) (hs : e.switch? = some (default, cases))
    (ht : m.resolve? default = some target) : ⟨0, target⟩ ∈ m.branches p := by
  have hfirst : e.targets[0]? = some default := by
    rw [targets_of_switch? hs, List.eraseDups_cons]; rfl
  exact (mem_branches_of_switch he (by rw [hs]; rfl)).2 ⟨default, hfirst, ht⟩

theorem leadsTo_default (he : m.code[p]? = some e) (hs : e.switch? = some (default, cases))
    (ht : m.target? default = some pos) : m.LeadsTo ⟨p, 0⟩ pos := by
  obtain ⟨target, ht, hpos⟩ := Option.bind_eq_some_iff.1 ht
  exact ⟨target, default_mem_branches he hs ht, hpos⟩

/-! ## All branches -/

/-- The three sorts of branches: to the next entry, which an instruction that ends the flow
    does not have, the taken edge of a jump, and those of a switch. -/
theorem branches_cases (h : ⟨n, target⟩ ∈ m.branches p) :
    (∃ e op, m.code[p]? = some e ∧ e.opcode? = some op ∧ op.endsFlow = false ∧ n = 0 ∧
      target = p + 1) ∨
    (∃ op l, m.code[p]? = some (.jump op l) ∧ m.resolve? l = some target ∧ n = 1) ∨
    ∃ e l, m.code[p]? = some e ∧ e.switch?.isSome ∧ e.targets[n]? = some l ∧
      m.resolve? l = some target := by
  cases he : m.code[p]? with
  | none => simp [branches, he] at h
  | some e =>
    cases hop : e.opcode? with
    | none => simp [branches, he, hop] at h
    | some op =>
      by_cases hs : e.switch?.isSome
      · obtain ⟨l, hl, ht⟩ := (mem_branches_of_switch he hs).1 h
        exact Or.inr (Or.inr ⟨e, l, rfl, hs, hl, ht⟩)
      · have hnext : ∀ {b : Branch}, b ∈ m.fallThrough p → b = ⟨0, p + 1⟩ := by
          intro b hb
          unfold fallThrough at hb
          split at hb
          · exact List.mem_singleton.1 hb
          · cases hb
        simp only [branches, he, hop, Option.not_isSome_iff_eq_none.1 hs] at h
        cases hj : e.jump? with
        | none =>
          simp only [hj] at h
          split at h
          · cases h
          · next hends =>
            cases hnext h
            exact Or.inl ⟨e, op, rfl, hop, by simpa using hends, rfl, rfl⟩
        | some l =>
          obtain ⟨op', rfl⟩ := jump?_eq_some_iff.1 hj
          cases hop
          simp only [hj, List.mem_append, List.mem_map, Option.mem_toList] at h
          rcases h with h | ⟨t, ht, heq⟩
          · split at h
            · next hcond =>
              cases hnext h
              exact Or.inl ⟨_, op, rfl, rfl, Opcode.endsFlow_of_isConditional hcond, rfl, rfl⟩
            · cases h
          · cases heq
            exact Or.inr (Or.inl ⟨op, l, rfl, ht, rfl⟩)

/-- Every label that an instruction names is where one of its branches goes. -/
theorem exists_leadsTo (he : m.code[p]? = some e) (hl : l ∈ e.targets)
    (ht : m.target? l = some pos) :
    ∃ n, m.LeadsTo ⟨p, n⟩ pos ∧ (e.switch?.isSome → e.targets[n]? = some l) ∧
      (e.switch? = none → n = 1) := by
  by_cases hs : e.switch?.isSome
  · obtain ⟨n, hn⟩ := List.getElem?_of_mem hl
    obtain ⟨target, htarget, hpos⟩ := Option.bind_eq_some_iff.1 ht
    refine ⟨n, ⟨target, (mem_branches_of_switch he hs).2 ⟨l, hn, htarget⟩, hpos⟩, fun _ => hn, ?_⟩
    intro hnone
    rw [hnone] at hs
    cases hs
  · cases e with
    | jump op l' =>
      obtain rfl := List.mem_singleton.1 hl
      exact ⟨1, leadsTo_taken he ht, fun h => absurd h hs, fun _ => rfl⟩
    | tableSwitch | lookupSwitch => exact absurd rfl hs
    | _ => cases hl

end Method

end Winnow
