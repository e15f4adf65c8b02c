/-
  The branches that replace those of a switch.

  * `StringSwitch.ComparisonJump` and `StringSwitch.ComparisonGoto` are the jumps of a
    comparison with a constant: on its result, and right behind that one;
  * `StringSwitch.JumpEdge` and `StringSwitch.SkipEdge` are the branches that a comparison
    contributes in the two dialects, with the instructions that they are grouped by;
  * `StringSwitch.Dispatched` tells how the branches of a dispatch are replaced;
  * `Genuine` is asked of the replaced branches of every switch.
-/
import Winnow.Proofs.Findings.Competition

namespace Winnow

/-- The groups replace the branches of a switch by branches that the method has, each in one
    place. -/
structure Genuine (m : Method) (switch : Nat) (gs : List Group) : Prop where
  switch_entry : ∃ e, m.code[switch]? = some e ∧ e.switch?.isSome
  nonempty : ∀ g ∈ gs, g ≠ []
  once : gs.flatten.Nodup
  real : ∀ b ∈ gs.flatten, m.HasBranch b

namespace Idiom

variable {m : Method} {switch last target : Nat} {gs : List Group}

/-! ## Switches on strings -/

namespace StringSwitch

variable {c c' : Cursor} {op : Opcode} {l default : Label} {r : Comparison}
  {bs : List (Nat × BranchRef)} {b : Nat × BranchRef} {pos jump goto : Nat}

/-- A jump with opcode `op` on the result of a comparison of strings. -/
def ComparisonJump (m : Method) (op : Opcode) (pos : Nat) : Prop :=
  (∃ l, m.code[pos]? = some (.jump op l)) ∧
    ∃ call e, m.code[call]? = some e ∧ e.isCallOf stringClass "equals" "(Ljava/lang/Object;)Z" ∧
      m.realAfter? call = some pos

/-- A jump away right behind a jump on the result of a comparison of strings. -/
def ComparisonGoto (m : Method) (op : Opcode) (pos : Nat) : Prop :=
  (∃ l, m.code[pos]? = some (.jump .goto l)) ∧
    ∃ jump, ComparisonJump m op jump ∧ m.realAfter? jump = some pos

/-- What a comparison contributes in the jumping dialect: the edges of its jump, grouped by
    where they lead, and a jump away, which goes with the default. -/
def JumpEdge (m : Method) (target : Nat) (b : Nat × BranchRef) : Prop :=
  (ComparisonJump m .ifNe b.2.instruction ∧ m.LeadsTo b.2 b.1) ∨
    (ComparisonGoto m .ifNe b.2.instruction ∧ m.HasBranch b.2 ∧ b.1 = target)

/-- What a comparison contributes in the skipping dialect: edges of its jump and of the jump
    behind it, grouped by where they lead. -/
def SkipEdge (m : Method) (b : Nat × BranchRef) : Prop :=
  (ComparisonJump m .ifEq b.2.instruction ∨ ComparisonGoto m .ifEq b.2.instruction) ∧
    m.LeadsTo b.2 b.1

/-! ### The jumps of a comparison -/

/-- Only jumps name a label to jump to. -/
theorem entry_of_jump? (hl : m.code[pos]?.bind Entry.jump? = some l)
    (hop : ∃ e, m.code[pos]? = some e ∧ e.opcode? = some op) :
    m.code[pos]? = some (.jump op l) := by
  obtain ⟨e, he, hop⟩ := hop
  rw [he, Option.bind_some] at hl
  cases e <;> cases hl
  cases hop
  exact he

theorem jumpTarget?_eq_some {body : Nat} (h : jumpTarget? m pos = some body) :
    ∃ l, m.code[pos]?.bind Entry.jump? = some l ∧ m.target? l = some body :=
  Option.bind_eq_some_iff.1 h

theorem eq_of_accepts {expected actual : String} (hany : expected ≠ anyText)
    (h : accepts expected actual) : expected = actual := by
  simpa [accepts, hany] using h

/-- A comparison that is found ends with its jump, right behind the call that compares. -/
theorem comparisonJump_of_matched?
    (h : (c.run m (equalsConstant ++ [.opcode op])).matched? = some jump)
    (hl : m.code[jump]?.bind Entry.jump? = some l) :
    m.code[jump]? = some (.jump op l) ∧ ComparisonJump m op jump := by
  obtain ⟨p, σ, places, -, hsucc, hmatches, hlast, -⟩ :=
    Cursor.exists_matches (List.cons_ne_nil _ _) h
  cases hmatches with
  | @cons _ p₁ _ _ _ hm =>
  cases hm with
  | @cons _ p₂ _ _ _ hm =>
  cases hm with
  | @cons _ p₃ _ _ hcall hm =>
  cases hm with
  | @cons _ p₄ _ _ hjump hm =>
  cases hm
  cases hlast
  obtain ⟨-, -, -, hnext, -⟩ := hsucc
  have hentry := entry_of_jump? hl hjump
  obtain ⟨e, he, o, n, d, i, rfl, ho, hn, hd⟩ := hcall
  obtain rfl := eq_of_accepts (by decide) ho
  obtain rfl := eq_of_accepts (by decide) hn
  obtain rfl := eq_of_accepts (by decide) hd
  exact ⟨hentry, ⟨l, hentry⟩, p₃, _, he, by simp [Entry.isCallOf], hnext⟩

/-- The jump away is the next real instruction. -/
theorem goto_of_matched? {steps : List Step} (hs : steps ≠ [])
    (hjump : (c.run m steps).matched? = some jump)
    (hgoto : ((c.run m steps).run m [.opcode .goto]).matched? = some goto) :
    m.realAfter? jump = some goto ∧ ∃ e, m.code[goto]? = some e ∧ e.opcode? = some .goto := by
  obtain ⟨p, σ, places, hp, hsucc, hmatches, hlast, -⟩ :=
    Cursor.exists_matches (List.cons_ne_nil _ _) hgoto
  cases hp.symm.trans (place_of_matched?_run hs hjump)
  cases hmatches with
  | @cons _ p₁ _ _ hop hm =>
  cases hm
  cases hlast
  exact ⟨hsucc.1, hop⟩

/-! ### What the comparisons contribute -/

theorem jumpEdge_readJump (htarget : m.target? default = some target)
    (h : readJump m default target c = some r) : ∀ b ∈ r.branches, JumpEdge m target b := by
  obtain ⟨jump, body, hjump, hbody, hcases⟩ := readJump_cases h
  obtain ⟨l, hl, hbody⟩ := jumpTarget?_eq_some hbody
  obtain ⟨hentry, hcomparison⟩ := comparisonJump_of_matched? hjump hl
  have htaken : JumpEdge m target (body, ⟨jump, 1⟩) :=
    Or.inl ⟨hcomparison, Method.leadsTo_taken hentry hbody⟩
  rcases hcases with ⟨-, hbs⟩ | ⟨-, hlabel, hbs⟩ | ⟨hr, goto, hgoto, ⟨l', hleaves⟩, hbs⟩
  · rw [hbs]
    exact List.forall_mem_singleton.2 htaken
  · -- the default is placed right behind the jump
    rw [hbs]
    refine List.forall_mem_cons.2 ⟨htaken, List.forall_mem_singleton.2 (Or.inl ⟨hcomparison, ?_⟩)⟩
    refine Method.leadsTo_fallThrough hentry (by decide) ?_
    rwa [Method.target?, Method.resolve?_eq_some_iff.2 hlabel, Option.bind_some] at htarget
  · rw [hr] at hgoto
    obtain ⟨hnext, -⟩ := goto_of_matched? (List.cons_ne_nil _ _) hjump hgoto
    obtain rfl : jump + 1 = goto := by
      rw [Method.realAfter?, Method.realFrom?_of_isReal (Method.isReal_of_jump hleaves)] at hnext
      exact Option.some.inj hnext
    rw [hbs]
    refine List.forall_mem_cons.2 ⟨htaken, List.forall_mem_singleton.2 (Or.inr ⟨?_, ?_, rfl⟩)⟩
    · exact ⟨⟨l', hleaves⟩, jump, hcomparison, hnext⟩
    · exact Method.hasBranch_taken hleaves

theorem skipEdge_readSkip (htarget : m.target? default = some target)
    (h : readSkip m default target c = some r) : ∀ b ∈ r.branches, SkipEdge m b := by
  obtain ⟨jump, next, goto, body, hjump, hl, hr, hgoto, hbody, hcases⟩ := readSkip_cases h
  obtain ⟨hentry, hcomparison⟩ := comparisonJump_of_matched? hjump hl
  rw [hr] at hgoto
  obtain ⟨hnext, hop⟩ := goto_of_matched? (List.cons_ne_nil _ _) hjump hgoto
  obtain ⟨l, hl, hbody⟩ := jumpTarget?_eq_some hbody
  have hleaves := entry_of_jump? hl hop
  have hinto : SkipEdge m (body, ⟨goto, 1⟩) :=
    ⟨Or.inr ⟨⟨l, hleaves⟩, jump, hcomparison, hnext⟩, Method.leadsTo_taken hleaves hbody⟩
  rcases hcases with ⟨-, rfl, hbs⟩ | ⟨-, hbs⟩
  · rw [hbs]
    exact List.forall_mem_cons.2 ⟨hinto, List.forall_mem_singleton.2
      ⟨Or.inl hcomparison, Method.leadsTo_taken hentry htarget⟩⟩
  · rw [hbs]
    exact List.forall_mem_singleton.2 hinto

/-- What holds of the branches of every comparison holds of those of all comparisons. -/
theorem Reads.forall_branches {d : Dialect m} {P : Nat × BranchRef → Prop}
    (hd : ∀ {c r}, d.read c = some r → ∀ b ∈ r.branches, P b) (h : Reads d c c' bs) :
    ∀ b ∈ bs, P b := by
  induction h with
  | nil => simp
  | cons hr _ ih => exact List.forall_mem_append.2 ⟨hd hr, ih⟩

/-! ### Dispatches -/

/-- How the branches of the dispatch at `switch` are replaced: by its default and, in
    groups by the instruction that they count as leading to, by edges behind the switch and
    up to `last`. -/
def Dispatched (m : Method) (edge : Nat → Nat × BranchRef → Prop) (switch last : Nat)
    (gs : List Group) : Prop :=
  ∃ target bs, (∃ e, m.code[switch]? = some e ∧ e.switch?.isSome) ∧
    m.LeadsTo ⟨switch, 0⟩ target ∧
    gs = (Grouping.ofList ((target, ⟨switch, 0⟩) :: bs)).groups ∧
    ∀ b ∈ bs, edge target b ∧ switch < b.2.instruction ∧ b.2.instruction ≤ last

/-- A dispatch is ignored behind its switch, up to its last comparison, and then has its
    branches replaced. -/
theorem dispatched_of_replaced? {dialect : Label → Nat → Dialect m} {lo : Nat}
    {edge : Nat → Nat × BranchRef → Prop} {xs : List Finding}
    (hd : ∀ default target, (dialect default target).Advancing)
    (hedge : ∀ {default target}, m.target? default = some target →
      ∀ {c r}, (dialect default target).read c = some r → ∀ b ∈ r.branches, edge target b)
    (hc : c.Reached m lo) (h : replaced? m c dialect = some xs) (hx : .replace switch gs ∈ xs) :
    ∃ last, xs = [.ignore (switch + 1) last, .replace switch gs] ∧
      Dispatched m edge switch last gs := by
  obtain ⟨switch', default, target, last, c', bs, hswitch, ⟨e, cases, he, hs⟩, htarget, hreads,
    hlast, rfl⟩ := replaced?_eq_some h
  simp only [List.mem_cons, reduceCtorEq, Finding.replace.injEq, List.not_mem_nil, or_false,
    false_or] at hx
  obtain ⟨rfl, rfl⟩ := hx
  refine ⟨last, rfl, target, bs, ⟨e, he, by rw [hs]; rfl⟩, Method.leadsTo_default he hs htarget,
    rfl, fun b hb => ?_⟩
  have hplace := hreads.behind (hd default target) hlast
  obtain ⟨-, hbounds⟩ :=
    hreads.reads.between (hd default target) (hc.from_matched? hswitch) hplace
  obtain ⟨hlo, hhi⟩ := hbounds b hb
  exact ⟨hreads.reads.forall_branches (hedge htarget) b hb, hlo, Nat.le_of_lt_succ hhi⟩

theorem dispatched_of_ecj (h : .replace switch gs ∈ ecjFindings m) :
    ∃ last, [.ignore (switch + 1) last, .replace switch gs] <:+: ecjFindings m ∧
      Dispatched m (JumpEdge m) switch last gs := by
  obtain ⟨pos, xs, -, hr, hx, hinfix⟩ := exists_dispatch (m := m) h
  obtain ⟨last, rfl, hdispatched⟩ := dispatched_of_replaced? advancing_jumpDialect
    (fun ht => jumpEdge_readJump ht) (Method.reached_matchFrom pos (List.cons_ne_nil _ _)) hr hx
  exact ⟨last, hinfix, hdispatched⟩

theorem dispatched_of_kotlin (h : .replace switch gs ∈ kotlinFindings m) :
    ∃ last, [.ignore (switch + 1) last, .replace switch gs] <:+: kotlinFindings m ∧
      Dispatched m (fun _ => SkipEdge m) switch last gs := by
  obtain ⟨pos, xs, -, hr, hx, hinfix⟩ := exists_dispatch (m := m) h
  obtain ⟨last, rfl, hdispatched⟩ := dispatched_of_replaced? advancing_skipDialect
    (fun ht => skipEdge_readSkip ht) (Method.reached_matchFrom pos (List.cons_ne_nil _ _)) hr hx
  exact ⟨last, hinfix, hdispatched⟩

variable {edge : Nat → Nat × BranchRef → Prop}

theorem Dispatched.default_first (h : Dispatched m edge switch last gs) :
    ∃ g rest, gs = (⟨switch, 0⟩ :: g) :: rest := by
  obtain ⟨target, bs, -, -, rfl, -⟩ := h
  exact Grouping.groups_ofList_cons ..

/-- The branches besides the default are edges of comparisons. -/
theorem Dispatched.edge_of_mem (h : Dispatched m edge switch last gs) {b : BranchRef}
    (hb : b ∈ gs.flatten) (hne : b ≠ ⟨switch, 0⟩) :
    ∃ target k, edge target (k, b) ∧ switch < b.instruction ∧ b.instruction ≤ last := by
  obtain ⟨target, bs, -, -, rfl, hedges⟩ := h
  obtain ⟨⟨k, b'⟩, hmem, rfl⟩ := List.mem_map.1 ((Grouping.flatten_groups_ofList _).mem_iff.1 hb)
  rcases List.mem_cons.1 hmem with heq | hmem
  · cases heq; exact absurd rfl hne
  · exact ⟨target, k, hedges _ hmem⟩

theorem Dispatched.genuine (hedge : ∀ {target b}, edge target b → m.HasBranch b.2)
    (h : Dispatched m edge switch last gs) (hwf : (Finding.replace switch gs).WellFormed m) :
    Genuine m switch gs := by
  obtain ⟨-, hnonempty, honce, -⟩ := hwf
  refine ⟨?_, hnonempty, honce, fun b hb => ?_⟩
  · obtain ⟨-, -, hswitch, -⟩ := h
    exact hswitch
  · by_cases hne : b = ⟨switch, 0⟩
    · obtain ⟨target, -, -, hdefault, -⟩ := h
      rw [hne]
      exact hdefault.hasBranch
    · obtain ⟨target, k, hb, -⟩ := h.edge_of_mem hb hne
      exact hedge hb

theorem JumpEdge.hasBranch (h : JumpEdge m target b) : m.HasBranch b.2 := by
  rcases h with ⟨-, h⟩ | ⟨-, h, -⟩
  · exact h.hasBranch
  · exact h

theorem SkipEdge.hasBranch (h : SkipEdge m b) : m.HasBranch b.2 :=
  h.2.hasBranch

end StringSwitch

/-! ## Default arms -/

theorem DefaultArm.genuine (h : .replace switch gs ∈ whenFindings m ∨
    .replace switch gs ∈ switchFindings m) : Genuine m switch gs := by
  obtain ⟨rfl, e, he, hs⟩ := drops h
  obtain ⟨-, hnonempty, honce, -⟩ := Finding.wellFormed_replace_withoutDefault he hs
  exact ⟨⟨e, he, hs⟩, hnonempty, honce, fun b hb => (Method.mem_flatten_withoutDefault.1 hb).2.2⟩

end Idiom

/-! ## The filters that rewrite switches -/

open Idiom Idiom.StringSwitch Builtin

/-- **Replaced branches are real and complete.**  Whenever one of the four filters replaces
    the branches of an instruction, that is a switch, no group is empty, no branch stands in
    two places and every branch is one that its instruction has.  Where the default arm is
    dropped, the branches are exactly those of the switch besides its default.  Where a
    dispatch on a string is rewritten, its default is the first branch of the first group
    and the only branch of the switch; all others are edges of the jumps of comparisons in
    the range behind the switch that is ignored with it. -/
theorem rewritten_branches_genuine (m : Method) (c : ClassInfo) (scratch : ClassScratch)
    (switch : Nat) (gs : List Group) :
    (∀ f ∈ [stringSwitchEcj, kotlinWhen, kotlinWhenString, exhaustiveSwitch],
      .replace switch gs ∈ (f.run m c scratch).findings → Genuine m switch gs) ∧
    (∀ f ∈ [kotlinWhen, exhaustiveSwitch],
      .replace switch gs ∈ (f.run m c scratch).findings →
        ∀ b, b ∈ gs.flatten ↔ b.instruction = switch ∧ b.branch ≠ 0 ∧ m.HasBranch b) ∧
    (∀ f op, (f, op) ∈ [(stringSwitchEcj, Opcode.ifNe), (kotlinWhenString, Opcode.ifEq)] →
      .replace switch gs ∈ (f.run m c scratch).findings →
        ∃ last, [.ignore (switch + 1) last, .replace switch gs] <:+: (f.run m c scratch).findings ∧
          (∃ g rest, gs = (⟨switch, 0⟩ :: g) :: rest) ∧
          ∀ b ∈ gs.flatten, b ≠ ⟨switch, 0⟩ →
            switch < b.instruction ∧ b.instruction ≤ last ∧
              (ComparisonJump m op b.instruction ∨ ComparisonGoto m op b.instruction)) := by
  refine ⟨fun f hf h => ?_, fun f hf h b => ?_, fun f op hf h => ?_⟩
  · simp only [List.mem_cons, List.not_mem_nil, or_false] at hf
    rcases hf with rfl | rfl | rfl | rfl
    · obtain ⟨last, -, hd⟩ := dispatched_of_ecj h
      exact hd.genuine JumpEdge.hasBranch (wellFormed_ecjFindings _ h)
    · exact DefaultArm.genuine (Or.inl h)
    · obtain ⟨last, -, hd⟩ := dispatched_of_kotlin h
      exact hd.genuine SkipEdge.hasBranch (wellFormed_kotlinFindings _ h)
    · exact DefaultArm.genuine (Or.inr h)
  · simp only [List.mem_cons, List.not_mem_nil, or_false] at hf
    have hdrops : gs = m.withoutDefault switch := by
      rcases hf with rfl | rfl
      · exact (DefaultArm.drops (Or.inl h)).1
      · exact (DefaultArm.drops (Or.inr h)).1
    rw [hdrops]
    exact Method.mem_flatten_withoutDefault
  · simp only [List.mem_cons, Prod.mk.injEq, List.not_mem_nil, or_false] at hf
    rcases hf with ⟨rfl, rfl⟩ | ⟨rfl, rfl⟩
    · obtain ⟨last, hinfix, hd⟩ := dispatched_of_ecj h
      refine ⟨last, hinfix, hd.default_first, fun b hb hne => ?_⟩
      obtain ⟨target, k, hedge, hlo, hhi⟩ := hd.edge_of_mem hb hne
      exact ⟨hlo, hhi, hedge.imp (·.1) (·.1)⟩
    · obtain ⟨last, hinfix, hd⟩ := dispatched_of_kotlin h
      refine ⟨last, hinfix, hd.default_first, fun b hb hne => ?_⟩
      obtain ⟨target, k, hedge, hlo, hhi⟩ := hd.edge_of_mem hb hne
      exact ⟨hlo, hhi, hedge.1⟩

/-- A dispatch on a string with two constants of one hash code.  Its last comparison falls
    through into the default. -/
def collidingDispatch : Method where
  name := "m"
  desc := "()V"
  code := #[.var .astore 1, .call .invokeVirtual "java/lang/String" "hashCode" "()I" false,
    .lookupSwitch ⟨0⟩ [97, 98] [⟨1⟩, ⟨2⟩], .label ⟨1⟩,
    .var .aload 1, .constant (.string "a"),
    .call .invokeVirtual "java/lang/String" "equals" "(Ljava/lang/Object;)Z" false,
    .jump .ifNe ⟨3⟩,
    .var .aload 1, .constant (.string "\x00a"),
    .call .invokeVirtual "java/lang/String" "equals" "(Ljava/lang/Object;)Z" false,
    .jump .ifNe ⟨4⟩, .jump .goto ⟨0⟩, .label ⟨2⟩,
    .var .aload 1, .constant (.string "b"),
    .call .invokeVirtual "java/lang/String" "equals" "(Ljava/lang/Object;)Z" false,
    .jump .ifNe ⟨3⟩, .label ⟨0⟩, .plain .vreturn, .label ⟨3⟩, .plain .vreturn, .label ⟨4⟩,
    .plain .vreturn]
  placed_nodup := by decide
  mentioned_placed := by decide

/-- The default, reached from three places, and two bodies. -/
def collidingGroups : List Group :=
  [[⟨2, 0⟩, ⟨12, 1⟩, ⟨17, 0⟩], [⟨7, 1⟩, ⟨17, 1⟩], [⟨11, 1⟩]]

/-- A switch whose default arm only throws. -/
def exhaustiveDispatch : Method where
  name := "m"
  desc := "(I)V"
  code := #[.var .iload 1, .tableSwitch 0 2 ⟨0⟩ [⟨1⟩, ⟨2⟩, ⟨1⟩], .label ⟨0⟩,
    .type .new "java/lang/IncompatibleClassChangeError", .plain .dup,
    .call .invokeSpecial "java/lang/IncompatibleClassChangeError" "<init>" "()V" false,
    .plain .athrow, .label ⟨1⟩, .plain .vreturn, .label ⟨2⟩, .plain .vreturn]
  placed_nodup := by decide
  mentioned_placed := by decide

/-- The dispatch keeps its default beside the edges of three comparisons, and the switch
    loses its default. -/
theorem rewritten_branches_genuine_colliding :
    .replace 2 collidingGroups ∈
      (stringSwitchEcj.run collidingDispatch { name := "C" } {}).findings ∧
    Genuine collidingDispatch 2 collidingGroups ∧
    (∃ last, [.ignore 3 last, .replace 2 collidingGroups] <:+:
        (stringSwitchEcj.run collidingDispatch { name := "C" } {}).findings ∧ 12 ≤ last ∧
      (ComparisonJump collidingDispatch .ifNe 12 ∨ ComparisonGoto collidingDispatch .ifNe 12)) ∧
    .replace 1 [[⟨1, 1⟩], [⟨1, 2⟩]] ∈
      (exhaustiveSwitch.run exhaustiveDispatch { name := "C" } {}).findings ∧
    exhaustiveDispatch.HasBranch ⟨1, 2⟩ := by
  have hgs : .replace 2 collidingGroups ∈
      (stringSwitchEcj.run collidingDispatch { name := "C" } {}).findings := by decide +kernel
  have hdropped : .replace 1 [[⟨1, 1⟩], [⟨1, 2⟩]] ∈
      (exhaustiveSwitch.run exhaustiveDispatch { name := "C" } {}).findings := by decide +kernel
  obtain ⟨hgenuine, -, hcomparisons⟩ :=
    rewritten_branches_genuine collidingDispatch { name := "C" } {} 2 collidingGroups
  obtain ⟨-, hbranches, -⟩ :=
    rewritten_branches_genuine exhaustiveDispatch { name := "C" } {} 1 [[⟨1, 1⟩], [⟨1, 2⟩]]
  refine ⟨hgs, hgenuine _ (by simp) hgs, ?_, hdropped, ?_⟩
  · obtain ⟨last, hinfix, -, hedges⟩ := hcomparisons stringSwitchEcj .ifNe (by simp) hgs
    obtain ⟨-, hlast, hedge⟩ := hedges ⟨12, 1⟩ (by decide) (by decide)
    exact ⟨last, hinfix, hlast, hedge⟩
  · exact ((hbranches exhaustiveSwitch (by simp) hdropped ⟨1, 2⟩).1 (by decide)).2.2

end Winnow
