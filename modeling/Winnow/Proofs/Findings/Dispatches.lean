/-
  Findings about the branches of switches: switches on strings and default arms.

  * `Reads` lists comparisons that are read one after the other, and
    `readsToLast_groups` says that groups of comparisons are such a list, up to one
    that ends a group;
  * `Dialect.Advancing` is what a dialect has to do for the branches of its comparisons
    to be distinct: they belong to instructions that it passes.
-/
import Winnow.Idiom.DefaultArm
import Winnow.Idiom.StringSwitch
import Winnow.Proofs.Findings.Basic

namespace Winnow.Idiom

open Finding (marks_ignore_self marks_ignore_matched wellFormed_replace_ofList
  wellFormed_replace_withoutDefault)

variable {m : Method} {x : Finding}

/-! ## Switches on strings -/

namespace StringSwitch

variable {d : Dialect m} {c c' c'' : Cursor} {bs bs' : List (Nat × BranchRef)} {lo mid hi : Nat}

/-- Comparisons that are read one after the other. -/
inductive Reads (d : Dialect m) : Cursor → Cursor → List (Nat × BranchRef) → Prop
  | nil (c : Cursor) : Reads d c c []
  | cons {c c' : Cursor} {r : Comparison} {bs : List (Nat × BranchRef)} (hr : d.read c = some r)
      (h : Reads d r.cursor c' bs) : Reads d c c' (r.branches ++ bs)

/-- Comparisons up to one that is the last of its group. -/
def ReadsToLast (d : Dialect m) (c c' : Cursor) (bs : List (Nat × BranchRef)) : Prop :=
  ∃ c₁ bs₁ r, Reads d c c₁ bs₁ ∧ d.read c₁ = some r ∧ r.isLast ∧ c' = r.cursor ∧
    bs = bs₁ ++ r.branches

theorem Reads.trans (h : Reads d c c' bs) (h' : Reads d c' c'' bs') :
    Reads d c c'' (bs ++ bs') := by
  induction h with
  | nil => exact h'
  | cons hr _ ih => rw [List.append_assoc]; exact .cons hr (ih h')

theorem ReadsToLast.reads (h : ReadsToLast d c c' bs) : Reads d c c' bs := by
  obtain ⟨c₁, bs₁, r, h, hr, -, rfl, rfl⟩ := h
  have := h.trans (.cons hr (.nil _))
  rwa [List.append_nil] at this

theorem Reads.trans_toLast (h : Reads d c c' bs) (h' : ReadsToLast d c' c'' bs') :
    ReadsToLast d c c'' (bs ++ bs') := by
  obtain ⟨c₁, bs₁, r, h₁, hr, hlast, rfl, rfl⟩ := h'
  exact ⟨c₁, bs ++ bs₁, r, h.trans h₁, hr, hlast, rfl, (List.append_assoc ..).symm⟩

theorem readsToLast_group (h : group d c = some (c', bs)) : ReadsToLast d c c' bs := by
  fun_induction group d c generalizing c' bs with
  | case1 => cases h
  | case2 c r hr hlast => cases h; exact ⟨c, [], r, .nil c, hr, hlast, rfl, rfl⟩
  | case3 c r hr _ ih =>
    obtain ⟨⟨c'', bs''⟩, hg, heq⟩ := Option.map_eq_some_iff.1 h
    cases heq
    have := (Reads.cons hr (.nil _)).trans_toLast (ih hg)
    rwa [List.append_nil] at this

theorem readsToLast_groups {count : Nat} (hcount : count ≠ 0)
    (h : groups d count c = some (c', bs)) : ReadsToLast d c c' bs := by
  induction count generalizing c bs with
  | zero => exact absurd rfl hcount
  | succ count ih =>
    simp only [groups, Option.bind_eq_bind, Option.bind_eq_some_iff] at h
    obtain ⟨⟨c₁, bs₁⟩, h₁, ⟨c₂, bs₂⟩, h₂, heq⟩ := h
    cases heq
    have hfirst := readsToLast_group h₁
    cases count with
    | zero => cases h₂; rwa [List.append_nil]
    | succ count => exact hfirst.reads.trans_toLast (ih (Nat.succ_ne_zero _) h₂)

/-- Each branch is there once, and belongs to an instruction from `lo` on and before
    `hi`. -/
def Between (lo hi : Nat) (bs : List (Nat × BranchRef)) : Prop :=
  (bs.map (·.2)).Nodup ∧ ∀ b ∈ bs, lo ≤ b.2.instruction ∧ b.2.instruction < hi

theorem Between.append (h : Between lo mid bs) (h' : Between mid hi bs') (hlo : lo ≤ mid)
    (hhi : mid ≤ hi) : Between lo hi (bs ++ bs') := by
  refine ⟨?_, List.forall_mem_append.2 ⟨fun b hb => ?_, fun b hb => ?_⟩⟩
  · rw [List.map_append, List.nodup_append']
    refine ⟨h.1, h'.1, fun x hx hx' => ?_⟩
    obtain ⟨b, hb, rfl⟩ := List.mem_map.1 hx
    obtain ⟨b', hb', heq⟩ := List.mem_map.1 hx'
    have h₁ := (h.2 b hb).2
    have h₂ := (h'.2 b' hb').1
    rw [heq] at h₂
    omega
  · have := h.2 b hb; omega
  · have := h'.2 b hb; omega

/-- A dialect reads forwards, and the branches of a comparison belong to instructions
    of the comparison. -/
structure Dialect.Advancing (d : Dialect m) : Prop where
  active : ∀ {c r}, d.read c = some r → c.isActive
  reached : ∀ {c r lo}, d.read c = some r → c.From lo → r.cursor.Reached m lo
  between : ∀ {c r lo p}, d.read c = some r → c.From lo → r.cursor.place = some p →
    Between lo p.next r.branches
  behind : ∀ {c r q}, d.read c = some r → r.cursor.matched? = some q →
    r.cursor.place = some ⟨q + 1, some q⟩

theorem Reads.isActive (hd : d.Advancing) (h : Reads d c c' bs) (hc' : c'.isActive) :
    c.isActive := by
  cases h with
  | nil => exact hc'
  | cons hr _ => exact hd.active hr

theorem Reads.from (hd : d.Advancing) (h : Reads d c c' bs) (hc : c.From lo) : c'.From lo := by
  induction h with
  | nil => exact hc
  | cons hr _ ih => exact ih (hd.reached hr hc).from

/-- What one comparison keeps, a list of comparisons keeps. -/
theorem Reads.between (hd : d.Advancing) (h : Reads d c c' bs) (hc : c.From lo) {p : Place}
    (hp : c'.place = some p) : Between lo p.next bs := by
  induction h generalizing lo with
  | nil => exact ⟨List.nodup_nil, by simp⟩
  | @cons c c' r bs hr h ih =>
    have hactive : r.cursor.isActive := h.isActive hd (by simp [Cursor.isActive, hp])
    obtain ⟨p₁, hp₁⟩ := Option.isSome_iff_exists.1 hactive
    have hfrom : r.cursor.From p₁.next := by
      intro p' hp'
      cases hp₁.symm.trans hp'
      exact Nat.le_refl _
    exact (hd.between hr hc hp₁).append (ih hfrom hp) ((hd.reached hr hc).from p₁ hp₁)
      (h.from hd hfrom p hp)

theorem ReadsToLast.reached (hd : d.Advancing) (h : ReadsToLast d c c' bs) (hc : c.From lo) :
    c'.Reached m lo := by
  obtain ⟨c₁, bs₁, r, h, hr, -, rfl, -⟩ := h
  exact hd.reached hr (h.from hd hc)

theorem ReadsToLast.behind (hd : d.Advancing) (h : ReadsToLast d c c' bs) {q : Nat}
    (hq : c'.matched? = some q) : c'.place = some ⟨q + 1, some q⟩ := by
  obtain ⟨c₁, bs₁, r, -, hr, -, rfl, -⟩ := h
  exact hd.behind hr hq

/-! ### The dialects -/

theorem isActive_of_matched?_run {steps : List Step} {q : Nat}
    (h : (c.run m steps).matched? = some q) : c.isActive :=
  Cursor.isActive_of_run (Cursor.isActive_of_matched? h)

theorem place_of_matched?_run {steps : List Step} (hs : steps ≠ []) {q : Nat}
    (h : (c.run m steps).matched? = some q) : (c.run m steps).place = some ⟨q + 1, some q⟩ := by
  obtain ⟨-, -, -, -, -, -, -, hplace⟩ := Cursor.exists_matches hs h
  exact hplace

/-- A comparison ends with a jump; the one that leaves the group stands behind it. -/
theorem comparison_bounds {steps : List Step} (hs : steps ≠ []) {jump goto : Nat} {p : Place}
    (hc : c.From lo) (hjump : (c.run m steps).matched? = some jump)
    (hgoto : ((c.run m steps).run m [.opcode .goto]).matched? = some goto)
    (hp : ((c.run m steps).run m [.opcode .goto]).place = some p) :
    lo ≤ jump ∧ jump < goto ∧ goto < p.next := by
  have hfound := hc.run (m := m) hs
  have hleft := (hfound.from_matched? hjump).run (m := m) (List.cons_ne_nil (.opcode .goto) [])
  obtain ⟨p', hp', hgt, hlt, -, -⟩ := hleft.exists_place hgoto
  obtain rfl := Option.some.inj (hp.symm.trans hp')
  exact ⟨(hfound.of_matched? hjump).1, hgt, hlt⟩

theorem following_eq_leaves {default : Label} {pos : Nat} (h : following m default pos = .leaves) :
    ∃ l, m.code[pos]? = some (.jump .goto l) := by
  unfold following at h
  split at h
  · next op l he =>
    split at h
    · next hop => exact ⟨l, by rw [he, hop]⟩
    · cases h
  · split at h <;> cases h
  · cases h

theorem following_eq_default {default : Label} {pos : Nat}
    (h : following m default pos = .default) : m.code[pos]? = some (.label default) := by
  unfold following at h
  split at h
  · split at h <;> cases h
  · next l he =>
    split at h
    · next hl => rw [he, hl]
    · cases h
  · cases h

theorem readOrdinal_cases {default : Label} {r : Comparison}
    (h : readOrdinal m default c = some r) : c.isActive ∧ r.branches = [] ∧
      ∃ more, r.cursor = (c.run m ordinalComparison).run m more := by
  simp only [readOrdinal] at h
  split at h
  · cases h
  · next store hs =>
    have hactive : c.isActive := isActive_of_matched?_run hs
    split at h <;> (cases h; exact ⟨hactive, rfl, _, rfl⟩)

theorem advancing_ordinalDialect (default : Label) : (ordinalDialect m default).Advancing where
  active h := (readOrdinal_cases h).1
  reached h hc := by
    obtain ⟨-, -, more, hmore⟩ := readOrdinal_cases h
    rw [hmore]
    exact (hc.run (List.cons_ne_nil _ _)).run more
  between h _ _ := by
    rw [(readOrdinal_cases h).2.1]
    exact ⟨List.nodup_nil, by simp⟩
  behind h hq := by
    obtain ⟨-, -, more, hmore⟩ := readOrdinal_cases h
    rw [hmore, ← Cursor.run_append] at hq ⊢
    exact place_of_matched?_run (List.cons_ne_nil _ _) hq

/-- The three results: the comparison alone, with its fall through into the default, and
    with the jump behind it. -/
theorem readJump_cases {default : Label} {target : Nat} {r : Comparison}
    (h : readJump m default target c = some r) :
    ∃ jump body, (c.run m jumpComparison).matched? = some jump ∧ jumpTarget? m jump = some body ∧
      ((r.cursor = c.run m jumpComparison ∧ r.branches = [(body, ⟨jump, 1⟩)]) ∨
      (r.cursor = c.run m jumpComparison ∧ m.code[jump + 1]? = some (.label default) ∧
        r.branches = [(body, ⟨jump, 1⟩), (target, ⟨jump, 0⟩)]) ∨
      (r.cursor = (c.run m jumpComparison).run m [.opcode .goto] ∧
        ∃ goto, r.cursor.matched? = some goto ∧
          (∃ l, m.code[jump + 1]? = some (.jump .goto l)) ∧
          r.branches = [(body, ⟨jump, 1⟩), (target, ⟨goto, 1⟩)])) := by
  simp only [readJump] at h
  split at h
  · cases h
  · next jump hjump =>
    split at h
    · cases h
    · next body hbody =>
      refine ⟨jump, body, hjump, hbody, ?_⟩
      split at h
      · next hfollowing =>
        obtain ⟨goto, hgoto, rfl⟩ := Option.map_eq_some_iff.1 h
        exact Or.inr (Or.inr ⟨rfl, goto, hgoto, following_eq_leaves hfollowing, rfl⟩)
      · next hfollowing =>
        cases h; exact Or.inr (Or.inl ⟨rfl, following_eq_default hfollowing, rfl⟩)
      · cases h; exact Or.inl ⟨rfl, rfl⟩

theorem advancing_jumpDialect (default : Label) (target : Nat) :
    (jumpDialect m default target).Advancing where
  active h := by
    obtain ⟨jump, body, hjump, -⟩ := readJump_cases h
    exact isActive_of_matched?_run hjump
  reached {c r lo} h hc := by
    have hfound : (c.run m jumpComparison).Reached m lo := hc.run (List.cons_ne_nil _ _)
    obtain ⟨jump, body, -, -, ⟨hr, -⟩ | ⟨hr, -⟩ | ⟨hr, -⟩⟩ := readJump_cases h
    · rw [hr]; exact hfound
    · rw [hr]; exact hfound
    · rw [hr]; exact hfound.run _
  between {c r lo p} h hc hp := by
    have hfound : (c.run m jumpComparison).Reached m lo := hc.run (List.cons_ne_nil _ _)
    obtain ⟨jump, body, hjump, -, hcases⟩ := readJump_cases h
    obtain ⟨p', hp', hlo, hlt, -, -⟩ := hfound.exists_place hjump
    rcases hcases with ⟨hr, hbs⟩ | ⟨hr, -, hbs⟩ | ⟨hr, goto, hgoto, -, hbs⟩
    · obtain rfl := Option.some.inj ((hr ▸ hp).symm.trans hp')
      rw [hbs]
      exact ⟨by simp, by simp; omega⟩
    · obtain rfl := Option.some.inj ((hr ▸ hp).symm.trans hp')
      rw [hbs]
      exact ⟨by simp, by simp; omega⟩
    · rw [hr] at hgoto hp
      have hb := comparison_bounds (List.cons_ne_nil _ _) hc hjump hgoto hp
      rw [hbs]
      exact ⟨by simp; omega, by simp; omega⟩
  behind {c r q} h hq := by
    obtain ⟨jump, body, -, -, ⟨hr, -⟩ | ⟨hr, -⟩ | ⟨hr, -⟩⟩ := readJump_cases h
    · rw [hr] at hq ⊢; exact place_of_matched?_run (List.cons_ne_nil _ _) hq
    · rw [hr] at hq ⊢; exact place_of_matched?_run (List.cons_ne_nil _ _) hq
    · rw [hr] at hq ⊢; exact place_of_matched?_run (List.cons_ne_nil _ _) hq

/-- A comparison and the jump into the body behind it; the comparison that leads to the
    default is the last. -/
theorem readSkip_cases {default : Label} {target : Nat} {r : Comparison}
    (h : readSkip m default target c = some r) :
    ∃ jump next goto body, (c.run m skipComparison).matched? = some jump ∧
      m.code[jump]?.bind Entry.jump? = some next ∧
      r.cursor = (c.run m skipComparison).run m [.opcode .goto] ∧ r.cursor.matched? = some goto ∧
      jumpTarget? m goto = some body ∧
      ((r.isLast ∧ next = default ∧ r.branches = [(body, ⟨goto, 1⟩), (target, ⟨jump, 1⟩)]) ∨
      (r.isLast = false ∧ r.branches = [(body, ⟨goto, 1⟩)])) := by
  simp only [readSkip] at h
  split at h
  · cases h
  · next jump hjump =>
    split at h
    · next next goto hnext hgoto =>
      split at h
      · cases h
      · next body hbody =>
        refine ⟨jump, next, goto, body, hjump, hnext, ?_⟩
        split at h
        · next hd => cases h; exact ⟨rfl, hgoto, hbody, Or.inl ⟨rfl, hd, rfl⟩⟩
        · cases h; exact ⟨rfl, hgoto, hbody, Or.inr ⟨rfl, rfl⟩⟩
    · cases h

theorem advancing_skipDialect (default : Label) (target : Nat) :
    (skipDialect m default target).Advancing where
  active h := by
    obtain ⟨jump, -, -, -, hjump, -⟩ := readSkip_cases h
    exact isActive_of_matched?_run hjump
  reached h hc := by
    obtain ⟨-, -, -, -, -, -, hr, -⟩ := readSkip_cases h
    rw [hr]
    exact (hc.run (List.cons_ne_nil _ _)).run _
  between {c r lo p} h hc hp := by
    obtain ⟨jump, next, goto, body, hjump, -, hr, hgoto, -, hcases⟩ := readSkip_cases h
    rw [hr] at hgoto hp
    have hb := comparison_bounds (List.cons_ne_nil _ _) hc hjump hgoto hp
    rcases hcases with ⟨-, -, hbs⟩ | ⟨-, hbs⟩
    · rw [hbs]
      exact ⟨by simp; omega, by simp; omega⟩
    · rw [hbs]
      exact ⟨by simp, by simp; omega⟩
  behind {c r q} h hq := by
    obtain ⟨-, -, -, -, -, -, hr, -⟩ := readSkip_cases h
    rw [hr] at hq ⊢
    exact place_of_matched?_run (List.cons_ne_nil _ _) hq

/-! ### The findings -/

theorem buckets?_eq_some {pos count : Nat} {default : Label}
    (h : buckets? m pos = some (default, count)) :
    ∃ e cases, m.code[pos]? = some e ∧ e.switch? = some (default, cases) ∧ count ≠ 0 := by
  simp only [buckets?, Option.bind_eq_bind, Option.bind_eq_some_iff] at h
  obtain ⟨e, he, ⟨default', cases⟩, hs, u, hcount, heq⟩ := h
  cases heq
  exact ⟨e, cases, he, hs, by simpa using (Option.guard_eq_some' u).1 hcount⟩

theorem marks_javacFindings : ∀ x ∈ javacFindings m, x.Marks m := by
  intro x hx
  obtain ⟨pos, -, h⟩ := List.mem_filterMap.1 hx
  simp only [ordinalDispatch?, Option.bind_eq_bind, Option.bind_eq_some_iff] at h
  obtain ⟨-, -, switch, hswitch, ⟨default, count⟩, hb, ⟨c, bs⟩, hg, last, hlast, hx⟩ := h
  cases hx
  obtain ⟨-, -, -, -, hcount⟩ := buckets?_eq_some hb
  have hfrom := (Method.reached_matchFrom pos (List.cons_ne_nil _ _)).from_matched? hswitch
  exact marks_ignore_matched
    ((readsToLast_groups hcount hg).reached (advancing_ordinalDialect default) hfrom)
    (Nat.le_succ switch) hlast

/-- What it takes to replace the branches of a switch. -/
theorem replaced?_eq_some {dialect : Label → Nat → Dialect m} {xs : List Finding}
    (h : replaced? m c dialect = some xs) :
    ∃ switch default target last c' bs, c.matched? = some switch ∧
      (∃ e cases, m.code[switch]? = some e ∧ e.switch? = some (default, cases)) ∧
      m.target? default = some target ∧
      ReadsToLast (dialect default target) c c' bs ∧ c'.matched? = some last ∧
      xs = [.ignore (switch + 1) last,
        .replace switch (Grouping.ofList ((target, ⟨switch, 0⟩) :: bs)).groups] := by
  simp only [replaced?, Option.bind_eq_bind, Option.bind_eq_some_iff] at h
  obtain ⟨switch, hswitch, ⟨default, count⟩, hb, target, htarget, ⟨c', bs⟩, hg, last, hlast, hx⟩ :=
    h
  cases hx
  obtain ⟨e, cases, he, hs, hcount⟩ := buckets?_eq_some hb
  exact ⟨switch, default, target, last, c', bs, hswitch, ⟨e, cases, he, hs⟩, htarget,
    readsToLast_groups hcount hg, hlast, rfl⟩

theorem wellFormed_replaced? {dialect : Label → Nat → Dialect m} {xs : List Finding}
    (hd : ∀ default target, (dialect default target).Advancing) (hc : c.Reached m lo)
    (h : replaced? m c dialect = some xs) : ∀ x ∈ xs, x.WellFormed m := by
  obtain ⟨switch, default, target, last, c', bs, hswitch, -, -, hreads, hlast, rfl⟩ :=
    replaced?_eq_some h
  have hfrom := hc.from_matched? hswitch
  have hreached := hreads.reached (hd default target) hfrom
  refine List.forall_mem_cons.2 ⟨?_, List.forall_mem_singleton.2 ?_⟩
  · exact (marks_ignore_matched hreached (Nat.le_refl _) hlast).wellFormed
  · obtain ⟨p, hp, -, -, hsize, -⟩ := hreached.exists_place hlast
    obtain ⟨hnodup, hbounds⟩ := hreads.reads.between (hd default target) hfrom hp
    have hswitchReal := (hc.of_matched? hswitch).2
    refine wellFormed_replace_ofList hswitchReal ?_ (List.forall_mem_cons.2 ⟨?_, ?_⟩)
    · -- the branches of the comparisons belong to instructions behind the switch
      refine List.nodup_cons.2 ⟨fun hmem => ?_, hnodup⟩
      obtain ⟨b, hb, heq⟩ := List.mem_map.1 hmem
      have := (hbounds b hb).1
      rw [heq] at this
      exact Nat.lt_irrefl _ this
    · exact Method.lt_size_of_isReal hswitchReal
    · intro b hb
      have := (hbounds b hb).2
      omega

/-- Where a finding about dispatches that start with `op` comes from. -/
theorem exists_dispatch {op : Opcode} {dialect : Label → Nat → Dialect m} {x : Finding}
    (h : x ∈ (m.positions.filterMap fun pos => do
      guard (m.hasOpcode op pos)
      replaced? m (m.matchFrom pos [.var op "s", hashCode, .switch]) dialect).flatten) :
    ∃ pos xs, m.hasOpcode op pos ∧
      replaced? m (m.matchFrom pos [.var op "s", hashCode, .switch]) dialect = some xs ∧
      x ∈ xs ∧ xs <:+: (m.positions.filterMap fun pos => do
        guard (m.hasOpcode op pos)
        replaced? m (m.matchFrom pos [.var op "s", hashCode, .switch]) dialect).flatten := by
  obtain ⟨xs, hxs, hx⟩ := List.mem_flatten.1 h
  have hinfix := List.infix_of_mem_flatten hxs
  obtain ⟨pos, -, h⟩ := List.mem_filterMap.1 hxs
  obtain ⟨u, hguard, h⟩ := Option.bind_eq_some_iff.1 h
  exact ⟨pos, xs, (Option.guard_eq_some' u).1 hguard, h, hx, hinfix⟩

theorem wellFormed_ecjFindings : ∀ x ∈ ecjFindings m, x.WellFormed m := by
  intro x hx
  obtain ⟨pos, xs, -, h, hx, -⟩ := exists_dispatch (m := m) hx
  exact wellFormed_replaced? advancing_jumpDialect
    (Method.reached_matchFrom pos (List.cons_ne_nil _ _)) h x hx

theorem wellFormed_kotlinFindings : ∀ x ∈ kotlinFindings m, x.WellFormed m := by
  intro x hx
  obtain ⟨pos, xs, -, h, hx, -⟩ := exists_dispatch (m := m) hx
  exact wellFormed_replaced? advancing_skipDialect
    (Method.reached_matchFrom pos (List.cons_ne_nil _ _)) h x hx

end StringSwitch

/-! ## Default arms -/

namespace DefaultArm

theorem isSome_switch?_of_defaultsTo {l : Label} {e : Entry} (h : defaultsTo l e) :
    e.switch?.isSome := by
  cases hs : e.switch? with
  | none => simp [defaultsTo, hs] at h
  | some _ => rfl

/-- What it takes for a switch to lose its default arm. -/
theorem ofSwitch?_eq_some {pos : Nat} {e : Entry} {xs : List Finding}
    (h : ofSwitch? m pos e = some xs) :
    ∃ default cases start last, e.switch? = some (default, cases) ∧ reachedOnlyFrom m pos default ∧
      m.resolve? default = some start ∧ armEnd? m start = some last ∧
      xs = [.ignore start last, .replace pos (m.withoutDefault pos)] := by
  simp only [ofSwitch?, Option.bind_eq_bind, Option.bind_eq_some_iff] at h
  obtain ⟨⟨default, cases⟩, hs, u, hguard, start, hstart, last, hlast, -, -, h⟩ := h
  have hreached : reachedOnlyFrom m pos default := by
    have hg := (Option.guard_eq_some' u).1 hguard
    simp only [Bool.and_eq_true] at hg
    exact hg.2
  exact ⟨default, cases, start, last, hs, hreached, hstart, hlast, (Option.some.inj h).symm⟩

theorem wellFormed_switchFindings : ∀ x ∈ switchFindings m, x.WellFormed m := by
  intro x hx
  obtain ⟨xs, hxs, hx⟩ := List.mem_flatten.1 hx
  obtain ⟨⟨e, pos⟩, hmem, h⟩ := List.mem_filterMap.1 hxs
  have he := Method.entry_of_mem_zipIdx hmem
  obtain ⟨default, cases, start, last, hs, -, -, hlast, rfl⟩ := ofSwitch?_eq_some h
  refine List.forall_mem_cons.2 ⟨?_, List.forall_mem_singleton.2 ?_⟩ x hx
  · rw [armEnd?, Option.orElse_eq_orElse, Option.orElse_eq_or, Option.or_eq_some_iff] at hlast
    rcases hlast with h | ⟨-, h⟩
    · exact (marks_ignore_matched
        (Method.reached_matchFrom start (List.cons_ne_nil _ _)) (Nat.le_refl _) h).wellFormed
    · exact (marks_ignore_matched
        (Method.reached_matchFrom start (List.cons_ne_nil _ _)) (Nat.le_refl _) h).wellFormed
  · exact wellFormed_replace_withoutDefault he (by rw [hs]; rfl)

/-- What the arm that throws makes of the method: it belongs to the last test or switch
    before it that leads there. -/
theorem ofArm?_eq_some {pos : Nat} {e : Entry} {xs : List Finding} (h : ofArm? m pos e = some xs) :
    ∃ l last source e', e.placed? = some l ∧
      (m.matchFrom pos (throwNew "kotlin/NoWhenBranchMatchedException")).matched? = some last ∧
      lastWhere (fun q => m.code[q]?.any fun e => testsFor l e || defaultsTo l e) pos =
        some source ∧
      m.code[source]? = some e' ∧
      ((testsFor l e' ∧ xs = [.ignore source source, .ignore pos last]) ∨
        (defaultsTo l e' ∧
          xs = [.replace source (m.withoutDefault source), .ignore pos last])) := by
  simp only [ofArm?, Option.bind_eq_bind, Option.bind_eq_some_iff] at h
  obtain ⟨l, hl, last, hlast, source, hsource, h⟩ := h
  obtain ⟨-, hany, -⟩ := lastWhere_eq_some_iff.1 hsource
  cases he : m.code[source]? with
  | none => simp [he] at hany
  | some e' =>
    refine ⟨l, last, source, e', hl, hlast, hsource, he, ?_⟩
    simp only [he, Option.any_some, Bool.or_eq_true] at hany h
    split at h
    · next ht => cases h; exact Or.inl ⟨ht, rfl⟩
    · next ht => cases h; exact Or.inr ⟨hany.resolve_left ht, rfl⟩

theorem wellFormed_whenFindings : ∀ x ∈ whenFindings m, x.WellFormed m := by
  intro x hx
  obtain ⟨xs, hxs, hx⟩ := List.mem_flatten.1 hx
  obtain ⟨⟨e, pos⟩, hmem, h⟩ := List.mem_filterMap.1 hxs
  obtain ⟨l, last, source, e', -, hlast, -, he', hcases⟩ := ofArm?_eq_some h
  have harm : (Finding.ignore pos last).Marks m := marks_ignore_matched
    (Method.reached_matchFrom pos (List.cons_ne_nil _ _)) (Nat.le_refl _) hlast
  rcases hcases with ⟨-, rfl⟩ | ⟨hd, rfl⟩
  · exact List.forall_mem_cons.2 ⟨(marks_ignore_self (Method.lt_size_of_entry he')).wellFormed,
      List.forall_mem_singleton.2 harm.wellFormed⟩ x hx
  · exact List.forall_mem_cons.2
      ⟨wellFormed_replace_withoutDefault he' (isSome_switch?_of_defaultsTo hd),
        List.forall_mem_singleton.2 harm.wellFormed⟩ x hx

end DefaultArm

end Winnow.Idiom
