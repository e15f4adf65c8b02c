/-
  Where the steps of a pattern are matched.

  * `Method.Spans` says of a pattern under an assignment which part of the method it
    matches, without a cursor.  Patterns put together match parts that adjoin;
  * `Step.admits` tells by the step alone which opcodes it can match, and `Method.Spans.freeOf`
    which opcodes a part does not have for that reason;
  * `Cursor.Continues` relates a cursor to those that matching makes of it: they stand behind
    it, and every name that it has bound keeps its value.  Hence one assignment explains all
    that was matched on the way, and `Cursor.spans_of_run` gives the parts.  The other way
    round, `Cursor.run_of_spans` says that such a part is matched.
-/
import Winnow.Proofs.Pattern.Position

namespace Winnow

/-- Whether the step can accept an instruction with this opcode. -/
def Step.admits (op : Opcode) : Step → Bool
  | any => true
  | opcode op' => op' == op
  | switch => op.isSwitch
  | var op' _ => op' == op
  | slot op' _ => op' == op
  | field op' _ _ _ => op' == op
  | call op' _ _ _ => op' == op
  | callOn ops _ _ _ => ops.contains op
  | type op' _ => op' == op
  | text _ => op == .ldc
  | jump op' _ => op' == op
  | satisfying _ => true

theorem Step.admits_of_holds {s : Step} {σ : Assignment} {e : Entry} {op : Opcode}
    (h : s.Holds σ e) (hop : e.opcode? = some op) : s.admits op := by
  cases s with
  | any => rfl
  | opcode op' => simpa [admits] using Option.some.inj (h.symm.trans hop)
  | switch =>
    obtain ⟨op', hop', hs⟩ := h
    obtain rfl := Option.some.inj (hop'.symm.trans hop)
    exact hs
  | var op' name => cases h; cases hop; simp [admits]
  | slot op' v => cases h; cases hop; simp [admits]
  | field op' o n d => obtain ⟨_, _, _, rfl, -⟩ := h; cases hop; simp [admits]
  | call op' o n d => obtain ⟨_, _, _, _, rfl, -⟩ := h; cases hop; simp [admits]
  | callOn ops r n d =>
    obtain ⟨op', hmem, _, _, _, rfl, -⟩ := h
    cases hop
    simpa [admits] using hmem
  | type op' d => obtain ⟨_, rfl, -⟩ := h; cases hop; simp [admits]
  | text v => obtain ⟨_, rfl, -⟩ := h; cases hop; rfl
  | jump op' name => cases h; cases hop; simp [admits]
  | satisfying p => rfl

/-- No instruction from `lo` on and before `hi` has this opcode. -/
def Method.FreeOf (m : Method) (op : Opcode) (lo hi : Nat) : Prop :=
  lo ≤ hi ∧ ∀ q, lo ≤ q → q < hi → m.opcode? q ≠ some op

theorem Method.FreeOf.trans {m : Method} {op : Opcode} {lo mid hi : Nat} (h : m.FreeOf op lo mid)
    (h' : m.FreeOf op mid hi) : m.FreeOf op lo hi := by
  refine ⟨Nat.le_trans h.1 h'.1, fun q hlo hhi => ?_⟩
  rcases Nat.lt_or_ge q mid with hq | hq
  · exact h.2 q hlo hq
  · exact h'.2 q hq hhi

namespace Method

variable {m : Method} {σ : Assignment} {s : Step} {steps more : List Step} {lo mid hi q : Nat}
  {op : Opcode}

/-- Under the assignment, the steps hold, one to one and in order, of the real instructions
    from `lo` on, and `hi` is the position behind the last of them. -/
def Spans (m : Method) (σ : Assignment) : List Step → Nat → Nat → Prop
  | [], lo, hi => lo = hi
  | s :: steps, lo, hi =>
    ∃ q e, m.realFrom? lo = some q ∧ m.code[q]? = some e ∧ s.Holds σ e ∧ Spans m σ steps (q + 1) hi

theorem spans_append :
    m.Spans σ (steps ++ more) lo hi ↔ ∃ mid, m.Spans σ steps lo mid ∧ m.Spans σ more mid hi := by
  induction steps generalizing lo with
  | nil => simp [Spans]
  | cons s steps ih =>
    simp only [List.cons_append, Spans, ih]
    constructor
    · rintro ⟨q, e, hq, he, hs, mid, hsteps, hmore⟩
      exact ⟨mid, ⟨q, e, hq, he, hs, hsteps⟩, hmore⟩
    · rintro ⟨mid, ⟨q, e, hq, he, hs, hsteps⟩, hmore⟩
      exact ⟨q, e, hq, he, hs, mid, hsteps, hmore⟩

theorem Spans.le (h : m.Spans σ steps lo hi) : lo ≤ hi := by
  induction steps generalizing lo with
  | nil => exact Nat.le_of_eq h
  | cons s steps ih =>
    obtain ⟨q, e, hq, -, -, hsteps⟩ := h
    have := (realFrom?_eq_some_iff.1 hq).1
    have := ih hsteps
    omega

theorem Spans.lt (h : m.Spans σ (s :: steps) lo hi) : lo < hi := by
  obtain ⟨q, e, hq, -, -, hsteps⟩ := h
  exact Nat.lt_of_le_of_lt (realFrom?_eq_some_iff.1 hq).1 hsteps.le

/-- The last instruction of a part. -/
theorem Spans.last (h : m.Spans σ (steps ++ [s]) lo (q + 1)) :
    lo ≤ q ∧ m.isReal q ∧ ∃ e, m.code[q]? = some e ∧ s.Holds σ e := by
  obtain ⟨mid, hsteps, q', e, hq, he, hs, heq⟩ := spans_append.1 h
  obtain rfl : q' = q := Nat.succ.inj heq
  obtain ⟨hle, hr, -⟩ := realFrom?_eq_some_iff.1 hq
  exact ⟨Nat.le_trans hsteps.le hle, hr, e, he, hs⟩

theorem Spans.isReal_last (h : m.Spans σ steps lo (q + 1)) (hs : steps ≠ []) :
    lo ≤ q ∧ m.isReal q := by
  rcases steps.eq_nil_or_concat' with rfl | ⟨steps, s, rfl⟩
  · exact absurd rfl hs
  · exact ⟨h.last.1, h.last.2.1⟩

/-- Two steps within a pattern match two successive instructions. -/
theorem Spans.successive {s' : Step} (h : m.Spans σ steps lo hi) (hs : [s, s'] <:+: steps) :
    ∃ p q e e', lo ≤ p ∧ q < hi ∧ m.realAfter? p = some q ∧ m.code[p]? = some e ∧ s.Holds σ e ∧
      m.code[q]? = some e' ∧ s'.Holds σ e' := by
  obtain ⟨before, after, rfl⟩ := hs
  rw [List.append_assoc] at h
  obtain ⟨mid, hbefore, p, e, hp, he, hs, q, e', hq, he', hs', hafter⟩ := spans_append.1 h
  have hle := (realFrom?_eq_some_iff.1 hp).1
  exact ⟨p, q, e, e', Nat.le_trans hbefore.le hle, hafter.le, hq, he, hs, he', hs'⟩

/-- A part has only opcodes that some step of the pattern admits. -/
theorem Spans.freeOf (h : m.Spans σ steps lo hi) (hs : steps.any (Step.admits op) = false) :
    m.FreeOf op lo hi := by
  induction steps generalizing lo with
  | nil =>
    cases h
    exact ⟨Nat.le_refl _, fun q _ _ => by omega⟩
  | cons s steps ih =>
    obtain ⟨q, e, hq, he, hh, hsteps⟩ := h
    rw [List.any_cons, Bool.or_eq_false_iff] at hs
    obtain ⟨hs, hrest⟩ := hs
    obtain ⟨hle, -, hno⟩ := realFrom?_eq_some_iff.1 hq
    refine FreeOf.trans ⟨Nat.le_succ_of_le hle, fun q' hlo hhi hop => ?_⟩ (ih hsteps hrest)
    rcases Nat.lt_or_ge q' q with hq' | hq'
    · exact hno q' hlo hq' (by simp [isReal, hop])
    · obtain rfl : q' = q := by omega
      rw [opcode?, he] at hop
      rw [Step.admits_of_holds hh hop] at hs
      cases hs

end Method

namespace Cursor

variable {m : Method} {σ : Assignment} {c c' c'' : Cursor} {s : Step} {steps : List Step}
  {p p' : Place} {op : Opcode} {q : Nat}

/-- The second cursor was made of the first by matching. -/
structure Continues (c c' : Cursor) : Prop where
  names : ∀ σ : Assignment, σ.Extends c'.bindings → σ.Extends c.bindings
  place : ∀ p', c'.place = some p' → ∃ p, c.place = some p ∧ p.next ≤ p'.next

theorem Continues.refl (c : Cursor) : Continues c c :=
  ⟨fun _ h => h, fun p' h => ⟨p', h, Nat.le_refl _⟩⟩

theorem Continues.trans (h : Continues c c') (h' : Continues c' c'') : Continues c c'' := by
  refine ⟨fun σ hσ => h.names σ (h'.names σ hσ), fun p'' hp'' => ?_⟩
  obtain ⟨p', hp', hle'⟩ := h'.place p'' hp''
  obtain ⟨p, hp, hle⟩ := h.place p' hp'
  exact ⟨p, hp, Nat.le_trans hle hle'⟩

theorem continues_step (m : Method) (c : Cursor) (s : Step) : Continues c (c.step m s) := by
  obtain ⟨_ | p, b⟩ := c
  · exact .refl _
  rcases step_cases m p b s with ⟨pos, e, b', hpos, -, hr, hstep⟩ | ⟨hstep, -⟩
  · rw [hstep]
    refine ⟨fun σ hσ => ((hr.extends_iff σ).1 hσ).1, ?_⟩
    rintro p' ⟨⟩
    exact ⟨p, rfl, Nat.le_succ_of_le (Method.realFrom?_eq_some_iff.1 hpos).1⟩
  · rw [hstep]
    exact ⟨fun σ hσ => hσ, fun p' hp' => (by cases hp')⟩

theorem continues_run (m : Method) (c : Cursor) (steps : List Step) :
    Continues c (c.run m steps) := by
  induction steps generalizing c with
  | nil => exact .refl c
  | cons s steps ih => exact (continues_step m c s).trans (ih (c.step m s))

theorem continues_passLabel (m : Method) (c : Cursor) (name : String) :
    Continues c (c.passLabel m name) := by
  obtain ⟨_ | p, b⟩ := c
  · exact .refl _
  simp only [passLabel]
  split
  · exact ⟨fun σ hσ => hσ, fun p' hp' => (by cases hp')⟩
  · split
    · refine ⟨fun σ hσ => hσ, ?_⟩
      rintro p' ⟨⟩
      exact ⟨p, rfl, Nat.le_succ _⟩
    · exact ⟨fun σ hσ => hσ, fun p' hp' => (by cases hp')⟩

/-- What a pattern has matched, under any assignment for the names bound then. -/
theorem spans_of_run (hp : c.place = some p) (hp' : (c.run m steps).place = some p')
    (hσ : σ.Extends (c.run m steps).bindings) : m.Spans σ steps p.next p'.next := by
  induction steps generalizing c p with
  | nil =>
    obtain rfl := Option.some.inj (hp.symm.trans hp')
    rfl
  | cons s steps ih =>
    obtain ⟨_, b⟩ := c
    cases hp
    rw [run_cons] at hp' hσ
    rcases step_cases m p b s with ⟨pos, e, b', hpos, he, hr, hstep⟩ | ⟨hstep, -⟩
    · have hσ' := (continues_run m _ steps).names σ hσ
      rw [hstep] at hp' hσ hσ'
      exact ⟨pos, e, hpos, he, ((hr.extends_iff σ).1 hσ').2, ih rfl hp' hσ⟩
    · rw [hstep, run_failed] at hp'
      cases hp'

theorem freeOf_run (hs : steps.any (Step.admits op) = false) (hp : c.place = some p)
    (hp' : (c.run m steps).place = some p') : m.FreeOf op p.next p'.next :=
  (spans_of_run hp hp' (Bindings.extends_assignment _)).freeOf hs

/-- The instruction matched last is the one that the last step asks for. -/
theorem holds_of_matched? (h : (c.run m (steps ++ [s])).matched? = some q) :
    ∃ σ e, m.code[q]? = some e ∧ s.Holds σ e := by
  obtain ⟨p, -, -, hp, -, -, -, hplace⟩ := exists_matches (List.concat_ne_nil s steps) h
  obtain ⟨-, -, e, he, hs⟩ := (spans_of_run hp hplace (Bindings.extends_assignment _)).last
  exact ⟨_, e, he, hs⟩

/-- What the steps hold of, under an assignment for the names bound before, is matched. -/
theorem run_of_spans {hi : Nat} (hs : steps ≠ []) (hp : c.place = some p)
    (hσ : σ.Extends c.bindings) (h : m.Spans σ steps p.next hi) :
    ∃ q, hi = q + 1 ∧ (c.run m steps).place = some ⟨q + 1, some q⟩ ∧
      σ.Extends (c.run m steps).bindings := by
  induction steps generalizing c p with
  | nil => exact absurd rfl hs
  | cons s steps ih =>
    obtain ⟨_, b⟩ := c
    cases hp
    obtain ⟨q, e, hq, he, hh, hsteps⟩ := h
    rcases step_cases m p b s with ⟨pos, e', b', hpos, he', hr, hstep⟩ | ⟨-, hno⟩
    · obtain rfl := Option.some.inj (hq.symm.trans hpos)
      obtain rfl := Option.some.inj (he.symm.trans he')
      have hσ' : σ.Extends b' := (hr.extends_iff σ).2 ⟨hσ, hh⟩
      rw [run_cons, hstep]
      cases steps with
      | nil => exact ⟨q, hsteps.symm, rfl, hσ'⟩
      | cons s' steps => exact ih (List.cons_ne_nil _ _) rfl hσ' hsteps
    · exact absurd hh (hno σ hσ q e hq he)

end Cursor

/-- A match from the start, as a part of the method. -/
theorem Method.spans_of_matched? {m : Method} {steps : List Step} {pos q : Nat}
    (h : (m.matchFrom pos steps).matched? = some q) :
    m.Spans (m.matchFrom pos steps).bindings.assignment steps pos (q + 1) := by
  obtain ⟨-, -, -, -, -, hplace⟩ := Method.exists_matches h
  exact Cursor.spans_of_run (p := ⟨pos, none⟩) rfl hplace (Bindings.extends_assignment _)

/-- A match from the start binds the names of the pattern alone. -/
theorem Method.matchFrom_of_spans {m : Method} {steps : List Step} {pos q : Nat} {σ : Assignment}
    (hs : steps ≠ []) (h : m.Spans σ steps pos (q + 1)) :
    (m.matchFrom pos steps).place = some ⟨q + 1, some q⟩ ∧
      σ.Extends (m.matchFrom pos steps).bindings := by
  have hstart : σ.Extends (Cursor.start pos).bindings :=
    ⟨fun _ _ h => (nomatch h), fun _ _ h => (nomatch h), fun _ _ h => (nomatch h)⟩
  obtain ⟨_, heq, hplace, hσ⟩ := Cursor.run_of_spans (p := ⟨pos, none⟩) hs rfl hstart h
  cases heq
  exact ⟨hplace, hσ⟩

end Winnow
