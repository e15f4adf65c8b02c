/-
  What a pattern means.

  Matching binds names as it goes: a step that meets a new name binds it, and a step
  that meets a bound name compares.  The meaning of a pattern has no such order.  An
  `Assignment` gives every name a value from the start, and a step holds of an
  instruction under it or does not.

  * `Assignment.Extends` compares an assignment with the names bound so far;
  * `Step.Holds` is what a step asks of an instruction under an assignment;
  * `NameKind` tells local variables, labels and owners apart, where all three are treated
    alike;
  * `Method.Successive` lists real instructions that follow each other;
  * `accepting_accept?`: after a step, the bindings are extended by exactly those
    assignments that extended the bindings before and under which the step holds;
  * `isActive_run_iff`: a cursor survives a pattern iff one assignment makes every
    step hold of the instruction it meets.
-/
import Winnow.Pattern.Cursor
import Winnow.Proofs.Navigation
import Winnow.Proofs.Sorted

namespace Winnow

/-- Values for all names, apart for local variables, labels and owners. -/
structure Assignment where
  slot : String → Nat
  label : String → Label
  owner : String → String

/-! ## Names and values -/

/-- The function gives every name of the list its value there. -/
def Fits {α : Type} (f : String → α) (env : List (String × α)) : Prop :=
  ∀ name v, env.lookup name = some v → f name = v

section
variable {α : Type} [DecidableEq α] {env env' : List (String × α)} {name : String} {v : α}

/-- After the name is bound or compared, the list says what it said before and that the
    name has the value. -/
theorem fits_agree? (h : Bindings.agree? env name v = some env') (f : String → α) :
    Fits f env' ↔ Fits f env ∧ f name = v := by
  unfold Bindings.agree? at h
  split at h
  · next hnone =>
    obtain rfl := Option.some.inj h
    constructor
    · intro hf
      refine ⟨fun n w hn => hf n w ?_, hf name v List.lookup_cons_self⟩
      rw [List.lookup_cons_of_ne, hn]
      rintro rfl
      rw [hn] at hnone; cases hnone
    · rintro ⟨hf, hv⟩ n w hn
      by_cases hne : n = name
      · subst hne
        rw [List.lookup_cons_self] at hn
        exact hv.trans (Option.some.inj hn)
      · rw [List.lookup_cons_of_ne hne] at hn
        exact hf n w hn
  · next bound hbound =>
    split at h
    · next heq =>
      obtain rfl := Option.some.inj h
      exact ⟨fun hf => ⟨hf, heq ▸ hf name bound hbound⟩, And.left⟩
    · cases h

/-- A name is refused only when it is bound to another value. -/
theorem not_fits_of_agree? (h : Bindings.agree? env name v = none) {f : String → α}
    (hf : Fits f env) : f name ≠ v := by
  unfold Bindings.agree? at h
  split at h
  · cases h
  · next bound hbound =>
    split at h
    · cases h
    · next hne => rw [hf name bound hbound]; exact hne

/-- The names in use grow by the one that is bound or compared. -/
theorem isSome_lookup_agree? (h : Bindings.agree? env name v = some env') (n : String) :
    (env'.lookup n).isSome ↔ (env.lookup n).isSome ∨ name = n := by
  unfold Bindings.agree? at h
  split at h
  · obtain rfl := Option.some.inj h
    by_cases hne : n = name
    · subst hne; simp
    · rw [List.lookup_cons_of_ne hne]; simp [Ne.symm hne]
  · next bound hbound =>
    split at h
    · obtain rfl := Option.some.inj h
      constructor
      · exact Or.inl
      · rintro (hs | rfl)
        · exact hs
        · simp [hbound]
    · cases h

end

/-! ## Steps -/

/-- The assignment gives every bound name the value that it is bound to. -/
structure Assignment.Extends (σ : Assignment) (b : Bindings) : Prop where
  slots : Fits σ.slot b.slots
  labels : Fits σ.label b.labels
  owners : Fits σ.owner b.owners

namespace Step

/-- What the step asks of the instruction `e`, with the names taken from an
    assignment. -/
def Holds (σ : Assignment) (e : Entry) : Step → Prop
  | any => True
  | opcode op => e.opcode? = some op
  | switch => ∃ op, e.opcode? = some op ∧ op.isSwitch
  | var op name => e = .var op (σ.slot name)
  | slot op s => e = .var op s
  | field op owner name desc =>
    ∃ o n d, e = .field op o n d ∧ accepts owner o ∧ accepts name n ∧ accepts desc d
  | call op owner name desc =>
    ∃ o n d i, e = .call op o n d i ∧ accepts owner o ∧ accepts name n ∧ accepts desc d
  | callOn ops binding name desc =>
    ∃ op ∈ ops, ∃ n d i, e = .call op (σ.owner binding) n d i ∧ accepts name n ∧ accepts desc d
  | type op desc => ∃ d, e = .type op d ∧ accepts desc d
  | text value => ∃ v, e = .constant (.string v) ∧ accepts value v
  | jump op name => e = .jump op (σ.label name)
  | satisfying p => p e

/-- The name of a local variable that the step binds or compares. -/
def slotName? : Step → Option String
  | var _ name => some name
  | _ => none

/-- The name of a label that the step binds or compares. -/
def labelName? : Step → Option String
  | jump _ name => some name
  | _ => none

/-- The name of an owner that the step binds or compares. -/
def ownerName? : Step → Option String
  | callOn _ binding _ _ => some binding
  | _ => none

end Step

/-! ## Kinds of names -/

/-- What a name stands for. -/
inductive NameKind where
  | slot
  | label
  | owner
deriving DecidableEq

/-- The values of names of this kind. -/
def NameKind.Value : NameKind → Type
  | slot => Nat
  | label => Label
  | owner => String

instance : (k : NameKind) → DecidableEq k.Value
  | .slot => inferInstanceAs (DecidableEq Nat)
  | .label => inferInstanceAs (DecidableEq Label)
  | .owner => inferInstanceAs (DecidableEq String)

def Assignment.value (σ : Assignment) : (k : NameKind) → String → k.Value
  | .slot => σ.slot
  | .label => σ.label
  | .owner => σ.owner

/-- The bound names of this kind. -/
def Bindings.env (b : Bindings) : (k : NameKind) → List (String × k.Value)
  | .slot => b.slots
  | .label => b.labels
  | .owner => b.owners

/-- The bindings with other names of this kind. -/
def Bindings.withEnv (b : Bindings) : (k : NameKind) → List (String × k.Value) → Bindings
  | .slot, env => { b with slots := env }
  | .label, env => { b with labels := env }
  | .owner, env => { b with owners := env }

/-- The name of this kind that the step binds or compares. -/
def Step.name? : NameKind → Step → Option String
  | .slot => slotName?
  | .label => labelName?
  | .owner => ownerName?

section
variable {σ : Assignment} {b : Bindings} {k k' : NameKind} {env : List (String × k.Value)}

theorem Assignment.extends_iff : σ.Extends b ↔ ∀ k, Fits (σ.value k) (b.env k) := by
  constructor
  · rintro ⟨hslots, hlabels, howners⟩ (_ | _ | _)
    · exact hslots
    · exact hlabels
    · exact howners
  · exact fun h => ⟨h .slot, h .label, h .owner⟩

theorem Bindings.env_withEnv_self : (b.withEnv k env).env k = env := by
  cases k <;> rfl

theorem Bindings.env_withEnv_of_ne (h : k' ≠ k) : (b.withEnv k env).env k' = b.env k' := by
  cases k <;> cases k' <;> first | rfl | exact absurd rfl h

end

/-! ## Accepting -/

/-- What accepting the instruction `e` does to the bindings: they are then extended by
    the assignments under which the step holds, and the step's name is in use. -/
structure Refines (b b' : Bindings) (s : Step) (e : Entry) : Prop where
  extends_iff : ∀ σ : Assignment, σ.Extends b' ↔ σ.Extends b ∧ s.Holds σ e
  names : ∀ k n, ((b'.env k).lookup n).isSome ↔ ((b.env k).lookup n).isSome ∨ s.name? k = some n

/-- The two results of a step: refined bindings, or a step that holds under no
    assignment that extends the bindings. -/
def Accepting (b : Bindings) (e : Entry) (s : Step) : Option Bindings → Prop
  | some b' => Refines b b' s e
  | none => ∀ σ : Assignment, σ.Extends b → ¬ s.Holds σ e

section
variable {b : Bindings} {e : Entry} {s : Step} {name : String} {P : Prop}

/-- A step without a name is a test that does not depend on the assignment. -/
theorem accepting_test [Decidable P] (hP : ∀ σ, s.Holds σ e ↔ P) (hno : ∀ k, s.name? k = none) :
    Accepting b e s (if P then some b else none) := by
  split
  · next h => constructor <;> simp [hP, h, hno]
  · next h => intro σ _ hh; exact h ((hP σ).1 hh)

/-- A step with a name binds or compares it among the names of its kind, and leaves those of
    the other kinds as they are. -/
theorem accepting_bind (k : NameKind) {v : k.Value} (hs : ∀ σ, s.Holds σ e ↔ σ.value k name = v)
    (hname : ∀ k', s.name? k' = if k' = k then some name else none) :
    Accepting b e s ((Bindings.agree? (b.env k) name v).map (b.withEnv k)) := by
  cases h : Bindings.agree? (b.env k) name v with
  | none =>
    intro σ hσ hh
    exact not_fits_of_agree? h (Assignment.extends_iff.1 hσ k) ((hs σ).1 hh)
  | some env =>
    refine ⟨fun σ => ?_, fun k' n => ?_⟩
    · have hfits := fits_agree? h (σ.value k)
      rw [Assignment.extends_iff, Assignment.extends_iff, hs]
      constructor
      · intro hσ
        have hnew := hσ k
        rw [Bindings.env_withEnv_self] at hnew
        refine ⟨fun k' => ?_, (hfits.1 hnew).2⟩
        by_cases hk : k' = k
        · subst hk
          exact (hfits.1 hnew).1
        · exact Bindings.env_withEnv_of_ne hk ▸ hσ k'
      · rintro ⟨hσ, hv⟩ k'
        by_cases hk : k' = k
        · subst hk
          rw [Bindings.env_withEnv_self]
          exact hfits.2 ⟨hσ k', hv⟩
        · rw [Bindings.env_withEnv_of_ne hk]
          exact hσ k'
    · by_cases hk : k' = k
      · subst hk
        rw [Bindings.env_withEnv_self, hname, if_pos rfl, Option.some.injEq]
        exact isSome_lookup_agree? h n
      · rw [Bindings.env_withEnv_of_ne hk, hname, if_neg hk]
        simp

/-- An instruction of another shape or opcode is refused under every assignment. -/
theorem accepting_none (h : ∀ σ, ¬ s.Holds σ e) : Accepting b e s none :=
  fun σ _ => h σ

end

open Step in
/-- **One step, declaratively.** -/
theorem accepting_accept? (b : Bindings) (e : Entry) (s : Step) :
    Accepting b e s (s.accept? b e) := by
  cases s with
  | any => exact accepting_test (P := True) (fun σ => Iff.rfl) (by rintro ⟨⟩ <;> rfl)
  | opcode op =>
    exact accepting_test (fun σ => by simp [Holds, Entry.hasOpcode]) (by rintro ⟨⟩ <;> rfl)
  | switch =>
    refine accepting_test (fun σ => ?_) (by rintro ⟨⟩ <;> rfl)
    cases h : e.opcode? <;> simp [Holds, h]
  | var op name =>
    cases e with
    | var op' v =>
      by_cases hop : op' = op
      · simp only [accept?, hop, ↓reduceIte]
        exact accepting_bind .slot (fun σ => ⟨by rintro ⟨⟩; rfl, by rintro rfl; rfl⟩)
          (by rintro ⟨⟩ <;> rfl)
      · simp only [accept?, hop, ↓reduceIte]
        exact accepting_none fun σ => by simp [Holds, hop]
    | _ => exact accepting_none fun σ => by simp [Holds]
  | slot op v =>
    cases e with
    | var op' v' => exact accepting_test (fun σ => by simp [Holds]) (by rintro ⟨⟩ <;> rfl)
    | _ => exact accepting_none fun σ => by simp [Holds]
  | field op owner name desc =>
    cases e with
    | field op' o n d =>
      exact accepting_test (fun σ => by simp [Holds, and_assoc]) (by rintro ⟨⟩ <;> rfl)
    | _ => exact accepting_none fun σ => by simp [Holds]
  | call op owner name desc =>
    cases e with
    | call op' o n d i =>
      exact accepting_test (fun σ => by simp [Holds, and_assoc]) (by rintro ⟨⟩ <;> rfl)
    | _ => exact accepting_none fun σ => by simp [Holds]
  | callOn ops binding name desc =>
    cases e with
    | call op' o n d i =>
      by_cases hop : op' ∈ ops ∧ accepts name n ∧ accepts desc d
      · simp only [accept?, if_pos hop]
        refine accepting_bind .owner (fun σ => ⟨?_, ?_⟩) (by rintro ⟨⟩ <;> rfl)
        · rintro ⟨op, -, n', d', i', he, -⟩
          injection he with h₁ h₂
          exact h₂.symm
        · rintro rfl
          exact ⟨op', hop.1, n, d, i, rfl, hop.2⟩
      · simp only [accept?, if_neg hop]
        refine accepting_none fun σ => ?_
        rintro ⟨op, hm, n', d', i', he, hn, hd⟩
        injection he with h₁ h₂ h₃ h₄ h₅
        exact hop ⟨h₁ ▸ hm, h₃ ▸ hn, h₄ ▸ hd⟩
    | _ => exact accepting_none fun σ => by simp [Holds]
  | type op desc =>
    cases e with
    | type op' d => exact accepting_test (fun σ => by simp [Holds, and_assoc]) (by rintro ⟨⟩ <;> rfl)
    | _ => exact accepting_none fun σ => by simp [Holds]
  | text value =>
    cases e with
    | constant c =>
      cases c with
      | string v => exact accepting_test (fun σ => by simp [Holds]) (by rintro ⟨⟩ <;> rfl)
      | _ => exact accepting_none fun σ => by simp [Holds]
    | _ => exact accepting_none fun σ => by simp [Holds]
  | jump op name =>
    cases e with
    | jump op' l =>
      by_cases hop : op' = op
      · simp only [accept?, hop, ↓reduceIte]
        exact accepting_bind .label (fun σ => ⟨by rintro ⟨⟩; rfl, by rintro rfl; rfl⟩)
          (by rintro ⟨⟩ <;> rfl)
      · simp only [accept?, hop, ↓reduceIte]
        exact accepting_none fun σ => by simp [Holds, hop]
    | _ => exact accepting_none fun σ => by simp [Holds]
  | satisfying p => exact accepting_test (fun σ => Iff.rfl) (by rintro ⟨⟩ <;> rfl)

/-! ## Patterns -/

namespace Method

/-- The positions of real instructions that follow each other, from `start` on. -/
def Successive (m : Method) : (start : Option Nat) → List Nat → Prop
  | _, [] => True
  | start, p :: ps => start = some p ∧ Successive m (m.realAfter? p) ps

instance (m : Method) : ∀ start places, Decidable (m.Successive start places)
  | _, [] => isTrue trivial
  | start, p :: ps =>
    have := instDecidableSuccessive m (m.realAfter? p) ps
    inferInstanceAs (Decidable (start = some p ∧ m.Successive (m.realAfter? p) ps))

/-- The steps hold, one to one and in order, of the entries at the positions. -/
def Matches (m : Method) (σ : Assignment) (steps : List Step) (places : List Nat) : Prop :=
  List.Forall₂ (fun s p => ∃ e, m.code[p]? = some e ∧ s.Holds σ e) steps places

end Method

/-- The assignment that gives bound names their values. -/
def Bindings.assignment (b : Bindings) : Assignment where
  slot n := (b.slot? n).getD 0
  label n := (b.label? n).getD ⟨0⟩
  owner n := (b.owner? n).getD ""

theorem Bindings.extends_assignment (b : Bindings) : b.assignment.Extends b where
  slots := fun n v h => by simp [assignment, slot?, h]
  labels := fun n v h => by simp [assignment, label?, h]
  owners := fun n v h => by simp [assignment, owner?, h]

namespace Cursor

variable {m : Method}

/-- What one step does from an active cursor. -/
theorem step_cases (m : Method) (p : Place) (b : Bindings) (s : Step) :
    (∃ pos e b', m.realFrom? p.next = some pos ∧ m.code[pos]? = some e ∧ Refines b b' s e ∧
      (⟨some p, b⟩ : Cursor).step m s = ⟨some ⟨pos + 1, some pos⟩, b'⟩) ∨
    ((⟨some p, b⟩ : Cursor).step m s = ⟨none, b⟩ ∧
      ∀ σ : Assignment, σ.Extends b → ∀ pos e, m.realFrom? p.next = some pos →
        m.code[pos]? = some e → ¬ s.Holds σ e) := by
  simp only [step, next?, Option.map_some]
  cases hpos : m.realFrom? p.next with
  | none => exact Or.inr ⟨rfl, by simp⟩
  | some pos =>
    obtain ⟨e, _, he, -⟩ := Method.isReal_iff.1 (Method.realFrom?_eq_some_iff.1 hpos).2.1
    have ha := accepting_accept? b e s
    simp only [he, Option.bind_some]
    cases hb : s.accept? b e with
    | none =>
      rw [hb] at ha
      refine Or.inr ⟨rfl, fun σ hσ pos' e' hp' he' => ?_⟩
      obtain rfl := Option.some.inj hp'
      obtain rfl := Option.some.inj (he.symm.trans he')
      exact ha σ hσ
    | some b' =>
      rw [hb] at ha
      exact Or.inl ⟨pos, e, b', rfl, he, ha, rfl⟩

theorem run_cons (c : Cursor) (s : Step) (steps : List Step) :
    c.run m (s :: steps) = (c.step m s).run m steps := rfl

theorem run_append (c : Cursor) (steps more : List Step) :
    c.run m (steps ++ more) = (c.run m steps).run m more := by
  simp [run, List.foldl_append]

theorem run_failed (b : Bindings) (steps : List Step) :
    (⟨none, b⟩ : Cursor).run m steps = ⟨none, b⟩ := by
  induction steps with
  | nil => rfl
  | cons s steps ih => rw [run_cons]; exact ih

/-- What a pattern that matches from place `p` with bindings `b` leaves: the instructions
    matched, the place behind the last of them, and bindings that say exactly that the
    steps hold. -/
structure Matched (m : Method) (p : Place) (b : Bindings) (steps : List Step)
    (places : List Nat) (c : Cursor) : Prop where
  successive : m.Successive (m.realFrom? p.next) places
  place : c.place = some (places.getLast?.elim p fun q => ⟨q + 1, some q⟩)
  extends_iff : ∀ σ : Assignment, σ.Extends c.bindings ↔ σ.Extends b ∧ m.Matches σ steps places
  names : ∀ k n, ((c.bindings.env k).lookup n).isSome ↔
    ((b.env k).lookup n).isSome ∨ n ∈ steps.filterMap (Step.name? k)

/-- Either a pattern matches, or it fails and no assignment makes its steps hold.  The
    induction is on the pattern; the invariant is that the assignments extending the
    bindings are those under which the steps so far hold. -/
theorem run_cases (m : Method) (p : Place) (b : Bindings) (steps : List Step) :
    (∃ places, Matched m p b steps places ((⟨some p, b⟩ : Cursor).run m steps)) ∨
    (((⟨some p, b⟩ : Cursor).run m steps).place = none ∧
      ∀ σ : Assignment, σ.Extends b → ∀ places, m.Successive (m.realFrom? p.next) places →
        ¬ m.Matches σ steps places) := by
  induction steps generalizing p b with
  | nil =>
    refine Or.inl ⟨[], trivial, rfl, fun σ => ?_, fun k n => ?_⟩
    · simp [run, Method.Matches]
    · simp [run]
  | cons s steps ih =>
    rw [run_cons]
    rcases step_cases m p b s with ⟨pos, e, b', hpos, he, hr, hstep⟩ | ⟨hstep, hno⟩
    · rw [hstep]
      rcases ih ⟨pos + 1, some pos⟩ b' with ⟨places, hm⟩ | ⟨hfail, hno⟩
      · refine Or.inl ⟨pos :: places, ⟨hpos, hm.successive⟩, ?_, fun σ => ?_, fun k n => ?_⟩
        · rw [hm.place, List.getLast?_cons]
          cases places.getLast? <;> rfl
        · rw [hm.extends_iff, hr.extends_iff, Method.Matches, Method.Matches, List.forall₂_cons,
            and_assoc]
          simp [he]
        · rw [hm.names, hr.names, List.mem_filterMap_cons, or_assoc]
      · refine Or.inr ⟨hfail, fun σ hσ places hs hm => ?_⟩
        cases hm with
        | @cons _ q _ qs hq hqs =>
          obtain ⟨hq', hqs'⟩ := hs
          obtain rfl := Option.some.inj (hpos.symm.trans hq')
          obtain ⟨e', he', hh⟩ := hq
          obtain rfl := Option.some.inj (he.symm.trans he')
          exact hno σ ((hr.extends_iff σ).2 ⟨hσ, hh⟩) qs hqs' hqs
    · rw [hstep, run_failed]
      refine Or.inr ⟨rfl, fun σ hσ places hs hm => ?_⟩
      cases hm with
      | cons hq _ =>
        obtain ⟨e, he, hh⟩ := hq
        exact hno σ hσ _ e hs.1 he hh

theorem successive_unique {start : Option Nat} {ps qs : List Nat} (hp : m.Successive start ps)
    (hq : m.Successive start qs) (hl : ps.length = qs.length) : ps = qs := by
  induction ps generalizing start qs with
  | nil => exact (List.length_eq_zero_iff.1 hl.symm).symm
  | cons p ps ih =>
    cases qs with
    | nil => cases hl
    | cons q qs =>
      obtain ⟨rfl, hps⟩ := hp
      obtain ⟨h, hqs⟩ := hq
      obtain rfl := Option.some.inj h
      rw [ih hps hqs (by simpa using hl)]

theorem lookup_eq_ite {α : Type} {f : String → α} {env : List (String × α)} {n : String} {P : Prop}
    [Decidable P] (hf : Fits f env) (hs : (env.lookup n).isSome ↔ P) :
    env.lookup n = if P then some (f n) else none := by
  cases h : env.lookup n with
  | none => rw [if_neg (by rw [← hs, h]; simp)]
  | some v => rw [if_pos (by rw [← hs, h]; rfl), hf n v h]

/-- A pattern matches iff one assignment makes its steps hold of successive
    instructions. -/
theorem isActive_run_iff (p : Place) (b : Bindings) (steps : List Step) :
    ((⟨some p, b⟩ : Cursor).run m steps).isActive ↔
      ∃ σ : Assignment, ∃ places, σ.Extends b ∧ m.Successive (m.realFrom? p.next) places ∧
        m.Matches σ steps places := by
  rcases run_cases m p b steps with ⟨places, hm⟩ | ⟨hfail, hno⟩
  · refine iff_of_true (by simp [isActive, hm.place]) ?_
    obtain ⟨hσ, hh⟩ := (hm.extends_iff _).1 (Bindings.extends_assignment _)
    exact ⟨_, places, hσ, hm.successive, hh⟩
  · refine iff_of_false (by simp [isActive, hfail]) ?_
    rintro ⟨σ, places, hσ, hs, hh⟩
    exact hno σ hσ places hs hh

/-- A match leaves what any assignment that explains it says. -/
theorem matched_of_matches {p : Place} {b : Bindings} {steps : List Step} {σ : Assignment}
    {places : List Nat} (hσ : σ.Extends b) (hs : m.Successive (m.realFrom? p.next) places)
    (hm : m.Matches σ steps places) :
    Matched m p b steps places ((⟨some p, b⟩ : Cursor).run m steps) := by
  rcases run_cases m p b steps with ⟨places', hm'⟩ | ⟨-, hno⟩
  · obtain ⟨-, hh⟩ := (hm'.extends_iff _).1 (Bindings.extends_assignment _)
    rwa [successive_unique hs hm'.successive (hm.length_eq.symm.trans hh.length_eq)]
  · exact absurd hm (hno σ hσ places hs)

/-- **The meaning of a pattern.**  A cursor at `pos` is active after a pattern iff the
    steps hold, one to one and in order, of the successive real instructions from `pos`
    on, under one assignment that extends the names bound before.  The cursor then stands
    behind the last of these instructions, and exactly the names bound before and those of
    the pattern are bound, as in the assignment.  A failed cursor has matched nothing and
    stays failed. -/
theorem run_iff_assignment (m : Method) (pos : Nat) (before : Option Nat) (b : Bindings) (s : Step)
    (rest : List Step) :
    let steps := s :: rest
    let after := (⟨some ⟨pos, before⟩, b⟩ : Cursor).run m steps
    (after.isActive ↔ ∃ σ : Assignment, ∃ places, σ.Extends b ∧
      m.Successive (m.realFrom? pos) places ∧ m.Matches σ steps places) ∧
    (∀ (σ : Assignment) (places : List Nat), σ.Extends b →
      m.Successive (m.realFrom? pos) places → m.Matches σ steps places →
      ∃ last, places.getLast? = some last ∧
        after.matched? = some last ∧ after.next? = some (last + 1) ∧
        (∀ n, after.bindings.slot? n =
          if (b.slot? n).isSome ∨ n ∈ steps.filterMap Step.slotName? then some (σ.slot n)
          else none) ∧
        (∀ n, after.bindings.label? n =
          if (b.label? n).isSome ∨ n ∈ steps.filterMap Step.labelName? then some (σ.label n)
          else none) ∧
        (∀ n, after.bindings.owner? n =
          if (b.owner? n).isSome ∨ n ∈ steps.filterMap Step.ownerName? then some (σ.owner n)
          else none)) ∧
    (after.isActive = false →
      after.matched? = none ∧ (∀ more, (after.run m more).isActive = false) ∧
        (after.skipPseudo m).isActive = false ∧ (after.peek m).1 = none ∧
        (after.peek m).2.isActive = false ∧ ∀ name, (after.passLabel m name).isActive = false) := by
  intro steps after
  refine ⟨isActive_run_iff ⟨pos, before⟩ b steps, fun σ places hσ hs hm => ?_, fun hfail => ?_⟩
  · have hM := matched_of_matches (p := ⟨pos, before⟩) hσ hs hm
    have hσ' := (hM.extends_iff σ).2 ⟨hσ, hm⟩
    -- the pattern has a step, so something was matched
    obtain ⟨last, hlast⟩ : ∃ last, places.getLast? = some last := by
      cases places with
      | nil => simp [Method.Matches, steps] at hm
      | cons p ps => exact ⟨_, List.getLast?_cons⟩
    have hplace : after.place = some ⟨last + 1, some last⟩ := by
      rw [hM.place, hlast]; rfl
    refine ⟨last, hlast, by simp [matched?, hplace], by simp [next?, hplace], fun n => ?_,
      fun n => ?_, fun n => ?_⟩
    · exact lookup_eq_ite hσ'.slots (hM.names .slot n)
    · exact lookup_eq_ite hσ'.labels (hM.names .label n)
    · exact lookup_eq_ite hσ'.owners (hM.names .owner n)
  · have hplace : after.place = none := by simpa [isActive] using hfail
    refine ⟨by simp [matched?, hplace], fun more => run_of_failed hfail, ?_, ?_, ?_,
      fun name => passLabel_of_failed hfail⟩
    all_goals simp [peek, skipPseudo, isActive, next?, hplace]

/-- A method that closes the resource in variable 1 and loads it again, with pseudo
    entries between. -/
def closingMethod : Method where
  name := "m"
  desc := "()V"
  code := #[.label ⟨0⟩, .var .aload 1, .line 7 ⟨0⟩, .call .invokeVirtual "R" "close" "()V" false,
    .frame, .var .aload 1]
  placed_nodup := by decide
  mentioned_placed := by decide

/-- Both loads of `r` meet variable 1, also when `r` was bound before. -/
theorem run_iff_assignment_closing :
    (⟨fun _ => 1, fun _ => ⟨0⟩, fun _ => "R"⟩ : Assignment).Extends { slots := [("r", 1)] } ∧
    ((⟨some ⟨0, none⟩, { slots := [("r", 1)] }⟩ : Cursor).run closingMethod
      [.var .aload "r", .callOn [.invokeVirtual] "r" "close" anyText, .var .aload "r"]).matched? =
      some 5 := by
  have hσ : (⟨fun _ => 1, fun _ => ⟨0⟩, fun _ => "R"⟩ : Assignment).Extends
      { slots := [("r", 1)] } := by
    refine ⟨fun n v h => ?_, fun n v h => (by cases h), fun n v h => (by cases h)⟩
    by_cases hn : n = "r"
    · subst hn; simpa using h
    · rw [List.lookup_cons_of_ne hn] at h; cases h
  refine ⟨hσ, ?_⟩
  obtain ⟨-, h, -⟩ := run_iff_assignment closingMethod 0 none { slots := [("r", 1)] }
    (.var .aload "r") [.callOn [.invokeVirtual] "r" "close" anyText, .var .aload "r"]
  obtain ⟨last, hlast, hm, -⟩ := h _ [1, 3, 5] hσ (by decide +kernel) (by
    refine .cons ⟨_, rfl, rfl⟩ (.cons ⟨_, rfl, ?_⟩ (.cons ⟨_, rfl, rfl⟩ .nil))
    exact ⟨.invokeVirtual, by decide, _, _, _, rfl, by decide, by decide⟩)
  rw [hm, ← hlast]; rfl

end Cursor

end Winnow
