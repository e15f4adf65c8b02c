/-
  Where the searches through a method lead.

  The steps between real instructions are searches for a least or greatest position
  with an instruction; labels stand at pseudo entries.  Every position that a search
  gives lies in the method, and one that gives none has passed them all.
-/
import Winnow.Method.Navigation
import Winnow.Method.Branches

namespace Winnow

theorem firstWhere_eq_none {p : Nat → Bool} {start count : Nat}
    (h : firstWhere p start count = none) : ∀ q, start ≤ q → q < start + count → ¬ p q := by
  induction count generalizing start with
  | zero => intro q h₁ h₂; omega
  | succ count ih =>
    rw [firstWhere] at h
    split at h
    · cases h
    · next hp =>
      intro q h₁ h₂
      rcases Nat.eq_or_lt_of_le h₁ with rfl | hlt
      · exact hp
      · exact ih h q hlt (by omega)

theorem lastWhere_eq_none {p : Nat → Bool} {bound : Nat} (h : lastWhere p bound = none) :
    ∀ q < bound, ¬ p q := by
  induction bound with
  | zero => intro q hq; omega
  | succ bound ih =>
    rw [lastWhere] at h
    split at h
    · cases h
    · next hp =>
      intro q hq
      rcases Nat.eq_or_lt_of_le (Nat.le_of_lt_succ hq) with rfl | hlt
      · exact hp
      · exact ih h q hlt

namespace Method

variable {m : Method} {pos p q : Nat} {e : Entry} {l : Label} {op : Opcode}

theorem lt_size_of_entry (h : m.code[p]? = some e) : p < m.size :=
  (Array.getElem?_eq_some_iff.1 h).1

theorem entry_of_mem_zipIdx (h : (e, p) ∈ m.code.toList.zipIdx) : m.code[p]? = some e := by
  simpa using List.mem_zipIdx_iff_getElem?.1 h

/-- The entry at a position, when the entries from there on are known. -/
theorem entry_of_drop {es : List Entry} (h : m.code.toList.drop p = e :: es) :
    m.code[p]? = some e ∧ m.code.toList.drop (p + 1) = es := by
  constructor
  · rw [← Array.getElem?_toList, ← Nat.add_zero p, ← List.getElem?_drop, h]
    rfl
  · rw [← List.tail_drop, h]
    rfl

theorem isReal_iff : m.isReal p ↔ ∃ e op, m.code[p]? = some e ∧ e.opcode? = some op := by
  simp only [isReal, opcode?, Option.isSome_iff_exists, Option.bind_eq_some_iff]
  exact ⟨fun ⟨op, e, he, ho⟩ => ⟨e, op, he, ho⟩, fun ⟨e, op, he, ho⟩ => ⟨op, e, he, ho⟩⟩

theorem lt_size_of_isReal (h : m.isReal p) : p < m.size := by
  obtain ⟨e, _, he, -⟩ := isReal_iff.1 h
  exact lt_size_of_entry he

theorem isReal_of_opcode (he : m.code[p]? = some e) (ho : e.opcode? = some op) : m.isReal p :=
  isReal_iff.2 ⟨e, op, he, ho⟩

theorem opcode?_of_entry (he : m.code[p]? = some e) : m.opcode? p = e.opcode? := by
  rw [opcode?, he, Option.bind_some]

theorem hasOpcode_iff : m.hasOpcode op p ↔ ∃ e, m.code[p]? = some e ∧ e.opcode? = some op := by
  rw [hasOpcode, beq_iff_eq, opcode?, Option.bind_eq_some_iff]

theorem hasOpcode_of_opcode (he : m.code[p]? = some e) (ho : e.opcode? = some op) :
    m.hasOpcode op p :=
  hasOpcode_iff.2 ⟨e, he, ho⟩

theorem isReal_of_hasOpcode (h : m.hasOpcode op p) : m.isReal p := by
  have : m.opcode? p = some op := by simpa [hasOpcode] using h
  simp [isReal, this]

theorem isReal_of_jump (h : m.code[p]? = some (.jump op l)) : m.isReal p :=
  isReal_of_opcode h rfl

theorem isReal_of_switch (h : m.code[p]? = some e) (hs : e.switch?.isSome) : m.isReal p := by
  cases e with
  | tableSwitch => exact isReal_of_opcode h rfl
  | lookupSwitch => exact isReal_of_opcode h rfl
  | _ => simp [Entry.switch?] at hs

theorem mem_positions : p ∈ m.positions ↔ p < m.size := by
  simp [positions]

/-! ## Searches for real instructions -/

theorem realFrom?_eq_some_iff :
    m.realFrom? pos = some p ↔ pos ≤ p ∧ m.isReal p ∧ ∀ q, pos ≤ q → q < p → ¬ m.isReal q := by
  rw [realFrom?, firstWhere_eq_some_iff]
  constructor
  · rintro ⟨hle, -, hr, hq⟩
    exact ⟨hle, hr, hq⟩
  · rintro ⟨hle, hr, hq⟩
    have := lt_size_of_isReal hr
    exact ⟨hle, by omega, hr, hq⟩

theorem realFrom?_of_isReal (h : m.isReal p) : m.realFrom? p = some p :=
  realFrom?_eq_some_iff.2 ⟨Nat.le_refl _, h, fun q _ _ => by omega⟩

theorem realAfter?_eq_some_iff :
    m.realAfter? pos = some p ↔ pos < p ∧ m.isReal p ∧ ∀ q, pos < q → q < p → ¬ m.isReal q := by
  rw [realAfter?, realFrom?_eq_some_iff]; rfl

theorem realBefore?_eq_some_iff :
    m.realBefore? pos = some p ↔ p < pos ∧ m.isReal p ∧ ∀ q, p < q → q < pos → ¬ m.isReal q := by
  rw [realBefore?, lastWhere_eq_some_iff]
  constructor
  · rintro ⟨hlt, hr, hq⟩
    refine ⟨by omega, hr, fun q h₁ h₂ hq' => ?_⟩
    have := lt_size_of_isReal hq'
    exact hq q h₁ (by omega) hq'
  · rintro ⟨hlt, hr, hq⟩
    have := lt_size_of_isReal hr
    exact ⟨by omega, hr, fun q h₁ h₂ => hq q h₁ (by omega)⟩

/-- The search behind an entry finds the entry, or what the search before it finds. -/
theorem realBefore?_succ (h : p < m.size) :
    m.realBefore? (p + 1) = if m.isReal p then some p else m.realBefore? p := by
  rw [realBefore?, realBefore?, Nat.min_eq_left h, Nat.min_eq_left (Nat.le_of_lt h), lastWhere]

/-- Only one real instruction is followed by a given one. -/
theorem realAfter?_injective (hp : m.isReal p) (hq : m.isReal q)
    (h₁ : m.realAfter? p = some pos) (h₂ : m.realAfter? q = some pos) : p = q := by
  obtain ⟨hp', -, hno⟩ := realAfter?_eq_some_iff.1 h₁
  obtain ⟨hq', -, hno'⟩ := realAfter?_eq_some_iff.1 h₂
  rcases Nat.lt_trichotomy p q with h | h | h
  · exact absurd hq (hno q h hq')
  · exact h
  · exact absurd hp (hno' p h hp')

/-! ## Labels -/

theorem placed?_eq_some_iff : e.placed? = some l ↔ e = .label l := by
  cases e <;> simp [Entry.placed?]

theorem jump?_eq_some_iff : e.jump? = some l ↔ ∃ op, e = .jump op l := by
  cases e <;> simp [Entry.jump?]

theorem entry_of_resolve? (h : m.resolve? l = some p) : m.code[p]? = some (.label l) := by
  obtain ⟨hp, hl, -⟩ := Array.findIdx?_eq_some_iff_getElem.1 h
  rw [beq_iff_eq, placed?_eq_some_iff] at hl
  rw [Array.getElem?_eq_getElem hp, hl]

/-- A label stands at one place only. -/
theorem place_unique (hp : m.code[p]? = some (.label l)) (hq : m.code[q]? = some (.label l)) :
    p = q := by
  have hpairs := List.pairwise_iff_getElem.1 (List.pairwise_filterMap.1 m.placed_nodup)
  obtain ⟨hp', hpl⟩ := Array.getElem?_eq_some_iff.1 hp
  obtain ⟨hq', hql⟩ := Array.getElem?_eq_some_iff.1 hq
  rcases Nat.lt_trichotomy p q with h | h | h
  · exact absurd rfl (hpairs p q hp' hq' h l (by simp [hpl, Entry.placed?]) l
      (by simp [hql, Entry.placed?]))
  · exact h
  · exact absurd rfl (hpairs q p hq' hp' h l (by simp [hql, Entry.placed?]) l
      (by simp [hpl, Entry.placed?]))

/-- The index of labels is exact. -/
theorem resolve?_eq_some_iff : m.resolve? l = some p ↔ m.code[p]? = some (.label l) := by
  refine ⟨entry_of_resolve?, fun h => ?_⟩
  cases hr : m.resolve? l with
  | some q => rw [place_unique (entry_of_resolve? hr) h]
  | none =>
    have := Array.findIdx?_eq_none_iff.1 hr _ (Array.mem_of_getElem? h)
    simp [Entry.placed?] at this

/-- Every label that the method mentions has a place in it. -/
theorem exists_resolve? (h : l ∈ m.mentioned) : ∃ p, m.resolve? l = some p ∧ p < m.size := by
  obtain ⟨e, he, hl⟩ := List.mem_filterMap.1 (m.mentioned_placed l h)
  obtain ⟨p, hp⟩ := Array.getElem?_of_mem (Array.mem_toList_iff.1 he)
  rw [placed?_eq_some_iff.1 hl] at hp
  exact ⟨p, resolve?_eq_some_iff.2 hp, lt_size_of_entry hp⟩

theorem not_isReal_of_label (h : m.code[p]? = some (.label l)) : ¬ m.isReal p := by
  simp [isReal, opcode?, h, Entry.opcode?]

/-- The target of a label stands behind it. -/
theorem target?_eq_bind_realAfter? : m.target? l = (m.resolve? l).bind m.realAfter? := by
  refine Option.bind_congr fun pos hpos => Option.ext fun p => ?_
  have hlabel := not_isReal_of_label (entry_of_resolve? hpos)
  rw [realFrom?_eq_some_iff, realAfter?_eq_some_iff]
  constructor
  · rintro ⟨hle, hr, hno⟩
    have hne : pos ≠ p := by rintro rfl; exact hlabel hr
    exact ⟨by omega, hr, fun q hq => hno q (by omega)⟩
  · rintro ⟨hlt, hr, hno⟩
    refine ⟨by omega, hr, fun q hq hq' => ?_⟩
    rcases Nat.eq_or_lt_of_le hq with rfl | hgt
    · exact hlabel
    · exact hno q hgt hq'

end Method

end Winnow
