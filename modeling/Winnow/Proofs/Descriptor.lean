/-
  The grammar of argument types.

  * `IsFieldType` is the grammar of a field type, and `Splits` says how a descriptor is made of
    its argument types;
  * ASCII characters are the bytes below 128, so the bytes of a text tell which of them a text
    starts with (`head_utf8_cons_iff`);
  * `fieldTypeSize_append` and `exists_fieldTypeSize`: the size that the bytes tell is that of the
    one field type that the text starts with.  Hence every cut is behind a field type, between
    two characters.
-/
import Mathlib.Tactic.SplitIfs
import Winnow.Descriptor

namespace Winnow.Descriptor

open Text

/-- Any number of `[`, then a letter for a primitive type, or `L`, a class name and `;`. -/
inductive IsFieldType : List Char → Prop
  | primitive {c : Char} (h : c ∈ primitives) : IsFieldType [c]
  | object {name : List Char} (h : ';' ∉ name) : IsFieldType ('L' :: (name ++ [';']))
  | array {t : List Char} (h : IsFieldType t) : IsFieldType ('[' :: t)

/-- The descriptor is `(`, the types one after the other, `)` and any rest, and its first `)` is
    the one behind the types. -/
def Splits (desc : String) (types : List String) : Prop :=
  (∃ rest, desc = "(" ++ String.join types ++ ")" ++ rest) ∧ ')' ∉ (String.join types).toList ∧
    ∀ t ∈ types, IsFieldType t.toList

variable {c a : Char} {cs t rest : List Char} {ts : List (List Char)}

/-! ## Bytes -/

theorem toNat_toUInt8 (ha : a.toNat < 128) : a.toUInt8.toNat = a.toNat := by
  rw [Char.toUInt8, UInt32.toNat_toUInt8]
  exact Nat.mod_eq_of_lt (Nat.lt_trans ha (by decide))

/-- The first byte of a character is below 128 for the ASCII characters only, and is their
    number. -/
theorem exists_firstByte (c : Char) : ∃ b bs, String.utf8EncodeChar c = b :: bs ∧
    (c.toNat < 128 ∧ b.toNat = c.toNat ∨ 128 ≤ c.toNat ∧ 128 ≤ b.toNat) := by
  have hval : c.val.toNat = c.toNat := rfl
  simp only [String.utf8EncodeChar, hval]
  split_ifs <;> refine ⟨_, _, rfl, ?_⟩ <;> rw [UInt8.toNat_ofNat'] <;> omega

/-- The bytes start with that of an ASCII character iff the text does. -/
theorem head_utf8_cons_iff (cs : List Char) (ha : a.toNat < 128) :
    (utf8 (c :: cs)).head? = some a.toUInt8 ↔ c = a := by
  have hchar : c.toNat = a.toNat ↔ c = a := Char.toNat_inj
  obtain ⟨b, bs, hbytes, hb⟩ := exists_firstByte c
  rw [utf8_cons, hbytes, List.cons_append, List.head?_cons, Option.some.injEq, ← UInt8.toNat_inj,
    toNat_toUInt8 ha, ← hchar]
  omega

theorem utf8Size_of_ascii (ha : a.toNat < 128) : a.utf8Size = 1 :=
  Char.utf8Size_eq_one_iff.2 (UInt32.le_iff_toNat_le.2 (Nat.le_of_lt_succ ha))

theorem utf8_cons_of_ascii (ha : a.toNat < 128) : utf8 (a :: cs) = a.toUInt8 :: utf8 cs := by
  rw [utf8_cons, String.utf8EncodeChar_eq_singleton (utf8Size_of_ascii ha)]
  rfl

theorem cutAt_cons_of_ascii (ha : a.toNat < 128) (offset : Nat) :
    cutAt (offset + 1) (a :: cs) =
      (cutAt offset cs).map fun (before, after) => (a :: before, after) := by
  rw [cutAt, utf8Size_of_ascii ha, if_pos (Nat.le_add_left 1 offset), Nat.add_sub_cancel]

/-! ## The first field type of a text -/

theorem fieldTypeSize_nil : fieldTypeSize [] = .ok none :=
  rfl

theorem fieldTypeSize_array (cs : List Char) :
    fieldTypeSize ('[' :: cs) = (fieldTypeSize cs).map (Option.map (· + 1)) := by
  simp only [fieldTypeSize, utf8_cons_of_ascii (a := '[') (by decide), List.takeWhile_cons,
    beq_self_eq_true, if_true, List.length_cons, List.getElem?_cons_succ,
    cutAt_cons_of_ascii (a := '[') (by decide)]
  generalize ((utf8 cs).takeWhile (· == '['.toUInt8)).length = depth
  cases (utf8 cs)[depth]? with
  | none => rfl
  | some b =>
    simp only
    split
    · cases cutAt depth cs with
      | error e => rfl
      | ok parts =>
        simp only [Except.map, Option.map_map, Except.ok.injEq]
        congr 1
        funext n
        simp only [Function.comp_apply]
        omega
    · split <;> rfl

theorem toNat_lt_of_mem_primitives (h : a ∈ primitives) : a.toNat < 128 := by
  have hall : primitives.all (·.toNat < 128) := by decide
  simpa using List.all_eq_true.1 hall a h

/-- How a text goes on that does not start with `[`. -/
theorem fieldTypeSize_cons (h : c ≠ '[') :
    fieldTypeSize (c :: cs) =
      if c = 'L' then .ok ((offset? ';' cs).map (· + 2))
      else if c ∈ primitives then .ok (some 1) else .ok none := by
  obtain ⟨b, bs, hbytes, -⟩ := exists_firstByte c
  have hutf8 : utf8 (c :: cs) = b :: (bs ++ utf8 cs) := by rw [utf8_cons, hbytes]; rfl
  have hbyte : ∀ a : Char, a.toNat < 128 → (b = a.toUInt8 ↔ c = a) := by
    intro a ha
    rw [← head_utf8_cons_iff cs ha, hutf8, List.head?_cons, Option.some.injEq]
  have hbracket : ¬ b = '['.toUInt8 := fun hb => h ((hbyte '[' (by decide)).1 hb)
  have hprimitive : b ∈ primitives.map Char.toUInt8 ↔ c ∈ primitives := by
    rw [List.mem_map]
    constructor
    · rintro ⟨a, ha, hb⟩
      exact (hbyte a (toNat_lt_of_mem_primitives ha)).1 hb.symm ▸ ha
    · intro hc
      exact ⟨c, hc, ((hbyte c (toNat_lt_of_mem_primitives hc)).2 rfl).symm⟩
  simp only [fieldTypeSize, hutf8, List.takeWhile_cons, beq_iff_eq, hbracket, if_false,
    List.length_nil, List.getElem?_cons_zero, hbyte 'L' (by decide), hprimitive]
  split
  · next hc =>
    subst hc
    have hl : 'L' ≠ ';' := by decide
    have hsize : 'L'.utf8Size = 1 := by decide
    simp only [cutAt, Except.map, offset?, if_neg hl, hsize, Option.map_map]
    congr 2
    funext n
    simp only [Function.comp_apply]
    omega
  · rfl

/-- The bytes tell the size of the field type that the text starts with. -/
theorem fieldTypeSize_append (h : IsFieldType t) (rest : List Char) :
    fieldTypeSize (t ++ rest) = .ok (some (utf8 t).length) := by
  induction h with
  | @primitive c hc =>
    have hbracket : c ≠ '[' := by rintro rfl; revert hc; decide
    have hl : c ≠ 'L' := by rintro rfl; revert hc; decide
    rw [List.cons_append, fieldTypeSize_cons hbracket, if_neg hl, if_pos hc, length_utf8_cons,
      utf8Size_of_ascii (toNat_lt_of_mem_primitives hc)]
    rfl
  | @object name hname =>
    have hoffset : offset? ';' (name ++ [';'] ++ rest) = some (utf8 name).length :=
      offset?_eq_some_iff.2 ⟨name, rest, by simp, hname, rfl⟩
    have hsizes : 'L'.utf8Size = 1 ∧ ';'.utf8Size = 1 := by decide
    rw [List.cons_append, fieldTypeSize_cons (by decide), if_pos rfl, hoffset, length_utf8_cons,
      utf8_append, List.length_append, length_utf8_cons, hsizes.1, hsizes.2]
    simp only [Option.map_some, utf8, List.flatMap_nil, List.length_nil]
    congr 2
    omega
  | @array t _ ih =>
    rw [List.cons_append, fieldTypeSize_array, ih, utf8_cons_of_ascii (by decide)]
    rfl

/-- A size is told without fail, and only if the text starts with a field type. -/
theorem exists_fieldTypeSize (cs : List Char) :
    ∃ size, fieldTypeSize cs = .ok size ∧
      (size.isSome → ∃ t rest, IsFieldType t ∧ cs = t ++ rest) := by
  induction cs with
  | nil => exact ⟨none, fieldTypeSize_nil, by simp⟩
  | cons c cs ih =>
    by_cases hbracket : c = '['
    · subst hbracket
      obtain ⟨size, hsize, hstart⟩ := ih
      refine ⟨size.map (· + 1), by rw [fieldTypeSize_array, hsize]; rfl, ?_⟩
      rw [Option.isSome_map]
      intro hsome
      obtain ⟨t, rest, ht, rfl⟩ := hstart hsome
      exact ⟨'[' :: t, rest, .array ht, rfl⟩
    · rw [fieldTypeSize_cons hbracket]
      split
      · next hl =>
        subst hl
        refine ⟨_, rfl, ?_⟩
        rw [Option.isSome_map, Option.isSome_iff_exists]
        rintro ⟨n, hn⟩
        obtain ⟨name, rest, rfl, hname, -⟩ := offset?_eq_some_iff.1 hn
        exact ⟨'L' :: (name ++ [';']), rest, .object hname, by simp⟩
      · split
        · next hc => exact ⟨some 1, rfl, fun _ => ⟨[c], cs, .primitive hc, rfl⟩⟩
        · exact ⟨none, rfl, by simp⟩

theorem IsFieldType.ne_nil (h : IsFieldType t) : t ≠ [] := by
  cases h <;> simp

/-! ## Sequences of field types -/

theorem fieldTypes_nil : fieldTypes [] = .ok (some []) := by
  rw [fieldTypes]
  rfl

theorem fieldTypes_append (h : IsFieldType t) (rest : List Char) :
    fieldTypes (t ++ rest) = (fieldTypes rest).map (Option.map (t :: ·)) := by
  have hne : (t ++ rest).isEmpty = false := by simp [h.ne_nil]
  rw [fieldTypes, hne]
  simp only [Bool.false_eq_true, if_false]
  split
  · next hsize => rw [fieldTypeSize_append h] at hsize; cases hsize
  · next hsize => rw [fieldTypeSize_append h] at hsize; cases hsize
  · next hsize =>
    rw [fieldTypeSize_append h] at hsize
    cases hsize
    split
    · next hcut => rw [cutAt_append] at hcut; cases hcut
    · next hcut => rw [cutAt_append] at hcut; cases hcut; rfl

theorem fieldTypes_of_no_fieldType (hne : cs ≠ []) (h : ∀ t rest, IsFieldType t → cs ≠ t ++ rest) :
    fieldTypes cs = .ok none := by
  obtain ⟨size, hsize, hstart⟩ := exists_fieldTypeSize cs
  cases size with
  | some n =>
    obtain ⟨t, rest, ht, hcs⟩ := hstart rfl
    exact absurd hcs (h t rest ht)
  | none =>
    have hempty : cs.isEmpty = false := by simp [hne]
    rw [fieldTypes, hempty]
    simp only [Bool.false_eq_true, if_false]
    split
    · next h => rw [hsize] at h; cases h
    · rfl
    · next h => rw [hsize] at h; cases h

theorem fieldTypes_flatten (h : ∀ t ∈ ts, IsFieldType t) :
    fieldTypes ts.flatten = .ok (some ts) := by
  induction ts with
  | nil => exact fieldTypes_nil
  | cons t ts ih =>
    obtain ⟨ht, hts⟩ := List.forall_mem_cons.1 h
    rw [List.flatten_cons, fieldTypes_append ht, ih hts]
    rfl

/-- No cut fails, and what comes out are field types that make up the text: by induction on its
    length. -/
theorem exists_fieldTypes (cs : List Char) :
    ∃ types, fieldTypes cs = .ok types ∧
      ∀ ts, types = some ts → cs = ts.flatten ∧ ∀ t ∈ ts, IsFieldType t := by
  induction hn : cs.length using Nat.strongRecOn generalizing cs with
  | _ n ih =>
    by_cases hne : cs = []
    · subst hne
      refine ⟨some [], fieldTypes_nil, ?_⟩
      rintro _ ⟨⟩
      exact ⟨rfl, by simp⟩
    by_cases h : ∃ t rest, IsFieldType t ∧ cs = t ++ rest
    · obtain ⟨t, rest, ht, rfl⟩ := h
      have hlt : rest.length < n := by
        have := List.length_pos_iff.2 ht.ne_nil
        rw [List.length_append] at hn
        omega
      obtain ⟨types, htypes, hall⟩ := ih _ hlt rest rfl
      refine ⟨types.map (t :: ·), by rw [fieldTypes_append ht, htypes]; rfl, ?_⟩
      intro ts hts
      obtain ⟨ts, rfl, rfl⟩ := Option.map_eq_some_iff.1 hts
      obtain ⟨rfl, hts⟩ := hall ts rfl
      exact ⟨rfl, List.forall_mem_cons.2 ⟨ht, hts⟩⟩
    · refine ⟨none, fieldTypes_of_no_fieldType hne fun t rest ht hcs => h ⟨t, rest, ht, hcs⟩, ?_⟩
      rintro _ ⟨⟩

/-! ## Descriptors -/

theorem argumentTypes_of_splits {desc : String} {types : List String} (h : Splits desc types) :
    argumentTypes desc = .ok (some types) := by
  obtain ⟨⟨rest, rfl⟩, hclosing, htypes⟩ := h
  have hdesc : ("(" ++ String.join types ++ ")" ++ rest).toList =
      '(' :: ((String.join types).toList ++ ')' :: rest.toList) := by simp
  have hoffset : offset? ')' ((String.join types).toList ++ ')' :: rest.toList) =
      some (utf8 (String.join types).toList).length :=
    offset?_eq_some_iff.2 ⟨_, _, rfl, hclosing, rfl⟩
  have hflatten : (String.join types).toList = (types.map String.toList).flatten := by
    rw [String.toList_join, List.flatMap_def]
  rw [argumentTypes, hdesc]
  simp only [hoffset, cutAt_append]
  rw [hflatten, fieldTypes_flatten (List.forall_mem_map.2 htypes)]
  simp [Except.map, Function.comp_def]

theorem exists_argumentTypes (desc : String) :
    ∃ types, argumentTypes desc = .ok types ∧ ∀ ts, types = some ts → Splits desc ts := by
  unfold argumentTypes
  split
  · next rest hdesc =>
    cases hoffset : offset? ')' rest with
    | none => exact ⟨none, rfl, by simp⟩
    | some size =>
      obtain ⟨before, after, rfl, hclosing, rfl⟩ := offset?_eq_some_iff.1 hoffset
      obtain ⟨types, htypes, hall⟩ := exists_fieldTypes before
      simp only [cutAt_append, htypes, Except.map]
      refine ⟨_, rfl, ?_⟩
      intro ts hts
      obtain ⟨ts, rfl, rfl⟩ := Option.map_eq_some_iff.1 hts
      obtain ⟨rfl, hts⟩ := hall ts rfl
      have hjoin : (String.join (ts.map String.ofList)).toList = ts.flatten := by
        rw [String.toList_join, List.flatMap_def, List.map_map]
        simp [Function.comp_def]
      refine ⟨⟨String.ofList after, ?_⟩, hjoin ▸ hclosing, ?_⟩
      · rw [← String.toList_inj, hdesc]
        simp [hjoin]
      · refine List.forall_mem_map.2 fun t ht => ?_
        rw [String.toList_ofList]
        exact hts t ht
  · exact ⟨none, rfl, by simp⟩

theorem argumentTypes?_eq_some_iff {desc : String} {types : List String} :
    argumentTypes? desc = some types ↔ Splits desc types := by
  unfold argumentTypes?
  constructor
  · intro h
    obtain ⟨types', htypes, hsplits⟩ := exists_argumentTypes desc
    rw [htypes] at h
    exact hsplits types h
  · intro h
    rw [argumentTypes_of_splits h]

/-- **Argument types.**  Whatever characters it has, a descriptor is taken apart without a cut
    inside one of them.  Its argument types are those that make up its argument part, which they
    do in one way only, and there are none just if no types make it up. -/
theorem argument_types_exact (desc : String) :
    (∀ fault, argumentTypes desc ≠ .error fault) ∧
    (∀ types, argumentTypes desc = .ok (some types) ↔ Splits desc types) ∧
    (argumentTypes desc = .ok none ↔ ∀ types, ¬ Splits desc types) := by
  obtain ⟨types, htypes, hsplits⟩ := exists_argumentTypes desc
  rw [htypes]
  refine ⟨nofun, fun types' => ⟨fun h => hsplits types' (Except.ok.inj h), fun h => ?_⟩, ?_⟩
  · rw [← htypes, argumentTypes_of_splits h]
  constructor
  · rintro ⟨⟩ types' hs
    cases htypes.symm.trans (argumentTypes_of_splits hs)
  · intro h
    cases types with
    | none => rfl
    | some ts => exact absurd (hsplits ts rfl) (h ts)

/-- A class name with characters of two, three and four bytes, and one that hides a `[`. -/
example : argumentTypes? "(ILé∀𝔻;[[La[b;J)V" = some ["I", "Lé∀𝔻;", "[[La[b;", "J"] := by
  decide +kernel

end Winnow.Descriptor
