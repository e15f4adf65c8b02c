/-
  The copies of a finally block.

  Findings about finally blocks come copy by copy: the store of the exception in the handler,
  the pairs of the body and the copy, reload and throw, and a jump behind the copy.

  * `Handler.At` says what a handler for a finally block is, and `handlerAt?_eq_some_iff` that
    the search for one finds it;
  * `Copy.StandsAt` says what a copy of a body is.  The body is compared with a list of real
    instructions that is cut to its length; by `successive_iff_prefix`, what is kept of the
    list are instructions that follow each other;
  * `TryBlock.LeavesTo` and `SoughtAt` say where copies are looked for;
  * `Lists` says of findings that they are those of certain copies, and `lists_flatMap` joins
    such findings;
  * `finally_merges_copies`: the findings are those of exactly the copies that stand where
    one is looked for.
-/
import Mathlib.Data.List.Sort
import Winnow.Builtin
import Winnow.Proofs.Pattern.Meaning

namespace Winnow

/-- The row protects the instruction at `pos`. -/
def TryBlock.Protects (m : Method) (t : TryBlock) (pos : Nat) : Prop :=
  ∃ start stop, m.resolve? t.start = some start ∧ m.resolve? t.stop = some stop ∧
    start ≤ pos ∧ pos < stop

/-- Control can run on behind the instruction. -/
def Entry.RunsOn : Entry → Prop
  | .jump op _ => op ≠ .goto
  | e => ∀ op, e.opcode? = some op → ¬ op.isExit

/-- Where control leaves the code that the row protects. -/
inductive TryBlock.LeavesTo (m : Method) (t : TryBlock) : Nat → Prop
  /-- By a jump. -/
  | jump {pos c : Nat} {op : Opcode} {l : Label} (hpos : t.Protects m pos)
      (hjump : m.code[pos]? = some (.jump op l)) (htarget : m.target? l = some c) : LeavesTo m t c
  /-- Behind its last instruction. -/
  | runOn {last stop c : Nat} {e : Entry} (hstop : m.resolve? t.stop = some stop)
      (hlast : m.realBefore? stop = some last) (hpos : t.Protects m last)
      (hentry : m.code[last]? = some e) (hruns : e.RunsOn) (hnext : m.realAfter? stop = some c) :
      LeavesTo m t c

namespace Idiom.Finally

/-- From the label on, the handler stores the exception in the variable, runs its body, loads
    the exception for the first time and throws it.  The body is not empty. -/
structure Handler.At (m : Method) (l : Label) (slot : Nat) (h : Handler) : Prop where
  first : m.target? l = some h.store
  stores : m.code[h.store]? = some (.var .astore slot)
  reload_gt : h.store < h.reload
  reloads : m.code[h.reload]? = some (.var .aload slot)
  first_reload : ∀ pos, h.store < pos → pos < h.reload → m.code[pos]? ≠ some (.var .aload slot)
  next : m.realAfter? h.reload = some h.rethrow
  rethrows : m.hasOpcode .athrow h.rethrow
  sorted : h.body.Pairwise (· < ·)
  mem_body : ∀ pos, pos ∈ h.body ↔ h.store < pos ∧ pos < h.reload ∧ m.isReal pos
  body_ne_nil : h.body ≠ []

/-- Where copies of the body are looked for because of the row `t`, which has number `i`: where
    control leaves code that leads to its handler, and behind the store of a handler that
    another row has for the same code. -/
def SoughtAt (m : Method) (i : Nat) (t : TryBlock) (pos : Nat) : Prop :=
  (∃ t' ∈ m.tries, t'.handler = t.handler ∧ t'.LeavesTo m pos) ∨
    ∃ j t' store, m.tries[j]? = some t' ∧ j ≠ i ∧ t'.start = t.start ∧ t'.stop = t.stop ∧
      m.target? t'.handler = some store ∧ m.realAfter? store = some pos

/-- A copy of the body of a handler, with the jump behind it if there is one. -/
structure Copy extends Handler where
  places : List Nat
  goto : Option Nat

namespace Copy

def findings (x : Copy) : List Finding :=
  [.ignore x.store x.store] ++
    (x.body.zip x.places).map (fun (first, second) => .merge first second) ++
    [.ignore x.reload x.rethrow] ++ (x.goto.map fun pos => .ignore pos pos).toList

/-- The copy consists of the real instructions from `start` on, as many as the body has and
    with the same opcodes.  A jump right behind it belongs to it. -/
structure StandsAt (m : Method) (start : Nat) (x : Copy) : Prop where
  isReal : m.isReal start
  successive : m.Successive (some start) x.places
  same : List.Forall₂ (fun first second => m.opcode? first = m.opcode? second) x.body x.places
  goto_eq : x.goto = (x.places.getLast?.bind m.realAfter?).filter (m.hasOpcode .goto)

/-- The copy at `start` is one of the body of the handler of the catch-any row `t`, which has
    number `i`, and stands outside of all code that this handler protects. -/
structure IsOf (m : Method) (i : Nat) (t : TryBlock) (start : Nat) (x : Copy) : Prop where
  catchesAny : t.caught = none
  handler : ∃ slot, x.toHandler.At m t.handler slot
  stands : x.StandsAt m start
  /-- A handler protects the code of the rows that name its label.  Two labels right before
      the same store are two handlers. -/
  outside : ∀ t' ∈ m.tries, t'.handler = t.handler → ¬ t'.Protects m start
  sought : SoughtAt m i t start

end Copy

variable {m : Method} {h : Handler} {x : Copy} {start stop pos : Nat} {l : Label} {t t' : TryBlock}

/-! ## Real instructions in a range -/

theorem mem_realsBetween :
    pos ∈ realsBetween m start stop ↔ start ≤ pos ∧ pos < stop ∧ m.isReal pos := by
  rw [realsBetween, List.mem_filter, List.mem_range'_1]
  constructor
  · rintro ⟨⟨hle, hlt⟩, hr⟩
    exact ⟨hle, by omega, hr⟩
  · rintro ⟨hle, hlt, hr⟩
    exact ⟨⟨hle, by omega⟩, hr⟩

theorem sorted_realsBetween (m : Method) (start stop : Nat) :
    (realsBetween m start stop).Pairwise (· < ·) :=
  (List.pairwise_lt_range' _).filter _

/-- A sorted list of the real instructions in a range is the one that is computed. -/
theorem eq_realsBetween {ps : List Nat} (hsorted : ps.Pairwise (· < ·))
    (hmem : ∀ pos, pos ∈ ps ↔ start ≤ pos ∧ pos < stop ∧ m.isReal pos) :
    ps = realsBetween m start stop :=
  hsorted.eq_of_mem_iff (sorted_realsBetween m start stop) fun pos => by
    rw [hmem, mem_realsBetween]

theorem realsBetween_eq_cons (hpos : m.realFrom? start = some pos) :
    realsBetween m start m.size = pos :: realsBetween m (pos + 1) m.size := by
  obtain ⟨hle, hr, hno⟩ := Method.realFrom?_eq_some_iff.1 hpos
  refine (eq_realsBetween (List.pairwise_cons.2 ⟨fun q hq => ?_, sorted_realsBetween ..⟩)
    fun q => ?_).symm
  · exact (mem_realsBetween.1 hq).1
  · rw [List.mem_cons, mem_realsBetween]
    have hlt := Method.lt_size_of_isReal hr
    constructor
    · rintro (rfl | ⟨hq, hlt', hr'⟩)
      · exact ⟨hle, hlt, hr⟩
      · exact ⟨by omega, hlt', hr'⟩
    · rintro ⟨hq, hlt', hr'⟩
      have hge : pos ≤ q := Nat.le_of_not_lt fun hlt => hno q hq hlt hr'
      rcases Nat.eq_or_lt_of_le hge with rfl | hgt
      · exact Or.inl rfl
      · exact Or.inr ⟨hgt, hlt', hr'⟩

theorem head?_realsBetween : (realsBetween m start m.size).head? = m.realFrom? start := by
  cases hps : realsBetween m start m.size with
  | nil =>
    cases hpos : m.realFrom? start with
    | none => rfl
    | some pos => rw [realsBetween_eq_cons hpos] at hps; cases hps
  | cons p ps =>
    obtain ⟨hle, -, hr⟩ := mem_realsBetween.1 (hps ▸ List.mem_cons_self)
    have hsorted := List.pairwise_cons.1 (hps ▸ sorted_realsBetween m start m.size)
    refine (Method.realFrom?_eq_some_iff.2 ⟨hle, hr, fun q hq hlt hr' => ?_⟩).symm
    have hmem : q ∈ p :: ps := hps ▸ mem_realsBetween.2 ⟨hq, Method.lt_size_of_isReal hr', hr'⟩
    rcases List.mem_cons.1 hmem with rfl | hmem
    · omega
    · have := hsorted.1 q hmem
      omega

/-- The instructions that follow each other are those that the list of real instructions
    starts with. -/
theorem successive_iff_prefix {ps : List Nat} :
    m.Successive (m.realFrom? start) ps ↔ ps <+: realsBetween m start m.size := by
  induction ps generalizing start with
  | nil => exact iff_of_true trivial List.nil_prefix
  | cons p ps ih =>
    constructor
    · rintro ⟨hp, hps⟩
      rw [realsBetween_eq_cons hp]
      exact List.cons_prefix_cons.2 ⟨rfl, ih.1 hps⟩
    · intro hpre
      have hp : m.realFrom? start = some p := by
        obtain ⟨rest, hrest⟩ := hpre
        rw [← head?_realsBetween, ← hrest]; rfl
      rw [realsBetween_eq_cons hp, List.cons_prefix_cons] at hpre
      exact ⟨hp, ih.2 hpre.2⟩

/-- What follows in the list is what follows in the method. -/
theorem head?_of_append {ps rest : List Nat} (hne : ps ≠ [])
    (happend : ps ++ rest = realsBetween m start m.size) :
    rest.head? = ps.getLast?.bind m.realAfter? := by
  induction ps generalizing start with
  | nil => exact absurd rfl hne
  | cons p ps ih =>
    have hp : m.realFrom? start = some p := by
      rw [← head?_realsBetween, ← happend]; rfl
    rw [realsBetween_eq_cons hp, List.cons_append, List.cons.injEq] at happend
    cases ps with
    | nil =>
      rw [List.nil_append] at happend
      rw [happend.2, head?_realsBetween]; rfl
    | cons q qs => rw [ih (List.cons_ne_nil _ _) happend.2, List.getLast?_cons_cons]

/-! ## The handler -/

/-- The first load of the variable behind the store, as the search for it finds it. -/
theorem firstLoad_eq_some_iff {slot store reload : Nat} :
    firstWhere (fun pos => m.code[pos]? == some (.var .aload slot)) (store + 1)
        (m.size - (store + 1)) = some reload ↔
      store < reload ∧ m.code[reload]? = some (.var .aload slot) ∧
        ∀ pos, store < pos → pos < reload → m.code[pos]? ≠ some (.var .aload slot) := by
  simp only [firstWhere_eq_some_iff, beq_iff_eq]
  constructor
  · rintro ⟨hlt, -, hload, hno⟩
    exact ⟨hlt, hload, hno⟩
  · rintro ⟨hlt, hload, hno⟩
    have := Method.lt_size_of_entry hload
    exact ⟨hlt, by omega, hload, hno⟩

theorem handlerAt?_eq_some_iff : handlerAt? m l = some h ↔ ∃ slot, h.At m l slot := by
  simp only [handlerAt?, Option.bind_eq_bind, ← Method.target?_eq_bind_realAfter?,
    Option.bind_eq_some_iff]
  constructor
  · rintro ⟨store, hstore, e, he, hh⟩
    split at hh
    · next op slot =>
      simp only [Option.bind_eq_some_iff, Option.guard_eq_some', firstLoad_eq_some_iff] at hh
      obtain ⟨-, rfl, reload, ⟨hlt, hload, hno⟩, rethrow, hnext, -, hthrow, -, hbody, hh⟩ := hh
      obtain rfl := Option.some.inj hh
      exact ⟨slot, {
        first := hstore
        stores := he
        reload_gt := hlt
        reloads := hload
        first_reload := hno
        next := hnext
        rethrows := hthrow
        sorted := sorted_realsBetween _ _ _
        mem_body := fun pos => mem_realsBetween
        body_ne_nil := by simpa using hbody }⟩
    · cases hh
  · rintro ⟨slot, hat⟩
    have hbody : h.body = realsBetween m (h.store + 1) h.reload :=
      eq_realsBetween hat.sorted hat.mem_body
    refine ⟨h.store, hat.first, _, hat.stores, ?_⟩
    simp only [Option.bind_eq_some_iff, Option.guard_eq_some', firstLoad_eq_some_iff]
    exact ⟨(), trivial, h.reload, ⟨hat.reload_gt, hat.reloads, hat.first_reload⟩, h.rethrow,
      hat.next, (), hat.rethrows, (), by simpa [← hbody] using hat.body_ne_nil, by rw [← hbody]; rfl⟩

/-! ## One copy -/

/-- The findings are those of the copies for which `P` holds, copy after copy. -/
def Lists (P : Copy → Prop) (xs : List Finding) : Prop :=
  ∃ found : List Copy, xs = found.flatMap Copy.findings ∧ ∀ x, x ∈ found ↔ P x

theorem Lists.congr {P Q : Copy → Prop} {xs : List Finding} (hP : Lists P xs)
    (hPQ : ∀ x, P x ↔ Q x) : Lists Q xs := by
  obtain ⟨found, hxs, hfound⟩ := hP
  exact ⟨found, hxs, fun x => (hfound x).trans (hPQ x)⟩

theorem lists_nil {P : Copy → Prop} (hP : ∀ x, ¬ P x) : Lists P [] :=
  ⟨[], rfl, fun x => iff_of_false List.not_mem_nil (hP x)⟩

theorem lists_flatMap {α : Type} {P : α → Copy → Prop} {as : List α} {f : α → List Finding}
    (hf : ∀ a ∈ as, Lists (P a) (f a)) :
    Lists (fun x => ∃ a ∈ as, P a x) (as.flatMap f) := by
  choose! found hfound using hf
  refine ⟨as.flatMap found, ?_, fun x => ?_⟩
  · rw [List.flatMap_assoc]
    exact List.flatMap_congr fun a ha => (hfound a ha).1
  · rw [List.mem_flatMap]
    exact exists_congr fun a => and_congr_right fun ha => (hfound a ha).2 x

/-- A copy in the terms of its computation: the list of real instructions is cut to the length
    of the body. -/
theorem standsAt_iff (hstart : m.isReal start) (hbody : x.body ≠ []) :
    x.StandsAt m start ↔
      x.places = (realsBetween m start m.size).take x.body.length ∧
      x.places.map m.opcode? = x.body.map m.opcode? ∧
      x.goto = ((realsBetween m start m.size).drop x.body.length).head?.filter
        (m.hasOpcode .goto) := by
  have hfirst : some start = m.realFrom? start := (Method.realFrom?_of_isReal hstart).symm
  have hsame : List.Forall₂ (fun first second => m.opcode? first = m.opcode? second) x.body
      x.places ↔ x.places.map m.opcode? = x.body.map m.opcode? := by
    rw [eq_comm, ← List.forall₂_eq_eq_eq, List.forall₂_map_left_iff, List.forall₂_map_right_iff]
  -- the comparison of opcodes compares the lengths too: the list was not too short to be cut
  have hlength : x.places.map m.opcode? = x.body.map m.opcode? →
      x.places.length = x.body.length := fun hmap => by simpa using congrArg List.length hmap
  have hgoto : x.places.length = x.body.length →
      x.places = (realsBetween m start m.size).take x.body.length →
      ((realsBetween m start m.size).drop x.body.length).head? =
        x.places.getLast?.bind m.realAfter? := by
    intro hlen hplaces
    have hne : x.places ≠ [] := by
      intro hnil
      exact hbody (List.length_eq_zero_iff.1 (by rw [← hlen, hnil]; rfl))
    exact head?_of_append hne (hplaces ▸ List.take_append_drop x.body.length _)
  constructor
  · rintro ⟨-, hsucc, hops, hgo⟩
    have hmap := hsame.1 hops
    rw [hfirst, successive_iff_prefix, List.prefix_iff_eq_take, hlength hmap] at hsucc
    exact ⟨hsucc, hmap, by rw [hgo, hgoto (hlength hmap) hsucc]⟩
  · rintro ⟨hplaces, hmap, hgo⟩
    refine ⟨hstart, ?_, hsame.2 hmap, by rw [hgo, hgoto (hlength hmap) hplaces]⟩
    rw [hfirst, successive_iff_prefix, hplaces]
    exact List.take_prefix _ _

theorem lists_copyAt (hstart : m.isReal start) (hbody : h.body ≠ []) :
    Lists (fun x => x.toHandler = h ∧ x.StandsAt m start) (copyAt m h start) := by
  simp only [copyAt]
  split
  · next hmap =>
    refine ⟨[{ h with
      places := (realsBetween m start m.size).take h.body.length
      goto := ((realsBetween m start m.size).drop h.body.length).head?.filter
        (m.hasOpcode .goto) }], (List.flatMap_singleton ..).symm, fun x => ?_⟩
    rw [List.mem_singleton]
    constructor
    · rintro rfl
      exact ⟨rfl, (standsAt_iff hstart hbody).2 ⟨rfl, hmap, rfl⟩⟩
    · rintro ⟨rfl, hstands⟩
      obtain ⟨hplaces, -, hgoto⟩ := (standsAt_iff hstart hbody).1 hstands
      rw [← hplaces, ← hgoto]
  · next hmap =>
    refine lists_nil ?_
    rintro x ⟨rfl, hstands⟩
    obtain ⟨hplaces, hsame, -⟩ := (standsAt_iff hstart hbody).1 hstands
    exact hmap (hplaces ▸ hsame)

/-! ## Where copies are looked for -/

theorem bounds?_eq_some_iff :
    bounds? m t = some (start, stop) ↔
      m.resolve? t.start = some start ∧ m.resolve? t.stop = some stop := by
  simp [bounds?, Option.bind_eq_some_iff]

theorem isProtected_iff :
    isProtected m l pos ↔ ∃ t ∈ m.tries, t.handler = l ∧ t.Protects m pos := by
  simp only [isProtected, List.any_eq_true, Bool.and_eq_true, beq_iff_eq, Option.any_eq_true,
    Prod.exists, bounds?_eq_some_iff, decide_eq_true_eq, TryBlock.Protects, and_assoc]

/-- The last instruction of a range is the one before its end. -/
theorem getLast?_realsBetween {last : Nat} :
    (realsBetween m start stop).getLast? = some last ↔
      m.realBefore? stop = some last ∧ start ≤ last := by
  rw [Method.realBefore?_eq_some_iff, List.getLast?_eq_some_iff]
  constructor
  · rintro ⟨before, hlist⟩
    obtain ⟨hle, hlt, hr⟩ := mem_realsBetween.1 (hlist ▸ List.mem_append_right _ List.mem_cons_self)
    have hsorted := List.pairwise_append.1 (hlist ▸ sorted_realsBetween m start stop)
    refine ⟨⟨hlt, hr, fun q hq hq' hr' => ?_⟩, hle⟩
    have hmem : q ∈ before ++ [last] := hlist ▸ mem_realsBetween.2 ⟨by omega, hq', hr'⟩
    rcases List.mem_append.1 hmem with hmem | hmem
    · have := hsorted.2.2 q hmem last List.mem_cons_self
      omega
    · obtain rfl := List.mem_singleton.1 hmem
      omega
  · rintro ⟨⟨hlt, hr, hno⟩, hle⟩
    -- the instructions before `last`, and `last`, are those of the whole range
    refine ⟨realsBetween m start last, (eq_realsBetween ?_ fun q => ?_).symm⟩
    · refine List.pairwise_append.2 ⟨sorted_realsBetween .., List.pairwise_singleton .., ?_⟩
      intro p hp q hq
      obtain rfl := List.mem_singleton.1 hq
      exact (mem_realsBetween.1 hp).2.1
    · rw [List.mem_append, List.mem_singleton, mem_realsBetween]
      constructor
      · rintro (⟨hq, hq', hr'⟩ | rfl)
        · exact ⟨hq, by omega, hr'⟩
        · exact ⟨hle, hlt, hr⟩
      · rintro ⟨hq, hq', hr'⟩
        rcases Nat.lt_trichotomy q last with hlt' | rfl | hgt
        · exact Or.inl ⟨hq, hlt', hr'⟩
        · exact Or.inr rfl
        · exact absurd hr' (hno q hgt hq')

theorem continuesAt_iff :
    continuesAt m start stop ↔ ∃ last e, m.realBefore? stop = some last ∧ start ≤ last ∧
      m.code[last]? = some e ∧ e.RunsOn := by
  have hentry : ∀ e, (realsBetween m start stop).getLast?.bind (m.code[·]?) = some e ↔
      ∃ last, m.realBefore? stop = some last ∧ start ≤ last ∧ m.code[last]? = some e := by
    simp only [Option.bind_eq_some_iff, getLast?_realsBetween, and_assoc, implies_true]
  have hruns : continuesAt m start stop ↔
      ∃ e, (realsBetween m start stop).getLast?.bind (m.code[·]?) = some e ∧ e.RunsOn := by
    rw [continuesAt]
    cases (realsBetween m start stop).getLast?.bind (m.code[·]?) with
    | none => simp
    | some e => cases e <;> simp [Entry.RunsOn, Entry.opcode?]
  simp only [hruns, hentry]
  constructor
  · rintro ⟨e, ⟨last, hlast, hle, he⟩, hr⟩
    exact ⟨last, e, hlast, hle, he, hr⟩
  · rintro ⟨last, e, hlast, hle, he, hr⟩
    exact ⟨e, ⟨last, hlast, hle, he⟩, hr⟩

theorem mem_exits_iff (hstart : m.resolve? t.start = some start)
    (hstop : m.resolve? t.stop = some stop) : pos ∈ exits m start stop ↔ t.LeavesTo m pos := by
  have hprotects : ∀ q, t.Protects m q ↔ start ≤ q ∧ q < stop := by
    simp [TryBlock.Protects, hstart, hstop]
  simp only [exits, List.mem_append, List.mem_filterMap, mem_realsBetween, Option.bind_eq_bind,
    ← Method.target?_eq_bind_realAfter?, Option.bind_eq_some_iff]
  constructor
  · rintro (⟨q, ⟨hle, hlt, -⟩, l, ⟨e, he, hjump⟩, htarget⟩ | hnext)
    · obtain ⟨op, rfl⟩ := Method.jump?_eq_some_iff.1 hjump
      exact .jump ((hprotects q).2 ⟨hle, hlt⟩) he htarget
    · split at hnext
      · next hcontinues =>
        obtain ⟨last, e, hlast, hle, he, hruns⟩ := continuesAt_iff.1 hcontinues
        have hlt := (Method.realBefore?_eq_some_iff.1 hlast).1
        exact .runOn hstop hlast ((hprotects last).2 ⟨hle, hlt⟩) he hruns
          (Option.mem_toList.1 hnext)
      · cases hnext
  · intro hleaves
    cases hleaves with
    | @jump q _ op l hpos hjump htarget =>
      obtain ⟨hle, hlt⟩ := (hprotects q).1 hpos
      exact Or.inl ⟨q, ⟨hle, hlt, Method.isReal_of_jump hjump⟩, l, ⟨_, hjump, rfl⟩, htarget⟩
    | @runOn last stop' _ e hstop' hlast hpos hentry hruns hnext =>
      obtain rfl : stop = stop' := Option.some.inj (hstop.symm.trans hstop')
      have hle := ((hprotects last).1 hpos).1
      rw [if_pos (continuesAt_iff.2 ⟨last, e, hlast, hle, hentry, hruns⟩)]
      exact Or.inr (Option.mem_toList.2 hnext)

theorem exists_bounds? (hleaves : t.LeavesTo m pos) : ∃ bounds, bounds? m t = some bounds := by
  cases hleaves with
  | jump hpos =>
    obtain ⟨start, stop, hstart, hstop, -⟩ := hpos
    exact ⟨_, bounds?_eq_some_iff.2 ⟨hstart, hstop⟩⟩
  | runOn _ _ hpos =>
    obtain ⟨start, stop, hstart, hstop, -⟩ := hpos
    exact ⟨_, bounds?_eq_some_iff.2 ⟨hstart, hstop⟩⟩

theorem mem_copies_iff {same : Bool} :
    pos ∈ copies m t t' same ↔ (t'.handler = t.handler ∧ t'.LeavesTo m pos) ∨
      ∃ store, same = false ∧ t'.start = t.start ∧ t'.stop = t.stop ∧
        m.target? t'.handler = some store ∧ m.realAfter? store = some pos := by
  rw [copies, List.mem_append]
  refine or_congr ?_ ?_
  · split
    · next hhandler =>
      rw [and_iff_right hhandler]
      cases hbounds : bounds? m t' with
      | none =>
        refine iff_of_false List.not_mem_nil fun hleaves => ?_
        obtain ⟨bounds, hsome⟩ := exists_bounds? hleaves
        rw [hbounds] at hsome; cases hsome
      | some bounds =>
        obtain ⟨hstart, hstop⟩ := bounds?_eq_some_iff.1 hbounds
        exact mem_exits_iff hstart hstop
    · next hhandler => exact iff_of_false List.not_mem_nil fun hleaves => hhandler hleaves.1
  · rw [← Method.target?_eq_bind_realAfter?]
    split
    · next hrow =>
      simp only [Bool.and_eq_true, Bool.not_eq_true', beq_iff_eq] at hrow
      simp [hrow, Option.mem_toList, Option.bind_eq_some_iff]
    · next hrow =>
      simp only [Bool.and_eq_true, Bool.not_eq_true', beq_iff_eq] at hrow
      refine iff_of_false List.not_mem_nil ?_
      rintro ⟨store, hsame, hstart, hstop, -⟩
      exact hrow ⟨⟨hsame, hstart⟩, hstop⟩

theorem isReal_of_mem_copies {same : Bool} (hpos : pos ∈ copies m t t' same) : m.isReal pos := by
  rcases mem_copies_iff.1 hpos with ⟨-, hleaves⟩ | ⟨store, -, -, -, -, hnext⟩
  · cases hleaves with
    | jump _ _ htarget =>
      obtain ⟨place, -, hafter⟩ := Option.bind_eq_some_iff.1 htarget
      exact (Method.realFrom?_eq_some_iff.1 hafter).2.1
    | runOn _ _ _ _ _ hnext => exact (Method.realAfter?_eq_some_iff.1 hnext).2.1
  · exact (Method.realAfter?_eq_some_iff.1 hnext).2.1

/-- The rows of the table, each with its number, give the places where copies are sought. -/
theorem soughtAt_iff {i : Nat} :
    SoughtAt m i t pos ↔ ∃ row ∈ m.tries.zipIdx, pos ∈ copies m t row.1 (row.2 == i) := by
  simp only [mem_copies_iff, Prod.exists, List.mem_zipIdx_iff_getElem?]
  constructor
  · rintro (⟨t', ht', hleaves⟩ | ⟨j, t', store, ht', hne, hcatch⟩)
    · obtain ⟨j, hj⟩ := List.getElem?_of_mem ht'
      exact ⟨t', j, hj, Or.inl hleaves⟩
    · exact ⟨t', j, ht', Or.inr ⟨store, beq_false_of_ne hne, hcatch⟩⟩
  · rintro ⟨t', j, ht', hleaves | ⟨store, hne, hcatch⟩⟩
    · exact Or.inl ⟨t', List.mem_of_getElem? ht', hleaves⟩
    · exact Or.inr ⟨j, t', store, ht', ne_of_beq_false hne, hcatch⟩

/-! ## All copies -/

theorem lists_ofRow (ht : t.caught = none) (i : Nat) :
    Lists (fun x => ∃ start, x.IsOf m i t start) (ofRow m t i) := by
  rw [ofRow]
  cases hhandler : handlerAt? m t.handler with
  | none =>
    refine lists_nil ?_
    rintro x ⟨start, hof⟩
    rw [handlerAt?_eq_some_iff.2 hof.handler] at hhandler
    cases hhandler
  | some h =>
    obtain ⟨slot, hat⟩ := handlerAt?_eq_some_iff.1 hhandler
    have houtside : ∀ start, isProtected m t.handler start = false ↔
        ∀ t' ∈ m.tries, t'.handler = t.handler → ¬ t'.Protects m start := by
      intro start
      rw [← Bool.not_eq_true, isProtected_iff]
      simp only [not_exists, not_and]
    refine (lists_flatMap fun row _ => lists_flatMap fun start hstart =>
      lists_copyAt (isReal_of_mem_copies (List.mem_of_mem_filter hstart)) hat.body_ne_nil).congr
      fun x => ?_
    simp only [List.mem_filter, Bool.not_eq_true', houtside]
    -- a label has one handler, so that a copy of some handler at it is a copy of `h`
    constructor
    · rintro ⟨row, hrow, start, ⟨hcopies, hout⟩, rfl, hstands⟩
      exact ⟨start, ht, ⟨slot, hat⟩, hstands, hout, soughtAt_iff.2 ⟨row, hrow, hcopies⟩⟩
    · rintro ⟨start, hof⟩
      obtain ⟨row, hrow, hcopies⟩ := soughtAt_iff.1 hof.sought
      have heq := handlerAt?_eq_some_iff.2 hof.handler
      exact ⟨row, hrow, start, ⟨hcopies, hof.outside⟩,
        Option.some.inj (heq.symm.trans hhandler), hof.stands⟩

end Idiom.Finally

open Builtin Idiom.Finally

/-- **Only plumbing is ignored and only true copies are merged.**  The findings about finally
    blocks come copy by copy, and the copies are exactly those of a body in the handler of a
    catch-any row that stand, outside of the code this handler protects, where a copy is
    sought.  Of each copy, the store, the reload with its throw and the jump behind the copy
    are ignored, and every instruction of the body is merged with its counterpart.

    Handlers are told apart by their labels: a copy may stand in code whose row names another
    label right before the same store. -/
theorem finally_merges_copies (m : Method) (c : ClassInfo) (scratch : ClassScratch) :
    ∃ found : List Copy,
      (finallyBlocks.run m c scratch).findings = found.flatMap Copy.findings ∧
      ∀ x, x ∈ found ↔ ∃ i t start, m.tries[i]? = some t ∧ x.IsOf m i t start := by
  change Lists _ (findings m)
  have hrow : ∀ row ∈ m.tries.zipIdx, Lists (fun x => ∃ start, x.IsOf m row.2 row.1 start)
      (if row.1.caught.isNone then ofRow m row.1 row.2 else []) := by
    intro row _
    split
    · next hany => exact lists_ofRow (Option.isNone_iff_eq_none.1 hany) row.2
    · next hany =>
      refine lists_nil ?_
      rintro x ⟨start, hof⟩
      exact hany (Option.isNone_iff_eq_none.2 hof.catchesAny)
  refine (lists_flatMap hrow).congr fun x => ?_
  simp only [Prod.exists, List.mem_zipIdx_iff_getElem?]
  constructor
  · rintro ⟨t, i, ht, start, hof⟩
    exact ⟨i, t, start, ht, hof⟩
  · rintro ⟨i, t, start, ht, hof⟩
    exact ⟨t, i, ht, start, hof⟩

/-- A finally block that calls `b`, with its copy behind the protected call of `a`. -/
def finallyStatement : Method where
  name := "m"
  desc := "()V"
  code := #[.label ⟨0⟩, .call .invokeStatic "C" "a" "()V" false, .label ⟨1⟩,
    .call .invokeStatic "C" "b" "()V" false, .jump .goto ⟨3⟩, .label ⟨2⟩, .var .astore 1,
    .call .invokeStatic "C" "b" "()V" false, .var .aload 1, .plain .athrow, .label ⟨3⟩,
    .plain .vreturn]
  tries := [⟨⟨0⟩, ⟨1⟩, ⟨2⟩, none⟩]
  placed_nodup := by decide
  mentioned_placed := by decide

example : (finallyBlocks.run finallyStatement { name := "C" } {}).findings =
    [.ignore 6 6, .merge 7 3, .ignore 8 9, .ignore 4 4] := by
  decide +kernel

end Winnow
